/-
# How the routing model decides

`routeFrontdeskTurn` of `routing/index.ts`. In every attempt the prompt is loaded, the workers are read, the model
is asked, and its answer is read as a decision. An error that may pass is answered by another attempt, up to the
configured number; another error, and an exception that is no routing error, end the loop. Then the configured
action is taken. A delegation of too low a confidence is no error: its own action is taken at once.

What may differ from attempt to attempt is its `RoutingWorld`: the files, the workers and the run of the provider.
The events of a run come in their order, unless the timer is first.

* `attemptOnce_decided`: what a decision comes from.
* `routeFrom_spec`: how the loop ends.
* `routing_sound`: **a decision is the model's, for a worker of that attempt and with enough confidence if it
  delegates, or the configured action with the code of the last failure.**
-/
import AgentDesk.EnforcedRouting
import AgentDesk.LlmConfig
import AgentDesk.RoutingContext
import AgentDesk.SessionFiles
import AgentDesk.Sha256
import Mathlib.Data.Rat.Floor

namespace AgentDesk.Routing

open JsonText SessionFiles

/-! ### Failures of the provider -/

/-- What is thrown: an `Error`, a value that counts as false, or another, with its text if `String` has one. -/
inductive Thrown where
  | error (message : Text)
  | falsy
  | value (text : Option Text)

/-- What leaves an attempt: an error of its own kind, or any other exception. -/
inductive Failure where
  | routing (e : RoutingAttemptError)
  | other

def isDigitUnit (c : UInt16) : Bool := unit '0' ≤ c && c ≤ unit '9'

/-- `http` or `status`, in any case, and what is after it. -/
def afterKeyword (t : Text) : Option Text :=
  if (ofString "http").isPrefixOf (t.map Formatter.lowerUnit) then some (t.drop 4)
  else if (ofString "status").isPrefixOf (t.map Formatter.lowerUnit) then some (t.drop 6)
  else none

/-- `[^0-9]*(\d\x7b3\x7d)`. -/
def threeDigits (t : Text) : Option ℕ :=
  let digits := t.dropWhile fun c => !isDigitUnit c
  if 3 ≤ (digits.takeWhile isDigitUnit).length then some (numeral (digits.take 3)) else none

/-- The first match of the pattern. -/
def statusMatch : Text → Option ℕ
  | [] => none
  | c :: t =>
    match (afterKeyword (c :: t)).bind threeDigits with
    | some status => some status
    | none => statusMatch t

def providerFailure (error : Thrown) (retryableOverride : Option Bool) : Failure :=
  let message := match error with
    | .error message => some message
    | .falsy => some (ofString "Routing provider transport failed")
    | .value text => text
  match message with
  | none => .other
  | some message =>
    match statusMatch message with
    | some status =>
      let retryable := retryableOverride.getD
        (status = 408 || status = 409 || status = 425 || status = 429 || 500 ≤ status)
      .routing ⟨.httpError, message, retryable⟩
    | none => .routing ⟨.transportError, message, retryableOverride.getD true⟩

/-! ### The prompt -/

/-- `TextDecoder('utf-8', { fatal: true })`, which leaves out a byte order mark. -/
def decodeUtf8 (bytes : List ℕ) : Option Text :=
  let bytes := if [0xef, 0xbb, 0xbf].isPrefixOf bytes then bytes.drop 3 else bytes
  (String.fromUTF8? ⟨(bytes.map UInt8.ofNat).toArray⟩).map ofString

def promptError (message : String) : Failure := .routing ⟨.promptUnavailable, ofString message, false⟩

def loadRoutingPrompt (d : SessionFiles.Disk) (agentRoot : List Name) (relativePath : Text) :
    Except Failure (Text × Text) :=
  if relativePath.head? = some (unit '/') || !staysInPrompts (posixNormal relativePath) then
    .error (promptError "Routing prompt must stay inside prompts/")
  else
    let names := (PosixPath.segments (unit '/') (unit '.') (slashed relativePath)).map utf8
    match d.realpath (agentRoot ++ [utf8 (ofString "prompts")]), d.realpath (agentRoot ++ names) with
    | .ok promptsRoot, .ok filePath =>
      -- below the root of the file system nothing begins with `//`
      if filePath ≠ promptsRoot ∧ (promptsRoot = [] ∨ promptsRoot.isPrefixOf filePath = false) then
        .error (promptError "Routing prompt escaped prompts/")
      else
        match d.readFile filePath with
        | .error _ => .error .other
        | .ok bytes =>
          if bytes.length = 0 ∨ 64 * 1024 < bytes.length then
            .error (promptError "Routing prompt must be between 1 byte and 64 KiB")
          else
            match decodeUtf8 bytes with
            | none => .error (promptError "Routing prompt must be valid UTF-8")
            | some text =>
              if trimText text = [] then .error (promptError "Routing prompt is empty")
              else .ok (text, (Sha256.hash bytes).hex.map unit)
    | _, _ => .error .other

/-! ### The answer -/

/-- A decision of the model. -/
structure ParsedDecision where
  action : RoutingAction
  target : Option Text
  targetAgentGroupId : Option Text
  confidence : ℚ
  reason : Text
  deriving DecidableEq

/-- The text from `t` on, in any case. -/
def startsWithTag (tag : String) (t : Text) : Bool := (ofString tag).isPrefixOf (t.map Formatter.lowerUnit)

/-- What is after the first `</think>`. -/
def afterThinking : Text → Option Text
  | [] => none
  | c :: t => if startsWithTag "</think>" (c :: t) then some ((c :: t).drop 8) else afterThinking t

/-- `/^<think>[\s\S]*?<\/think>\s*/i` is left out. -/
def withoutThinking (t : Text) : Text :=
  if startsWithTag "<think>" t then
    match afterThinking (t.drop 7) with
    | some rest => rest.dropWhile isSpaceUnit
    | none => t
  else t

/-- `z.string().trim().min(1)`. -/
def trimmedString : Value → Option Text
  | .str t => nonBlank t
  | _ => none

/-- `rawDecisionSchema`: the action, the target if there is one, the confidence and the reason. -/
def rawDecision (v : Value) : Option (RoutingAction × Option Text × ℚ × Text) :=
  match v with
  | .obj fields =>
    let action := (fieldText fields (ofString "action")).bind fun t =>
      RoutingAction.all.find? fun action => ofString action.name = t
    let target := match fields.lookup (ofString "target") with
      | none => some none
      | some v => (trimmedString v).map some
    let confidence := (fields.lookup (ofString "confidence")).bind unitInterval
    let reason := ((fields.lookup (ofString "reason")).bind trimmedString).filter fun t => t.length ≤ 500
    match action, target, confidence, reason with
    | some action, some target, some confidence, some reason => some (action, target, confidence, reason)
    | _, _, _, _ => none
  | _ => none

def parseError (code : RoutingFailureCode) (message : String) : RoutingAttemptError := ⟨code, ofString message, true⟩

def parseDecision (text : Text) (workers : List DestinationEntry) : Except RoutingAttemptError ParsedDecision :=
  let cleaned := trimText (withoutThinking (trimText text))
  if cleaned = [] then .error (parseError .emptyOutput "Routing model returned no output")
  else
    match parse cleaned with
    | none => .error (parseError .invalidJson "Routing model returned invalid JSON")
    | some json =>
      match rawDecision json with
      | none => .error (parseError .schemaInvalid "Routing output failed schema validation")
      | some (action, target, confidence, reason) =>
        if action ≠ .delegate then .ok ⟨action, none, none, confidence, reason⟩
        else
          match target with
          | none => .error (parseError .schemaInvalid "delegate requires target")
          | some target =>
            match workers.find? fun worker => worker.type = .agent && worker.name = target with
            | some worker =>
              match worker.agentGroupId with
              | none | some [] => .error (parseError .unknownTarget "delegate target is not a live worker")
              | some agentGroupId => .ok ⟨.delegate, some worker.name, some agentGroupId, confidence, reason⟩
            | none => .error (parseError .unknownTarget "delegate target is not a live worker")

/-! ### The query -/

/-- What a provider reports of one call of its model. -/
structure UsageEvent where
  model : Text
  inputTokens : Option ℚ
  outputTokens : Option ℚ
  totalTokens : Option ℚ
  durationMs : Option ℚ
  transport : Option Text

inductive ProviderEvent where
  | usage (event : UsageEvent)
  | error (message : Text) (retryable : Option Bool)
  | result (text : Option Text)
  | other

/-- One run of the provider: its events, what is thrown after the last of them, and what is thrown when they are no
longer asked for. -/
structure ProviderRun where
  queryThrows : Bool
  events : List ProviderEvent
  throws : Option Thrown
  closing : Option Thrown
  timesOut : Bool
  endThrows : Bool

structure RoutingUsage where
  provider : Text
  model : Text
  attempt : ℕ
  decisionId : Text
  event : UsageEvent

def thrownMessage (message : Text) : Thrown := if message = [] then .falsy else .value (some message)

/-- The events up to the first that ends the query. -/
def consume (usage : UsageEvent → RoutingUsage) (throws closing : Option Thrown) :
    List ProviderEvent → List RoutingUsage → Except Failure (Text × List RoutingUsage)
  | [], usages =>
    match throws with
    | some error => .error (providerFailure error none)
    | none => .ok ([], usages)
  | .usage event :: events, usages => consume usage throws closing events (usages ++ [usage event])
  | .error message retryable :: _, _ => .error (providerFailure (thrownMessage message) retryable)
  | .result text :: _, usages =>
    match closing with
    | some error => .error (providerFailure error none)
    | none => .ok (text.getD [], usages)
  | .other :: events, usages => consume usage throws closing events usages

section Turn

variable (config : RoutingLlmConfig) (decisionId : Text)

def routingUsage (attempt : ℕ) (event : UsageEvent) : RoutingUsage where
  provider := config.provider
  model := if event.model = [] then config.model else event.model
  attempt
  decisionId
  event

def timeoutError : Failure :=
  .routing ⟨.timeout, ofString "Routing request timed out after " ++ (decimalText ⌊config.timeoutMs⌋₊ ++ ofString "ms"),
    true⟩

def queryOnce (attempt : ℕ) (run : ProviderRun) : Except Failure (Text × List RoutingUsage) :=
  if run.queryThrows then .error .other
  else if run.endThrows then .error .other
  else if run.timesOut then .error (timeoutError config)
  else consume (routingUsage config decisionId attempt) run.throws run.closing run.events []

/-! ### The turn -/

inductive DecisionSource where
  | routingLlm | fallback
  deriving DecidableEq, Repr

/-- A decision, with what it is made of. -/
structure RoutingDecision extends EnforcedRoutingDecision where
  target : Option Text
  confidence : ℚ
  reason : Text
  source : DecisionSource
  provider : Text
  model : Text
  promptHash : Text
  attempts : ℕ
  fallbackReason : Option RoutingFailureCode
  deriving DecidableEq

def fallbackOf : RoutingFallbackAction → RoutingAction
  | .clarify => .clarify
  | .reject => .reject

def fallbackDecision (action : RoutingFallbackAction) (promptHash : Text) (attempts : ℕ) (code : RoutingFailureCode)
    (confidence : Option ℚ) : RoutingDecision where
  idSuffix := decisionId
  action := fallbackOf action
  targetAgentGroupId := none
  target := none
  confidence := confidence.getD 0
  reason := if code = .lowConfidence then ofString "low_confidence" else ofString "routing_unavailable"
  source := .fallback
  provider := config.provider
  model := config.model
  promptHash
  attempts
  fallbackReason := some code

/-- The model's decision as it is. -/
def modelDecision (parsed : ParsedDecision) (promptHash : Text) (attempt : ℕ) : RoutingDecision where
  idSuffix := decisionId
  action := parsed.action
  targetAgentGroupId := parsed.targetAgentGroupId
  target := parsed.target
  confidence := parsed.confidence
  reason := parsed.reason
  source := .routingLlm
  provider := config.provider
  model := config.model
  promptHash
  attempts := attempt
  fallbackReason := none

/-- What an attempt finds: the files, the workers if they can be read, and the provider. -/
structure RoutingWorld where
  disk : SessionFiles.Disk
  workers : Option (List DestinationEntry)
  run : ProviderRun

/-- How an attempt ends. -/
inductive AttemptEnd where
  | decided (decision : RoutingDecision) (usages : List RoutingUsage)
  | failed (code : RoutingFailureCode) (retryable : Bool)

/-- An attempt: the hash of its prompt if that was loaded, and whether the provider was asked. -/
structure Attempt where
  promptHash : Option Text
  queried : Bool
  ending : AttemptEnd

/-- The `catch` of an attempt. -/
def Failure.ending : Failure → AttemptEnd
  | .routing e => .failed e.code e.retryable
  | .other => .failed .promptUnavailable false

/-- The decision for an answer of the model. -/
def decisionOf (parsed : ParsedDecision) (promptHash : Text) (attempt : ℕ) : RoutingDecision :=
  if parsed.action = .delegate ∧ parsed.confidence < config.threshold then
    fallbackDecision config decisionId config.belowThresholdAction promptHash attempt .lowConfidence
      (some parsed.confidence)
  else modelDecision config decisionId parsed promptHash attempt

variable (timezone : Option Text) (agentRoot : List Name) (messages : List MessageInRow)

/-- One round of the loop. -/
def attemptOnce (attempt : ℕ) (world : RoutingWorld) : Attempt :=
  match loadRoutingPrompt world.disk agentRoot config.promptFile with
  | .error e => ⟨none, false, e.ending⟩
  | .ok (_, promptHash) =>
    match world.workers with
    | none => ⟨some promptHash, false, Failure.other.ending⟩
    | some workers =>
      match buildRoutingContext timezone workers ⌊config.maxChars⌋ messages ⌊config.maxMessages⌋₊ with
      | .error e => ⟨some promptHash, false, (Failure.routing e).ending⟩
      | .ok _ =>
        match queryOnce config decisionId attempt world.run with
        | .error e => ⟨some promptHash, true, e.ending⟩
        | .ok (text, usages) =>
          match parseDecision text workers with
          | .error e => ⟨some promptHash, true, (Failure.routing e).ending⟩
          | .ok parsed =>
            ⟨some promptHash, true, .decided (decisionOf config decisionId parsed promptHash attempt) usages⟩

/-- What the turn returns, and the attempts it made. -/
structure RoutedTurn where
  decision : RoutingDecision
  usages : List RoutingUsage
  attempts : List Attempt

/-- The loop, with so many attempts to go. -/
def routeFrom (worlds : ℕ → RoutingWorld) : ℕ → ℕ → RoutingFailureCode → Text → RoutedTurn
  | 0, attempts, lastCode, lastPromptHash =>
    ⟨fallbackDecision config decisionId config.action lastPromptHash attempts lastCode none, [], []⟩
  | left + 1, attempts, _, lastPromptHash =>
    let attempt := attemptOnce config decisionId timezone agentRoot messages (attempts + 1) (worlds (attempts + 1))
    let promptHash := attempt.promptHash.getD lastPromptHash
    match attempt.ending with
    | .decided decision usages => ⟨decision, usages, [attempt]⟩
    | .failed code true =>
      let rest := routeFrom worlds left (attempts + 1) code promptHash
      { rest with attempts := attempt :: rest.attempts }
    | .failed code false =>
      ⟨fallbackDecision config decisionId config.action promptHash (attempts + 1) code none, [], [attempt]⟩

def routeFrontdeskTurn (worlds : ℕ → RoutingWorld) : RoutedTurn :=
  routeFrom config decisionId timezone agentRoot messages worlds ⌊config.retryTimes + 1⌋₊ 0 .transportError []

/-! ### What a decision comes from -/

/-- The model's answer in an attempt, read with the workers of the attempt. -/
def Answers (attempt : ℕ) (world : RoutingWorld) (parsed : ParsedDecision) : Prop :=
  ∃ workers text usages, world.workers = some workers ∧
    queryOnce config decisionId attempt world.run = .ok (text, usages) ∧ parseDecision text workers = .ok parsed

/-- **A decision is for an answer of its attempt.** -/
theorem attemptOnce_decided {attempt : ℕ} {world : RoutingWorld} {decision : RoutingDecision}
    {usages : List RoutingUsage}
    (h : (attemptOnce config decisionId timezone agentRoot messages attempt world).ending = .decided decision usages) :
    ∃ parsed promptHash, Answers config decisionId attempt world parsed ∧
      decision = decisionOf config decisionId parsed promptHash attempt := by
  have hfailure : ∀ e : Failure, e.ending ≠ .decided decision usages := by
    intro e
    cases e <;> exact nofun
  rw [attemptOnce] at h
  split at h
  · exact absurd h (hfailure _)
  · split at h
    · exact absurd h (hfailure .other)
    · rename_i workers hworkers
      split at h
      · exact absurd h (hfailure (.routing _))
      · split at h
        · exact absurd h (hfailure _)
        · rename_i text usages' hquery
          split at h
          · exact absurd h (hfailure (.routing _))
          · rename_i parsed hparsed
            obtain ⟨rfl, -⟩ := AttemptEnd.decided.inj h
            exact ⟨parsed, _, ⟨workers, text, usages', hworkers, hquery, hparsed⟩, rfl⟩

/-- A target that is an agent with a group. -/
def LiveWorker (workers : List DestinationEntry) (parsed : ParsedDecision) : Prop :=
  ∃ worker ∈ workers, worker.type = .agent ∧ parsed.target = some worker.name ∧
    ∃ agentGroupId, agentGroupId ≠ [] ∧ worker.agentGroupId = some agentGroupId ∧
      parsed.targetAgentGroupId = some agentGroupId

/-- **A delegation that is read is to a worker.** -/
theorem parseDecision_delegate {text : Text} {workers : List DestinationEntry} {parsed : ParsedDecision}
    (h : parseDecision text workers = .ok parsed) (hdelegate : parsed.action = .delegate) :
    LiveWorker workers parsed := by
  rw [parseDecision] at h
  split at h
  · cases h
  · split at h
    · cases h
    · split at h
      · cases h
      · split at h
        · rename_i hother
          obtain rfl := Except.ok.inj h
          exact absurd hdelegate hother
        · split at h
          · cases h
          · split at h
            · rename_i worker hfind
              split at h
              · cases h
              · cases h
              · rename_i agentGroupId hempty hgroup
                obtain rfl := Except.ok.inj h
                have hworker := List.find?_some hfind
                rw [Bool.and_eq_true] at hworker
                refine ⟨worker, List.mem_of_find?_eq_some hfind, of_decide_eq_true hworker.1, rfl, agentGroupId, ?_,
                  hgroup, rfl⟩
                exact hempty
            · cases h

/-- The code of the last failure, `code` before the first. -/
def lastFailure (code : RoutingFailureCode) : List Attempt → RoutingFailureCode
  | [] => code
  | attempt :: attempts =>
    match attempt.ending with
    | .failed code _ => lastFailure code attempts
    | .decided _ _ => lastFailure code attempts

/-- The last failure was not to be tried again, or there were no attempts left. -/
def GivenUp (left : ℕ) (attempts : List Attempt) : Prop :=
  (∃ attempt code, attempts.getLast? = some attempt ∧ attempt.ending = .failed code false) ∨
    attempts.length = left ∧ ∀ attempt ∈ attempts, ∃ code, attempt.ending = .failed code true

theorem GivenUp.cons {left : ℕ} {attempts : List Attempt} {attempt : Attempt} {code : RoutingFailureCode}
    (h : GivenUp left attempts) (hending : attempt.ending = .failed code true) :
    GivenUp (left + 1) (attempt :: attempts) := by
  rcases h with ⟨last, code', hlast, hfailed⟩ | ⟨hlength, hall⟩
  · refine .inl ⟨last, code', ?_, hfailed⟩
    rw [List.getLast?_cons, hlast, Option.getD_some]
  · refine .inr ⟨congrArg Nat.succ hlength, ?_⟩
    exact List.forall_mem_cons.mpr ⟨⟨code, hending⟩, hall⟩

/-- How the loop ends, after so many attempts. -/
structure Routed (worlds : ℕ → RoutingWorld) (left attempts : ℕ) (code : RoutingFailureCode) (out : RoutedTurn) :
    Prop where
  count : out.attempts.length ≤ left
  made : out.attempts = (List.range' (attempts + 1) out.attempts.length).map fun n =>
    attemptOnce config decisionId timezone agentRoot messages n (worlds n)
  goesOn : ∀ before attempt after, out.attempts = before ++ attempt :: after → after ≠ [] →
    ∃ code, attempt.ending = .failed code true
  decision : (∃ attempt usages, out.attempts.getLast? = some attempt ∧ attempt.ending = .decided out.decision usages) ∨
    GivenUp left out.attempts ∧ ∃ promptHash, out.decision = fallbackDecision config decisionId config.action promptHash
      (attempts + out.attempts.length) (lastFailure code out.attempts) none

theorem routeFrom_spec (worlds : ℕ → RoutingWorld) (left attempts : ℕ) (code : RoutingFailureCode) (promptHash : Text) :
    Routed config decisionId timezone agentRoot messages worlds left attempts code
      (routeFrom config decisionId timezone agentRoot messages worlds left attempts code promptHash) := by
  induction left generalizing attempts code promptHash with
  | zero =>
    have hnone : ∀ before attempt after, ([] : List Attempt) = before ++ attempt :: after → after ≠ [] →
        ∃ code, attempt.ending = .failed code true := by
      intro before attempt after h
      exact absurd h.symm (List.append_ne_nil_of_right_ne_nil _ (List.cons_ne_nil _ _))
    exact ⟨Nat.zero_le 0, rfl, hnone, .inr ⟨.inr ⟨rfl, List.forall_mem_nil _⟩, promptHash, rfl⟩⟩
  | succ left ih =>
    rw [routeFrom]
    generalize hattempt : attemptOnce config decisionId timezone agentRoot messages (attempts + 1)
      (worlds (attempts + 1)) = attempt
    have hone : ∀ before next after, [attempt] = before ++ next :: after → after ≠ [] →
        ∃ code, next.ending = .failed code true := by
      intro before next after h hne
      have hlength := congrArg List.length h
      have hpos := List.length_pos_iff.mpr hne
      simp at hlength
      omega
    have hmade : [attempt] = (List.range' (attempts + 1) 1).map fun n =>
        attemptOnce config decisionId timezone agentRoot messages n (worlds n) := by
      rw [← hattempt]
      rfl
    dsimp only
    split
    · rename_i decision usages hending
      exact ⟨Nat.le_add_left 1 left, hmade, hone, .inl ⟨attempt, usages, rfl, hending⟩⟩
    · rename_i code' hending
      obtain ⟨hcount, hrest, hgoesOn, hdecision⟩ := ih (attempts + 1) code' (attempt.promptHash.getD promptHash)
      generalize routeFrom config decisionId timezone agentRoot messages worlds left (attempts + 1) code'
        (attempt.promptHash.getD promptHash) = rest at *
      refine ⟨Nat.succ_le_succ hcount, ?_, ?_, ?_⟩
      · show attempt :: rest.attempts = (List.range' (attempts + 1) (rest.attempts.length + 1)).map _
        rw [List.range'_succ, List.map_cons, hattempt, ← hrest]
      · intro before next after h hne
        rcases List.cons_eq_append_iff.mp h with ⟨rfl, hcons⟩ | ⟨before', rfl, htail⟩
        · obtain ⟨rfl, -⟩ := List.cons.inj hcons
          exact ⟨code', hending⟩
        · exact hgoesOn before' next after htail hne
      · rcases hdecision with ⟨last, usages, hlast, hdecided⟩ | ⟨hgivenUp, hash, hfallback⟩
        · refine .inl ⟨last, usages, ?_, hdecided⟩
          show (attempt :: rest.attempts).getLast? = some last
          rw [List.getLast?_cons, hlast, Option.getD_some]
        · refine .inr ⟨hgivenUp.cons hending, hash, ?_⟩
          have hcode : lastFailure code (attempt :: rest.attempts) = lastFailure code' rest.attempts := by
            rw [lastFailure, hending]
          have hnumber : attempts + (rest.attempts.length + 1) = attempts + 1 + rest.attempts.length := by omega
          show rest.decision = fallbackDecision config decisionId config.action hash
            (attempts + (rest.attempts.length + 1)) (lastFailure code (attempt :: rest.attempts)) none
          rw [hcode, hnumber, hfallback]
    · rename_i code' hending
      refine ⟨Nat.le_add_left 1 left, hmade, hone, .inr ⟨.inl ⟨attempt, code', rfl, hending⟩,
        attempt.promptHash.getD promptHash, ?_⟩⟩
      have hcode : lastFailure code [attempt] = code' := by
        simp only [lastFailure, hending]
      show fallbackDecision config decisionId config.action _ (attempts + 1) code' none = _
      rw [hcode]
      rfl

theorem Routed.last {worlds : ℕ → RoutingWorld} {left attempts : ℕ} {code : RoutingFailureCode} {out : RoutedTurn}
    (h : Routed config decisionId timezone agentRoot messages worlds left attempts code out) {attempt : Attempt}
    (hlast : out.attempts.getLast? = some attempt) :
    attempt = attemptOnce config decisionId timezone agentRoot messages (attempts + out.attempts.length)
      (worlds (attempts + out.attempts.length)) := by
  rw [h.made, List.getLast?_map] at hlast
  obtain ⟨n, hn, rfl⟩ := Option.map_eq_some_iff.mp hlast
  have hnumber : n = attempts + out.attempts.length := by
    rw [List.getLast?_range'] at hn
    split at hn
    · cases hn
    · have hpos := Option.some.inj hn
      omega
  rw [← hnumber]

/-- What a turn may decide in an attempt, after the failures before it. -/
inductive Sound (worlds : ℕ → RoutingWorld) (attempts : List Attempt) : RoutingDecision → Prop
  | delegate (parsed : ParsedDecision) (promptHash : Text) (workers : List DestinationEntry) :
      Answers config decisionId attempts.length (worlds attempts.length) parsed →
      (worlds attempts.length).workers = some workers → LiveWorker workers parsed →
      parsed.action = .delegate → config.threshold ≤ parsed.confidence →
      Sound worlds attempts (modelDecision config decisionId parsed promptHash attempts.length)
  | other (parsed : ParsedDecision) (promptHash : Text) :
      Answers config decisionId attempts.length (worlds attempts.length) parsed → parsed.action ≠ .delegate →
      Sound worlds attempts (modelDecision config decisionId parsed promptHash attempts.length)
  | lowConfidence (parsed : ParsedDecision) (promptHash : Text) :
      Answers config decisionId attempts.length (worlds attempts.length) parsed → parsed.action = .delegate →
      parsed.confidence < config.threshold →
      Sound worlds attempts (fallbackDecision config decisionId config.belowThresholdAction promptHash attempts.length
        .lowConfidence (some parsed.confidence))
  | failed (promptHash : Text) : GivenUp ⌊config.retryTimes + 1⌋₊ attempts →
      Sound worlds attempts (fallbackDecision config decisionId config.action promptHash attempts.length
        (lastFailure .transportError attempts) none)

/-- **A routing decision is sound**: the queries are no more than the attempts allowed, another attempt follows only an
error that may pass, and what is decided is what the model has said in the last attempt, to a worker of that attempt
and with enough confidence if it delegates, or a configured action. -/
theorem routing_sound (worlds : ℕ → RoutingWorld) :
    let out := routeFrontdeskTurn config decisionId timezone agentRoot messages worlds
    (out.attempts.filter Attempt.queried).length ≤ ⌊config.retryTimes + 1⌋₊ ∧
    (∀ before attempt after, out.attempts = before ++ attempt :: after → after ≠ [] →
      ∃ code, attempt.ending = .failed code true) ∧
    Sound config decisionId worlds out.attempts out.decision := by
  intro out
  have hout : Routed config decisionId timezone agentRoot messages worlds ⌊config.retryTimes + 1⌋₊ 0 .transportError
      out := routeFrom_spec ..
  refine ⟨(List.length_filter_le _ _).trans hout.count, hout.goesOn, ?_⟩
  rcases hout.decision with ⟨attempt, usages, hlast, hdecided⟩ | ⟨hgivenUp, promptHash, hfallback⟩
  · obtain rfl := hout.last config decisionId timezone agentRoot messages hlast
    rw [Nat.zero_add] at hdecided
    obtain ⟨parsed, promptHash, hanswers, hdecision⟩ :=
      attemptOnce_decided config decisionId timezone agentRoot messages hdecided
    rw [hdecision, decisionOf]
    split
    · rename_i hlow
      exact .lowConfidence parsed promptHash hanswers hlow.1 hlow.2
    · rename_i henough
      by_cases hdelegate : parsed.action = .delegate
      · obtain ⟨workers, text, usages', hworkers, hquery, hparsed⟩ := id hanswers
        refine .delegate parsed promptHash workers hanswers hworkers (parseDecision_delegate hparsed hdelegate) hdelegate
          (not_lt.mp fun hlow => henough ⟨hdelegate, hlow⟩)
      · exact .other parsed promptHash hanswers hdelegate
  · rw [Nat.zero_add] at hfallback
    rw [hfallback]
    exact .failed promptHash hgivenUp

end Turn

end AgentDesk.Routing
