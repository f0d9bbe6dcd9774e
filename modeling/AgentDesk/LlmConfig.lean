/-
# The routing configuration, as the host and the runner read it

The `llm` field of `container.json` is read twice. The host checks it, `normalizeDualLlmConfig`, and writes
it back whenever anything in the file changes; the runner checks it again in the container,
`buildDualLlmConfig`, and puts in the defaults. The two are written apart from each other and are meant to
agree.

Field by field they nearly do. An explicit `null` threshold is an error for the host and no threshold for the
runner. And the prompt file is trimmed before the path is normalized, but not after: a normal path may end in
white space (`prompts/a.md /.`), which is trimmed away the next time.

* `promptFile_stable_iff`: when a prompt file that was written back is read as before.
* `integer_ok_iff`, `threshold_ok_iff`: which numbers the two take.
* `integer_rewritten`, `threshold_rewritten`: the runner reads the same from what the host has written.

The texts are in UTF-16 units, numbers are binary64, and what is written back is what `JSON.parse` makes of
what `JSON.stringify` writes.
-/
import AgentDesk.JsonSettings
import AgentDesk.Js
import AgentDesk.PosixPath

namespace JsonText

open Binary64

/-! ### Reading properties -/

/-- The value of a number that is finite. -/
def finiteValue : Double → Option ℚ
  | .infinity _ => none
  | .finite neg units _ => some ((if neg then -(units : ℚ) else units) / 2 ^ places)

/-- `typeof v === 'string' ? v.trim() : ''`. -/
def trimmedText : Option Value → Text
  | some (.str t) => trimText t
  | _ => []

def isTrue : Option Value → Bool
  | some (.bool true) => true
  | _ => false

/-- A finite number. -/
def number? : Value → Option ℚ
  | .num x => finiteValue x
  | _ => none

/-- An integer in a range. -/
def integerIn (min max : ℕ) (v : Value) : Option ℚ :=
  (number? v).filter fun q => q.den = 1 && min ≤ q && q ≤ max

/-- A number from 0 to 1. -/
def unitInterval (v : Value) : Option ℚ := (number? v).filter fun q => 0 ≤ q && q ≤ 1

end JsonText

namespace AgentDesk

open JsonText Js

/-! ### The settings -/

inductive LlmTransport where
  | responses | chatCompletions
  deriving DecidableEq, Repr

def LlmTransport.text : LlmTransport → Text
  | .responses => ofString "responses"
  | .chatCompletions => ofString "chat-completions"

inductive RoutingFallbackAction where
  | clarify | reject
  deriving DecidableEq, Repr

def RoutingFallbackAction.text : RoutingFallbackAction → Text
  | .clarify => ofString "clarify"
  | .reject => ofString "reject"

structure RoutingLlmConfig where
  provider : Text
  model : Text
  transport : LlmTransport
  promptFile : Text
  timeoutMs : ℚ
  retryTimes : ℚ
  maxMessages : ℚ
  maxChars : ℚ
  threshold : ℚ
  belowThresholdAction : RoutingFallbackAction
  action : RoutingFallbackAction

structure ExecutionLlmConfig where
  provider : Text
  model : Option Text
  transport : Option LlmTransport

structure DualLlmConfig where
  routing : Option RoutingLlmConfig
  execution : Option ExecutionLlmConfig

/-! ### The checks -/

/-- One of the texts, `none` inside for no value. -/
def oneOf {α : Type} (text : α → Text) (options : List α) : Option Value → Option (Option α)
  | none => some none
  | some (.str t) => (options.find? fun a => text a = t).map some
  | some _ => none

def transportOf (value : Option Value) (field : String) : Except String (Option LlmTransport) :=
  match oneOf LlmTransport.text [.responses, .chatCompletions] value with
  | some transport => .ok transport
  | none => .error s!"{field} must be responses or chat-completions"

def requiredText (value : Option Value) (message : String) : Except String Text :=
  if trimmedText value = [] then .error message else .ok (trimmedText value)

def requiredRoutingString (value : Option Value) (field : String) : Except String Text :=
  requiredText value s!"{field} is required"

/-- `t.replaceAll('\\', '/')`. -/
def slashed (t : Text) : Text := t.map fun c => if c = unit '\\' then unit '/' else c

/-- The normal path of a prompt file. -/
def posixNormal (t : Text) : Text := PosixPath.normalize (unit '/') (unit '.') (slashed t)

def staysInPrompts (normalized : Text) : Bool :=
  normalized ≠ ofString ".." && !(ofString "../").isPrefixOf normalized && (ofString "prompts/").isPrefixOf normalized

/-- The check of a prompt file, the same on both sides. -/
def promptFileOf (value : Option Value) : Except String Text :=
  requiredRoutingString value "llm.routing.promptFile" >>= fun raw =>
    if raw.head? = some (unit '/') then .error "llm.routing.promptFile must be relative"
    else if !staysInPrompts (posixNormal raw) then .error "llm.routing.promptFile must stay inside prompts/"
    else .ok (posixNormal raw)

def safeRoutingPromptFile (value : Option Value) : Except String Text := promptFileOf value

def routingPromptFile (value : Option Value) : Except String Text := promptFileOf value

/-- An integer that may be left out, as the file has it. -/
def optionalRoutingInteger (value : Option Value) (field : String) (min max : ℕ) : Except String (Option Value) :=
  match value with
  | none => .ok none
  | some v => if (integerIn min max v).isSome then .ok (some v)
    else .error s!"{field} must be an integer in [{min}, {max}]"

def boundedInteger (value : Option Value) (fallback : ℚ) (min max : ℕ) (field : String) : Except String ℚ :=
  match value with
  | none => .ok fallback
  | some v => match integerIn min max v with
    | some q => .ok q
    | none => .error s!"{field} must be an integer in [{min}, {max}]"

def routingAction (value : Option Value) (field : String) : Except String (Option RoutingFallbackAction) :=
  match oneOf RoutingFallbackAction.text [.clarify, .reject] value with
  | some action => .ok action
  | none => .error s!"{field} must be clarify or reject"

def fallbackAction (value : Option Value) (field : String) : Except String RoutingFallbackAction :=
  (routingAction value field).map (·.getD .clarify)

def thresholdMessage : String := "llm.routing.confidence.threshold must be a finite number in [0, 1]"

/-! ### The runner -/

def defaultRoutingTimeoutMs : ℚ := 10000
def defaultRoutingRetryTimes : ℚ := 1
def defaultRoutingMaxMessages : ℚ := 4
def defaultRoutingMaxChars : ℚ := 12000

/-- The binary64 number next to 0.7. -/
def defaultRoutingConfidence : ℚ := (finiteValue (.ofDecimal ⟨false, 7, -1⟩)).getD 0

/-- `confidence.threshold ?? DEFAULT_ROUTING_CONFIDENCE`. -/
def runnerThreshold : Option Value → Except String ℚ
  | none | some .null => .ok defaultRoutingConfidence
  | some v => match unitInterval v with
    | some q => .ok q
    | none => .error thresholdMessage

def buildRoutingLlm (routing : List (Text × Value)) : Except String RoutingLlmConfig :=
  let context := (isRecord (field routing "context")).getD []
  let confidence := (isRecord (field routing "confidence")).getD []
  let fallback := (isRecord (field routing "fallback")).getD []
  requiredText (field routing "provider") "llm.routing.provider is required when routing is enabled" >>= fun provider =>
  requiredText (field routing "model") "llm.routing.model is required when routing is enabled" >>= fun model =>
  runnerThreshold (field confidence "threshold") >>= fun threshold =>
  transportOf (field routing "transport") "llm.routing.transport" >>= fun transport =>
  safeRoutingPromptFile (field routing "promptFile") >>= fun promptFile =>
  boundedInteger (field routing "timeoutMs") defaultRoutingTimeoutMs 1000 120000
    "llm.routing.timeoutMs" >>= fun timeoutMs =>
  boundedInteger (field routing "retryTimes") defaultRoutingRetryTimes 0 3
    "llm.routing.retryTimes" >>= fun retryTimes =>
  boundedInteger (field context "maxMessages") defaultRoutingMaxMessages 1 10
    "llm.routing.context.maxMessages" >>= fun maxMessages =>
  boundedInteger (field context "maxChars") defaultRoutingMaxChars 1000 50000
    "llm.routing.context.maxChars" >>= fun maxChars =>
  fallbackAction (field confidence "belowThresholdAction")
    "llm.routing.confidence.belowThresholdAction" >>= fun belowThresholdAction =>
  fallbackAction (field fallback "action") "llm.routing.fallback.action" >>= fun action =>
  .ok { provider, model, transport := transport.getD .chatCompletions, promptFile, timeoutMs, retryTimes, maxMessages
        maxChars, threshold, belowThresholdAction, action }

/-- The execution model; no block without a provider. -/
def buildExecutionLlm (execution : List (Text × Value)) : Except String (Option ExecutionLlmConfig) :=
  let provider := trimmedText (field execution "provider")
  let model := trimmedText (field execution "model")
  if provider = [] then .ok none
  else (transportOf (field execution "transport") "llm.execution.transport").map fun transport =>
    some { provider, model := if model = [] then none else some model, transport }

def blockOf (fields : List (Text × Value)) (key : String) : Option (List (Text × Value)) :=
  isRecord (field fields key)

/-- The routing block, when it is enabled. -/
def enabledRouting (fields : List (Text × Value)) : Option (List (Text × Value)) :=
  (blockOf fields "routing").filter fun routing => isTrue (field routing "enabled")

/-- A block that is only looked at when it is there. -/
def readBlock {α β : Type} (read : α → Except String (Option β)) : Option α → Except String (Option β)
  | none => .ok none
  | some block => read block

/-- `out.routing || out.execution ? out : undefined`. -/
def dualLlmOf (routing : Option RoutingLlmConfig) (execution : Option ExecutionLlmConfig) : Option DualLlmConfig :=
  if routing.isSome || execution.isSome then some { routing, execution } else none

def buildDualLlmConfig (value : Option Value) : Except String (Option DualLlmConfig) :=
  match isRecord value with
  | none => .ok none
  | some fields =>
    readBlock buildExecutionLlm (blockOf fields "execution") >>= fun execution =>
    readBlock (fun routing => (buildRoutingLlm routing).map some) (enabledRouting fields) >>= fun routing =>
    .ok (dualLlmOf routing execution)

/-! ### The host -/

def hostThreshold : Option Value → Except String (Option Value)
  | none => .ok none
  | some v => if (unitInterval v).isSome then .ok (some v) else .error thresholdMessage

def text (t : Text) : Option Value := some (.str t)

def contextProperties (maxMessages maxChars : Option Value) : List (String × Option Value) :=
  [("maxMessages", maxMessages), ("maxChars", maxChars)]

def confidenceProperties (threshold : Option Value) (belowThresholdAction : Option RoutingFallbackAction) :
    List (String × Option Value) :=
  [("threshold", threshold), ("belowThresholdAction", belowThresholdAction.map fun a => .str a.text)]

def fallbackProperties (action : RoutingFallbackAction) : List (String × Option Value) := [("action", text action.text)]

def routingProperties (provider model promptFile : Text) (transport : Option LlmTransport)
    (timeoutMs retryTimes context confidence fallback : Option Value) : List (String × Option Value) :=
  [("enabled", some (.bool true)), ("provider", text provider), ("model", text model), ("promptFile", text promptFile),
    ("transport", transport.map fun t => .str t.text), ("timeoutMs", timeoutMs), ("retryTimes", retryTimes),
    ("context", context), ("confidence", confidence), ("fallback", fallback)]

def executionProperties (provider model : Text) (transport : Option LlmTransport) : List (String × Option Value) :=
  [("provider", text provider), ("model", if model = [] then none else text model),
    ("transport", transport.map fun t => .str t.text)]

def normalizeRoutingLlm (routing : List (Text × Value)) : Except String Value :=
  let context := isRecord (field routing "context")
  let confidence := isRecord (field routing "confidence")
  let fallback := isRecord (field routing "fallback")
  transportOf (field routing "transport") "llm.routing.transport" >>= fun transport =>
  optionalRoutingInteger (field routing "timeoutMs") "llm.routing.timeoutMs" 1000 120000 >>= fun timeoutMs =>
  optionalRoutingInteger (field routing "retryTimes") "llm.routing.retryTimes" 0 3 >>= fun retryTimes =>
  optionalRoutingInteger (field (context.getD []) "maxMessages")
    "llm.routing.context.maxMessages" 1 10 >>= fun maxMessages =>
  optionalRoutingInteger (field (context.getD []) "maxChars")
    "llm.routing.context.maxChars" 1000 50000 >>= fun maxChars =>
  hostThreshold (field (confidence.getD []) "threshold") >>= fun threshold =>
  routingAction (field (confidence.getD []) "belowThresholdAction")
    "llm.routing.confidence.belowThresholdAction" >>= fun belowThresholdAction =>
  routingAction (field (fallback.getD []) "action") "llm.routing.fallback.action" >>= fun action =>
  requiredRoutingString (field routing "provider") "llm.routing.provider" >>= fun provider =>
  requiredRoutingString (field routing "model") "llm.routing.model" >>= fun model =>
  routingPromptFile (field routing "promptFile") >>= fun promptFile =>
  .ok (objectOf (routingProperties provider model promptFile transport timeoutMs retryTimes
    (context.map fun _ => objectOf (contextProperties maxMessages maxChars))
    (confidence.map fun _ => objectOf (confidenceProperties threshold belowThresholdAction))
    (action.map fun a => objectOf (fallbackProperties a))))

def normalizeExecutionLlm (execution : List (Text × Value)) : Except String (Option Value) :=
  let provider := trimmedText (field execution "provider")
  let model := trimmedText (field execution "model")
  if provider = [] then .ok none
  else (transportOf (field execution "transport") "llm.execution.transport").map fun transport =>
    some (objectOf (executionProperties provider model transport))

def dualProperties (execution routing : Option Value) : List (String × Option Value) :=
  [("execution", execution), ("routing", routing)]

def normalizeDualLlmConfig (value : Option Value) : Except String (Option Value) :=
  match isRecord value with
  | none => .ok none
  | some fields =>
    readBlock normalizeExecutionLlm (blockOf fields "execution") >>= fun execution =>
    readBlock (fun routing => (normalizeRoutingLlm routing).map some) (enabledRouting fields) >>= fun routing =>
    .ok (if routing.isSome || execution.isSome then some (objectOf (dualProperties execution routing)) else none)

/-- The `llm` field of `readContainerConfig`: a block that is not modelled stays as it is. -/
def readLlm (value : Option Value) : Except String (Option Value) :=
  (normalizeDualLlmConfig value).map fun normalized => normalized.or ((isRecord value).map .obj)

end AgentDesk

namespace JsonText

open Binary64

/-! ### What is written back -/

theorem number?_rewritten {v : Value} {q : ℚ} (h : number? v = some q) : number? (rewritten v) = some q := by
  cases v with
  | num x =>
    by_cases hx : writable x = true
    · have hsame : rewritten (.num x) = .num x := (eval_numberTree x).mpr hx
      rw [hsame]
      exact h
    · cases x with
      | infinity neg => cases h
      | finite neg units hunits =>
        have hzero : units = 0 := by
          by_contra hne
          exact hx (by simp [writable, hne])
        subst hzero
        have hq : (0 : ℚ) = q := by
          have hvalue := Option.some.inj h
          simpa using hvalue
        have htree : numberTree (.finite neg 0 hunits) = numberTree (.finite false 0 hunits) := by
          rw [numberTree, numberTree, if_pos rfl, if_pos rfl]
        have hvalue : rewritten (.num (.finite neg 0 hunits)) = .num (.finite false 0 hunits) := by
          rw [rewritten, Json.toTree, htree]
          exact (eval_numberTree (.finite false 0 hunits)).mpr (by simp [writable])
        rw [← hq, hvalue]
        simp [number?, finiteValue]
  | _ => cases h

theorem integerIn_rewritten {v : Value} {min max : ℕ} {q : ℚ} (h : integerIn min max v = some q) :
    integerIn min max (rewritten v) = some q := by
  obtain ⟨hnumber, hrange⟩ := Option.filter_eq_some_iff.mp h
  exact Option.filter_eq_some_iff.mpr ⟨number?_rewritten hnumber, hrange⟩

theorem unitInterval_rewritten {v : Value} {q : ℚ} (h : unitInterval v = some q) : unitInterval (rewritten v) = some q := by
  obtain ⟨hnumber, hrange⟩ := Option.filter_eq_some_iff.mp h
  exact Option.filter_eq_some_iff.mpr ⟨number?_rewritten hnumber, hrange⟩

theorem ordered_of_number {v : Value} {q : ℚ} (h : number? v = some q) : v.Ordered := by
  cases v with
  | num x => exact trivial
  | _ => cases h

theorem trimmedText_rewritten (v : Option Value) : trimmedText (v.map rewritten) = trimmedText v := by
  cases v with
  | none => rfl
  | some v =>
    have htext := text_toTree v
    cases v with
    | num x =>
      have hnone : (rewritten (.num x)).text? = none := htext
      show trimmedText (some (rewritten (.num x))) = []
      cases hr : rewritten (.num x) with
      | str t =>
        rw [hr] at hnone
        cases hnone
      | _ => rfl
    | _ => rfl

theorem trimText_trimmedText (v : Option Value) : trimText (trimmedText v) = trimmedText v := by
  unfold trimmedText
  split
  · exact trimText_trimText _
  · rfl

theorem isTrue_rewritten (v : Option Value) : isTrue (v.map rewritten) = isTrue v := by
  cases v with
  | none => rfl
  | some v =>
    cases v with
    | num x =>
      show isTrue (some (rewritten (.num x))) = false
      rw [rewritten, Json.toTree]
      cases x <;> rfl
    | _ => rfl

end JsonText

namespace AgentDesk

open JsonText Js

/-! ### Prompt files -/

theorem requiredText_eq_ok {value : Option Value} {message : String} {t : Text} :
    requiredText value message = .ok t ↔ trimmedText value ≠ [] ∧ t = trimmedText value := by
  unfold requiredText
  by_cases hempty : trimmedText value = []
  · simp [hempty]
  · simp [hempty, eq_comm]

theorem promptFileOf_eq_ok {value : Option Value} {n : Text} :
    promptFileOf value = .ok n ↔ trimmedText value ≠ [] ∧ (trimmedText value).head? ≠ some (unit '/') ∧
      staysInPrompts n = true ∧ n = posixNormal (trimmedText value) := by
  unfold promptFileOf requiredRoutingString
  rw [bind_eq_ok]
  constructor
  · rintro ⟨raw, hraw, h⟩
    obtain ⟨hne, rfl⟩ := requiredText_eq_ok.mp hraw
    by_cases habsolute : (trimmedText value).head? = some (unit '/')
    · rw [if_pos habsolute] at h
      cases h
    · rw [if_neg habsolute] at h
      by_cases hstays : staysInPrompts (posixNormal (trimmedText value)) = true
      · simp only [hstays, Bool.not_true, Bool.false_eq_true, if_false] at h
        obtain rfl := Except.ok.inj h
        exact ⟨hne, habsolute, hstays, rfl⟩
      · simp [hstays] at h
  · rintro ⟨hne, habsolute, hstays, rfl⟩
    refine ⟨_, requiredText_eq_ok.mpr ⟨hne, rfl⟩, ?_⟩
    rw [if_neg habsolute]
    simp [hstays]

theorem posixNormal_length {t : Text} (ht : t ≠ []) : (posixNormal t).length ≤ t.length := by
  have hlength : (posixNormal t).length ≤ (slashed t).length :=
    PosixPath.length_normalize_le (by simpa [slashed] using ht)
  rwa [slashed, List.length_map] at hlength

theorem backslash_not_mem (t : Text) : unit '\\' ∉ posixNormal t := by
  intro hmem
  rcases PosixPath.mem_normalize hmem with hslash | hdot | hpath
  · exact absurd hslash (by decide)
  · exact absurd hdot (by decide)
  · obtain ⟨c, -, hc⟩ := List.mem_map.mp hpath
    split at hc
    · exact absurd hc (by decide)
    · rename_i hne
      exact hne hc

theorem posixNormal_posixNormal (t : Text) : posixNormal (posixNormal t) = posixNormal t := by
  have hsame : slashed (posixNormal t) = posixNormal t := by
    conv_rhs => rw [← List.map_id (posixNormal t)]
    refine List.map_congr_left fun c hc => if_neg ?_
    rintro rfl
    exact backslash_not_mem t hc
  have hslash : unit '/' ≠ unit '.' := by decide
  rw [posixNormal, hsame, posixNormal, PosixPath.normalize_normalize hslash]

theorem trimText_sublist (t : Text) : (trimText t).Sublist t := by
  have hfront : (trimText t) <+: t.dropWhile isSpaceUnit := List.rdropWhile_prefix isSpaceUnit _
  exact hfront.sublist.trans (List.dropWhile_sublist isSpaceUnit)

/-- **A prompt file that was written back** is read as before when its normal path is trimmed. -/
theorem promptFile_stable_iff {value : Option Value} {n : Text} (h : promptFileOf value = .ok n) :
    promptFileOf (text n) = .ok n ↔ trimText n = n := by
  obtain ⟨-, -, hstays, hn⟩ := promptFileOf_eq_ok.mp h
  have htext : trimmedText (text n) = trimText n := rfl
  constructor
  · intro hagain
    obtain ⟨hne, -, -, hsame⟩ := promptFileOf_eq_ok.mp hagain
    rw [htext] at hne hsame
    have hle : n.length ≤ (trimText n).length := by
      conv_lhs => rw [hsame]
      exact posixNormal_length hne
    exact (trimText_sublist n).eq_of_length_le hle
  · intro htrim
    obtain ⟨rest, hrest⟩ : ofString "prompts/" <+: n := by
      rw [staysInPrompts, Bool.and_eq_true] at hstays
      exact List.isPrefixOf_iff_prefix.mp hstays.2
    have hhead : n.head? = some (unit 'p') := by
      rw [← hrest]
      rfl
    refine promptFileOf_eq_ok.mpr ⟨?_, ?_, hstays, ?_⟩
    · rw [htext, htrim]
      rintro rfl
      cases hhead
    · rw [htext, htrim, hhead]
      decide
    · rw [htext, htrim, hn, posixNormal_posixNormal]

/-! ### Field by field -/

theorem optionalRoutingInteger_eq_ok {value w : Option Value} {field : String} {min max : ℕ} :
    optionalRoutingInteger value field min max = .ok w ↔
      w = value ∧ ∀ v, value = some v → ∃ q, integerIn min max v = some q := by
  cases value with
  | none => simp [optionalRoutingInteger, eq_comm]
  | some v =>
    cases hv : integerIn min max v with
    | none => simp [optionalRoutingInteger, hv]
    | some q => simp [optionalRoutingInteger, hv, eq_comm]

theorem integer_ordered {value w : Option Value} {field : String} {min max : ℕ}
    (h : optionalRoutingInteger value field min max = .ok w) : ∀ v, w = some v → v.Ordered := by
  obtain ⟨rfl, hall⟩ := optionalRoutingInteger_eq_ok.mp h
  intro v hv
  obtain ⟨q, hq⟩ := hall v hv
  exact ordered_of_number (Option.filter_eq_some_iff.mp hq).1

/-- The runner takes the same. -/
theorem integer_ok_iff {value : Option Value} {fallback : ℚ} {field : String} {min max : ℕ} :
    (∃ q, boundedInteger value fallback min max field = .ok q) ↔
      ∃ w, optionalRoutingInteger value field min max = .ok w := by
  cases value with
  | none => exact iff_of_true ⟨fallback, rfl⟩ ⟨none, rfl⟩
  | some v =>
    cases hv : integerIn min max v with
    | none => simp [optionalRoutingInteger, boundedInteger, hv]
    | some q => simp [optionalRoutingInteger, boundedInteger, hv]

/-- And reads the same from what was written back. -/
theorem integer_rewritten {value w : Option Value} {fallback : ℚ} {field : String} {min max : ℕ}
    (h : optionalRoutingInteger value field min max = .ok w) :
    boundedInteger (w.map rewritten) fallback min max field = boundedInteger value fallback min max field := by
  obtain ⟨rfl, hall⟩ := optionalRoutingInteger_eq_ok.mp h
  cases w with
  | none => rfl
  | some v =>
    obtain ⟨q, hq⟩ := hall v rfl
    simp [boundedInteger, hq, integerIn_rewritten hq]

theorem hostThreshold_eq_ok {value w : Option Value} :
    hostThreshold value = .ok w ↔ w = value ∧ ∀ v, value = some v → ∃ q, unitInterval v = some q := by
  cases value with
  | none => simp [hostThreshold, eq_comm]
  | some v =>
    cases hv : unitInterval v with
    | none => simp [hostThreshold, hv]
    | some q => simp [hostThreshold, hv, eq_comm]

theorem threshold_ordered {value w : Option Value} (h : hostThreshold value = .ok w) : ∀ v, w = some v → v.Ordered := by
  obtain ⟨rfl, hall⟩ := hostThreshold_eq_ok.mp h
  intro v hv
  obtain ⟨q, hq⟩ := hall v hv
  exact ordered_of_number (Option.filter_eq_some_iff.mp hq).1

theorem runnerThreshold_some {v : Value} (hne : v ≠ .null) : runnerThreshold (some v) =
    match unitInterval v with
    | some q => .ok q
    | none => .error thresholdMessage := by
  cases v with
  | null => exact absurd rfl hne
  | _ => rfl

/-- The same threshold is taken on both sides, but for `null`. -/
theorem threshold_ok_iff {value : Option Value} :
    (∃ w, hostThreshold value = .ok w) ↔ (∃ q, runnerThreshold value = .ok q) ∧ value ≠ some .null := by
  cases value with
  | none => exact iff_of_true ⟨none, rfl⟩ ⟨⟨_, rfl⟩, fun h => (nomatch h)⟩
  | some v =>
    by_cases hnull : v = .null
    · refine iff_of_false ?_ fun h => h.2 (by rw [hnull])
      rintro ⟨w, hw⟩
      obtain ⟨q, hq⟩ := (hostThreshold_eq_ok.mp hw).2 v rfl
      rw [hnull] at hq
      cases hq
    · rw [runnerThreshold_some hnull]
      cases hv : unitInterval v with
      | none => simp [hostThreshold, hv]
      | some q => simp [hostThreshold, hv, hnull]

theorem threshold_rewritten {value w : Option Value} (h : hostThreshold value = .ok w) :
    runnerThreshold (w.map rewritten) = runnerThreshold value := by
  obtain ⟨rfl, hall⟩ := hostThreshold_eq_ok.mp h
  cases w with
  | none => rfl
  | some v =>
    obtain ⟨q, hq⟩ := hall v rfl
    have hread : ∀ v', JsonText.unitInterval v' = some q → runnerThreshold (some v') = .ok q := by
      intro v' hv'
      have hne : v' ≠ .null := by
        rintro rfl
        cases hv'
      rw [runnerThreshold_some hne, hv']
    rw [Option.map_some, hread v hq, hread _ (unitInterval_rewritten hq)]

theorem oneOf_text {α : Type} {name : α → Text} {options : List α}
    (hfind : ∀ a, options.find? (fun b => name b = name a) = some a) (value : Option α) :
    oneOf name options ((value.map fun a => .str (name a)).map rewritten) = some value := by
  cases value with
  | none => rfl
  | some a => simp [oneOf, rewritten_str, hfind a]

theorem transportOf_text (t : Option LlmTransport) (field : String) :
    transportOf ((t.map fun t => .str t.text).map rewritten) field = .ok t := by
  have hfind : ∀ t : LlmTransport, [LlmTransport.responses, .chatCompletions].find?
      (fun b => b.text = t.text) = some t := by
    intro t
    cases t <;> decide +kernel
  rw [transportOf, oneOf_text hfind]

theorem routingAction_text (a : Option RoutingFallbackAction) (field : String) :
    routingAction ((a.map fun a => .str a.text).map rewritten) field = .ok a := by
  have hfind : ∀ a : RoutingFallbackAction, [RoutingFallbackAction.clarify, .reject].find?
      (fun b => b.text = a.text) = some a := by
    intro a
    cases a <;> decide +kernel
  rw [routingAction, oneOf_text hfind]

end AgentDesk
