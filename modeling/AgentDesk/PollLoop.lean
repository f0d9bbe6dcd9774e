/-
# The runner's poll loop

`container/agent-runner/src/poll-loop.ts`: the loop claims a batch of pending
rows, answers `/clear` itself, runs the pre-task scripts, lets the routing
phase delegate the turn or hands the rows to the provider, and acknowledges
them. While a provider stream is open, a timer polls for further rows and
pushes them into the stream.

The loop is one JavaScript thread, so that a step is what it does between two
awaits; what happens there (a provider event, a script's verdict, a timer
tick, the host writing rows, the clock, the end of the process) is a
`LoopEvent`. Everything a step writes to `outbound.db` that the turn's
bookkeeping is about is entered in the journal `acts`, in the order of the
writes: a process killed inside a step has made a prefix of them.

What a provider makes of its prompts is its own business. A result event
carries how many of the stream's prompts the turn that ends with it has taken
in: the first is the batch's, each push is one more.

* `loopStep_move`: everything a step can do, with what it needs.
-/
import AgentDesk.RunnerRows

namespace AgentDesk

open Js

/-! ### Commands and scripts -/

/-- `(parseContent(content).text || '').trim()`; `none` where it throws: content that parses to
`null`, or a text that is neither a string nor falsy. -/
def InboundRow.commandText (row : InboundRow) : Option String :=
  match row.content with
  | none => some (trim row.raw)
  | some parsed => match parsed.get "text" with
    | .ok (some (.str s)) => some (trim s)
    | .ok none | .ok (some .null) | .ok (some (.bool false)) => some ""
    | .ok (some (.num n)) => if n = 0 then some "" else none
    | _ => none

/-- `text.toLowerCase().startsWith('/clear')`. -/
def isClearCommand (row : InboundRow) : Option Bool :=
  row.commandText.map fun text => "/clear".toList.isPrefixOf (text.toList.map Char.toLower)

/-- Is the row a `/clear` the loop answers itself? -/
def clearVerdict (row : InboundRow) : Option Bool :=
  if row.kind.isChat then isClearCommand row else some false

def commandIds (turnMessages : List InboundRow) : List String :=
  (turnMessages.filter fun r => clearVerdict r = some true).map (·.id)

def normalMessages (turnMessages : List InboundRow) : List InboundRow :=
  turnMessages.filter fun r => clearVerdict r = some false

def runnerAdminCommands : List String :=
  ["/remote-control", "/clear", "/compact", "/context", "/cost", "/files"]

def runnerFilteredCommands : List String :=
  ["/help", "/login", "/logout", "/doctor", "/config", "/start"]

/-- Does `content?.senderId || content?.author?.userId` have an `includes` to call? -/
def senderIdReadable (row : InboundRow) : Bool :=
  match row.field "senderId" with
  | some (.str s) => s ≠ "" || authorReadable
  | none | some .null | some (.bool false) => authorReadable
  | some (.num n) => n = 0 && authorReadable
  | some (.arr _) => true
  | _ => false
where
  authorReadable : Bool :=
    match (row.field "author").bind fun a => (a.get "userId").toOption.join with
    | some (.bool true) | some (.obj _) => false
    | some (.num n) => n = 0
    | _ => true

/-- A slash command that must be a query's first input; `none` where categorizing it throws. -/
def isRunnerCommand (row : InboundRow) : Option Bool :=
  if !row.kind.isChat then some false
  else row.commandText.bind fun text =>
    if !senderIdReadable row then none
    else if text.toList.head? ≠ some '/' then some false
    else
      let command := String.ofList ((text.toList.takeWhile fun ch => !isSpace ch).map Char.toLower)
      some (command ∈ runnerAdminCommands || command ∉ runnerFilteredCommands)

/-- Does the row carry a pre-task script? `none` where reading it throws. -/
def scripted (row : InboundRow) : Option Bool :=
  if row.kind ≠ .task then some false
  else match row.content with
    | none => some false
    | some parsed => match parsed.get "script" with
      | .error _ => none
      | .ok v => some (truthy (Json.asString v))

/-- The rows that go on, and the ids of those whose script does not wake the agent. A row that goes
on gets the script's output in its content, which no code here reads. -/
def applyPreTaskScripts (wakeAgent : String → Bool) (rows : List InboundRow) :
    Option (List InboundRow × List String) :=
  if rows.any fun r => scripted r = none then none
  else
    let skips := fun (r : InboundRow) => scripted r = some true && !wakeAgent r.id
    some (rows.filter fun r => !skips r, (rows.filter skips).map (·.id))

/-! ### Formatting -/

/-- A value that is escaped where it is truthy, and is no string: `escapeXml` throws. -/
def unescapable (v : Option Json) : Bool := Json.truthy v && (Json.asString v).isNone

/-- `a || b`. -/
def orElse (a b : Option Json) : Option Json := if Json.truthy a then a else b

/-- `formatReplyContext` throws. -/
def replyThrows (replyTo : Option Json) : Bool :=
  let sender := Json.optional replyTo "sender"
  let text := Json.optional replyTo "text"
  Json.truthy replyTo && Json.truthy sender && Json.truthy text && (unescapable sender || unescapable text)

/-- `formatAttachments` throws at the attachment. -/
def attachmentThrows : Json → Bool
  | .null => true
  | a =>
    unescapable (orElse (Json.optional (some a) "name") (Json.optional (some a) "filename")) ||
      (!Json.truthy (Json.optional (some a) "localPath") && unescapable (Json.optional (some a) "url"))

/-- `formatSingleChat` throws. -/
def chatThrows (row : InboundRow) : Bool :=
  let author := row.field "author"
  unescapable (orElse (row.field "sender")
      (orElse (Json.optional author "fullName") (Json.optional author "userName"))) ||
    unescapable (row.field "text") || replyThrows (row.field "replyTo") ||
    match row.field "attachments" with
    | some (.arr attachments) => attachments.any attachmentThrows
    | _ => false

/-- `formatMessages` throws at the row. -/
def formatThrows (row : InboundRow) : Bool :=
  match row.content, row.kind with
  | some .null, .chat | some .null, .chatSdk | some .null, .task | some .null, .webhook => true
  | _, .chat | _, .chatSdk => chatThrows row
  | _, .webhook => unescapable (row.field "source") || unescapable (row.field "event")
  | _, _ => false

/-! ### The journal -/

/-- Where an acknowledgement comes from: the answer to `/clear`, a pre-task script that does not
wake the agent, an enforced delegation, a result event, the end of the turn. -/
inductive AckSite where
  | command | preTask | delegation | result | turnTail
  deriving DecidableEq, Repr

/-- A write of the loop. `cleared` is the `Session cleared.` row for one command, `delegated` the
delegation row, `dispatched` the sends of a result (of its text, if it has one) for the rows of
the prompts it answers, `errorReply` the error rows of a turn. -/
inductive Act where
  | claim (ids : List String)
  | release (ids : List String)
  | complete (site : AckSite) (ids : List String)
  | cleared (id : String)
  | delegated (ids : List String)
  | dispatched (ids : List String) (text : Option String)
  | errorReply (ids : List String)
  deriving DecidableEq, Repr

/-! ### The state -/

/-- A claimed turn: the rows of its prompt, and the claims it answers for. -/
structure Turn where
  keep : List InboundRow
  processingIds : List String
  retried : Bool

/-- An open provider stream (`runQuery`). -/
structure Query where
  number : ℕ
  prompts : List (List String)
  pendingAck : List String
  pollInFlight : Bool
  endedForCommand : Bool
  hasPendingUserTurn : Bool
  endRequested : Bool

/-- Where the loop waits. -/
inductive LoopPhase where
  | stopped
  | polling
  | preTask (turnMessages : List InboundRow)
  | routing (t : Turn)
  | streaming (t : Turn) (q : Query)

/-- A follow-up poll that waits for its pre-task scripts. -/
structure Tick where
  query : ℕ
  rows : List InboundRow

structure Loop where
  inbound : List InboundRow
  acks : List AckRow
  now : ℕ
  aborted : Bool
  identity : Option RequestIdentity
  routingGate : Bool
  queries : ℕ
  phase : LoopPhase
  ticks : List Tick
  acts : List Act

/-- A container that has not started yet, over databases in any state. -/
def Loop.fresh (inbound : List InboundRow) (acks : List AckRow) (now : ℕ) : Loop :=
  { inbound, acks, now, aborted := false, identity := none, routingGate := false, queries := 0
    phase := .stopped, ticks := [], acts := [] }

structure LoopConfig where
  maxMessagesPerPrompt : ℕ
  routing : Bool

/-- What the routing phase decides. -/
inductive Routed where
  | delegate | execute | throws
  deriving DecidableEq, Repr

inductive ProviderEvent where
  | result (text : Option String) (answered : ℕ)
  | other
  deriving DecidableEq, Repr

inductive LoopEvent where
  | host (rows : List InboundRow)
  | clock (seconds : ℕ)
  | start
  | abort
  | kill
  | poll
  | scripts (wakeAgent : String → Bool)
  | routed (decision : Routed)
  | provider (event : ProviderEvent)
  | streamEnd
  | streamThrow (sessionInvalid : Bool)
  | tick
  | tickScripts (i : ℕ) (wakeAgent : String → Bool)

/-! ### Writes -/

def Loop.write (l : Loop) (a : Act) : Loop := { l with acts := l.acts ++ [a] }

def Loop.claim (l : Loop) (ids : List String) : Loop :=
  { l with acks := markProcessing l.now l.acks ids, acts := l.acts ++ [.claim ids] }

def Loop.release (l : Loop) (ids : List String) : Loop :=
  { l with acks := releaseProcessing l.acks ids, acts := l.acts ++ [.release ids] }

def Loop.complete (l : Loop) (site : AckSite) (ids : List String) : Loop :=
  { l with acks := markCompleted l.now l.acks ids, acts := l.acts ++ [.complete site ids] }

def Loop.to (l : Loop) (phase : LoopPhase) : Loop := { l with phase }

/-! ### The outer loop -/

/-- Open a provider stream for the turn. -/
def Loop.startQuery (l : Loop) (t : Turn) : Loop :=
  { l with
    queries := l.queries + 1
    phase := .streaming t
      { number := l.queries, prompts := [t.keep.map (·.id)], pendingAck := t.processingIds
        pollInFlight := false, endedForCommand := false, hasPendingUserTurn := false
        endRequested := false } }

/-- `finally`, and the end of the turn: an aborted loop leaves the claims, else they are acknowledged. -/
def Loop.finishTurn (l : Loop) (t : Turn) : Loop :=
  let l := { l with identity := none, routingGate := false }
  if l.aborted then l.to .stopped else (l.complete .turnTail t.processingIds).to .polling

/-- `catch`: the error rows, and then the end of the turn. -/
def Loop.failTurn (l : Loop) (t : Turn) : Loop := (l.write (.errorReply t.processingIds)).finishTurn t

/-- The loop answers the commands of a claimed turn. A command whose text cannot be read ends the
process after the answers before it. -/
def Loop.answerCommands (l : Loop) (turnMessages : List InboundRow) : Loop :=
  let readable := turnMessages.takeWhile fun r => (clearVerdict r).isSome
  let l := (commandIds readable).foldl (fun l id => l.write (.cleared id)) l
  if turnMessages.any fun r => clearVerdict r = none then l.to .stopped
  else
    let l := l.complete .command (commandIds turnMessages)
    if normalMessages turnMessages = [] then l.to .polling else l.to (.preTask turnMessages)

/-- One pass of the loop: claim a batch, give back what is not of this turn. -/
def Loop.poll (c : LoopConfig) (l : Loop) : Loop :=
  if l.aborted then l.to .stopped
  else
    let messages := (getPendingMessages l.inbound l.acks c.maxMessagesPerPrompt l.now).filter
      fun m => m.kind ≠ .system
    if !messages.any (·.trigger) then l
    else
      let firstTriggerBatch := (splitBatchByTrigger messages).1
      let l := l.claim (firstTriggerBatch.map (·.id))
      let split := splitBatchByTurn firstTriggerBatch
      let l := l.release (split.2.map (·.id))
      if split.1 = [] then l else l.answerCommands split.1

/-- `routingEnabledForTurn`: a user trigger that did not come from an agent. -/
def routingEnabledForTurn (c : LoopConfig) (keep turnMessages : List InboundRow) : Bool :=
  let anchor := (turnMessages.find? fun m => m.kind.isChat).or turnMessages.head?
  c.routing && (anchor.bind (·.channelType) ≠ some "agent") && keep.any fun m => m.trigger && m.kind.isChat

/-- After the pre-task scripts: the turn's identity is published and its rows go to the routing
phase or to the provider. -/
def Loop.afterScripts (c : LoopConfig) (l : Loop) (turnMessages : List InboundRow)
    (keep : List InboundRow) (skipped : List String) : Loop :=
  let l := l.complete .preTask skipped
  if keep = [] then l.to .polling
  else
    let t : Turn :=
      { keep
        processingIds := (turnMessages.map (·.id)).filter fun id =>
          id ∉ commandIds turnMessages && id ∉ skipped
        retried := false }
    let l := { l with identity := some (resolveBatchIdentity keep), routingGate := false }
    if routingEnabledForTurn c keep turnMessages then l.to (.routing t) else l.startQuery t

/-! ### The stream -/

/-- A result: what it says is dispatched, and then everything claimed for the stream is acknowledged. -/
def Loop.result (l : Loop) (t : Turn) (q : Query) (text : Option String) (answered : ℕ) : Loop :=
  ((l.write (.dispatched (q.prompts.take answered).flatten text)).complete .result q.pendingAck).to
    (.streaming t { q with pendingAck := [] })

/-- A tick of the timer: a user trigger or a command waits for its own turn; other rows are claimed. -/
def Loop.tick (c : LoopConfig) (l : Loop) (t : Turn) (q : Query) : Loop :=
  let pending := getPendingMessages l.inbound l.acks c.maxMessagesPerPrompt l.now
  if q.pollInFlight || q.endedForCommand || q.hasPendingUserTurn then l
  else if pending.any fun m => m.kind.isChat && m.trigger then
    l.to (.streaming t { q with hasPendingUserTurn := true, endRequested := q.endRequested || l.routingGate })
  -- `some` stops at the first command, and a row it cannot read before that throws into the tick's catch
  else match pending.find? fun m => isRunnerCommand m ≠ some false with
    | some m =>
      if isRunnerCommand m = none then l
      else l.to (.streaming t { q with endedForCommand := true, endRequested := true })
    | none =>
      let newMessages := pending.filter fun m => m.kind ≠ .system
      if newMessages = [] then l
      else
        let l := l.claim (newMessages.map (·.id))
        { l with ticks := l.ticks ++ [⟨q.number, newMessages⟩], phase := .streaming t { q with pollInFlight := true } }

/-- The rest of a tick, after its scripts: what is of the running turn is pushed into the stream,
the rest is given back. -/
def Loop.push (l : Loop) (t : Turn) (q : Query) (keep : List InboundRow) : Loop :=
  let split := splitBatchByTurn keep
  let l := l.release (split.2.map (·.id))
  let keptIds := split.1.map (·.id)
  if split.1 = [] then l
  else if shouldEndForTurnChange l.identity (resolveBatchIdentity split.1) then
    (l.release keptIds).to (.streaming t { q with endedForCommand := true, endRequested := true })
  -- a row that cannot be formatted throws into the tick's catch, after the claim
  else if split.1.any formatThrows then l
  else
    l.to (.streaming t { q with prompts := q.prompts ++ [keptIds], pendingAck := insertAll q.pendingAck keptIds })

def Loop.tickScripts (l : Loop) (tick : Tick) (wakeAgent : String → Bool) : Loop :=
  match applyPreTaskScripts wakeAgent tick.rows with
  | none => settled l
  | some (keep, skipped) =>
    let l := settled (l.complete .preTask skipped)
    if keep = [] then l
    else match l.phase with
      | .streaming t q => if q.number = tick.query then l.push t q keep else l.release (keep.map (·.id))
      | _ => l.release (keep.map (·.id))
where
  /-- The tick's `finally`. -/
  settled (l : Loop) : Loop :=
    match l.phase with
    | .streaming t q =>
      if q.number = tick.query then l.to (.streaming t { q with pollInFlight := false }) else l
    | _ => l

/-! ### Steps -/

def loopStep (c : LoopConfig) (l : Loop) : LoopEvent → Option Loop
  | .host rows => some { l with inbound := rows }
  | .clock seconds => some { l with now := l.now + seconds }
  | .abort => some { l with aborted := true }
  | .kill => some { l with phase := .stopped, ticks := [] }
  | .start => match l.phase with
    | .stopped => some { l with
        acks := clearStaleProcessingAcks l.acks, aborted := false, identity := none, queries := 0
        phase := .polling, ticks := [] }
    | _ => none
  | .poll => match l.phase with
    | .polling => some (l.poll c)
    | _ => none
  | .scripts wakeAgent => match l.phase with
    | .preTask turnMessages => match applyPreTaskScripts wakeAgent (normalMessages turnMessages) with
      | none => some (l.to .stopped)
      | some (keep, skipped) => some (l.afterScripts c turnMessages keep skipped)
    | _ => none
  | .routed decision => match l.phase, decision with
    | .routing t, .delegate =>
      let l := (l.write (.delegated (t.keep.map (·.id)))).complete .delegation t.processingIds
      some { l with identity := none, routingGate := false, phase := .polling }
    | .routing t, .execute => some ({ l with routingGate := true }.startQuery t)
    | .routing t, .throws => some (l.failTurn t)
    | _, _ => none
  | .provider event => match l.phase, event with
    | .streaming t q, .result text answered => some (l.result t q text answered)
    | .streaming _ _, .other => some l
    | _, _ => none
  | .streamEnd => match l.phase with
    | .streaming t _ => some (l.finishTurn t)
    | _ => none
  | .streamThrow sessionInvalid => match l.phase with
    | .streaming t _ =>
      if sessionInvalid && !t.retried then some (l.startQuery { t with retried := true })
      else some (l.failTurn t)
    | _ => none
  | .tick => match l.phase with
    | .streaming t q => some (l.tick c t q)
    | _ => none
  | .tickScripts i wakeAgent => match l.ticks[i]? with
    | some tick => some (Loop.tickScripts { l with ticks := l.ticks.eraseIdx i } tick wakeAgent)
    | none => none

/-- Everything a step can do, with what it needs. -/
inductive LoopMove (c : LoopConfig) (l : Loop) : LoopEvent → Loop → Prop
  | host (rows : List InboundRow) : LoopMove c l (.host rows) { l with inbound := rows }
  | clock (seconds : ℕ) : LoopMove c l (.clock seconds) { l with now := l.now + seconds }
  | abort : LoopMove c l .abort { l with aborted := true }
  | kill : LoopMove c l .kill { l with phase := .stopped, ticks := [] }
  | start (h : l.phase = .stopped) : LoopMove c l .start
      { l with
        acks := clearStaleProcessingAcks l.acks, aborted := false, identity := none, queries := 0
        phase := .polling, ticks := [] }
  | poll (h : l.phase = .polling) : LoopMove c l .poll (l.poll c)
  | scriptsThrow {turnMessages : List InboundRow} (wakeAgent : String → Bool)
      (h : l.phase = .preTask turnMessages) : LoopMove c l (.scripts wakeAgent) (l.to .stopped)
  | scripts {turnMessages keep : List InboundRow} {skipped : List String} (wakeAgent : String → Bool)
      (h : l.phase = .preTask turnMessages)
      (ha : applyPreTaskScripts wakeAgent (normalMessages turnMessages) = some (keep, skipped)) :
      LoopMove c l (.scripts wakeAgent) (l.afterScripts c turnMessages keep skipped)
  | delegate {t : Turn} (h : l.phase = .routing t) : LoopMove c l (.routed .delegate)
      { (l.write (.delegated (t.keep.map (·.id)))).complete .delegation t.processingIds with
        identity := none, routingGate := false, phase := .polling }
  | execute {t : Turn} (h : l.phase = .routing t) :
      LoopMove c l (.routed .execute) ({ l with routingGate := true }.startQuery t)
  | routeThrows {t : Turn} (h : l.phase = .routing t) : LoopMove c l (.routed .throws) (l.failTurn t)
  | result {t : Turn} {q : Query} (text : Option String) (answered : ℕ) (h : l.phase = .streaming t q) :
      LoopMove c l (.provider (.result text answered)) (l.result t q text answered)
  | other : LoopMove c l (.provider .other) l
  | streamEnd {t : Turn} {q : Query} (h : l.phase = .streaming t q) : LoopMove c l .streamEnd (l.finishTurn t)
  | retry {t : Turn} {q : Query} (h : l.phase = .streaming t q) (ht : t.retried = false) :
      LoopMove c l (.streamThrow true) (l.startQuery { t with retried := true })
  | streamThrow {t : Turn} {q : Query} (sessionInvalid : Bool) (h : l.phase = .streaming t q) :
      LoopMove c l (.streamThrow sessionInvalid) (l.failTurn t)
  | tick {t : Turn} {q : Query} (h : l.phase = .streaming t q) : LoopMove c l .tick (l.tick c t q)
  | tickScripts {tick : Tick} (i : ℕ) (wakeAgent : String → Bool) (h : l.ticks[i]? = some tick) :
      LoopMove c l (.tickScripts i wakeAgent)
        (Loop.tickScripts { l with ticks := l.ticks.eraseIdx i } tick wakeAgent)

theorem loopStep_move {c : LoopConfig} {l l' : Loop} {e : LoopEvent} (hs : loopStep c l e = some l') :
    LoopMove c l e l' := by
  cases e with
  | host rows =>
    obtain rfl := Option.some.inj hs
    exact .host rows
  | clock seconds =>
    obtain rfl := Option.some.inj hs
    exact .clock seconds
  | abort =>
    obtain rfl := Option.some.inj hs
    exact .abort
  | kill =>
    obtain rfl := Option.some.inj hs
    exact .kill
  | start =>
    simp only [loopStep] at hs
    split at hs
    · rename_i hp
      obtain rfl := Option.some.inj hs
      exact .start hp
    · cases hs
  | poll =>
    simp only [loopStep] at hs
    split at hs
    · rename_i hp
      obtain rfl := Option.some.inj hs
      exact .poll hp
    · cases hs
  | scripts wakeAgent =>
    simp only [loopStep] at hs
    split at hs
    · rename_i tm hp
      split at hs
      · obtain rfl := Option.some.inj hs
        exact .scriptsThrow wakeAgent hp
      · rename_i keep skipped ha
        obtain rfl := Option.some.inj hs
        exact .scripts wakeAgent hp ha
    · cases hs
  | routed decision =>
    simp only [loopStep] at hs
    split at hs
    · rename_i t hp
      obtain rfl := Option.some.inj hs
      exact .delegate hp
    · rename_i t hp
      obtain rfl := Option.some.inj hs
      exact .execute hp
    · rename_i t hp
      obtain rfl := Option.some.inj hs
      exact .routeThrows hp
    · cases hs
  | provider event =>
    simp only [loopStep] at hs
    split at hs
    · rename_i t q text answered hp
      obtain rfl := Option.some.inj hs
      exact .result text answered hp
    · obtain rfl := Option.some.inj hs
      exact .other
    · cases hs
  | streamEnd =>
    simp only [loopStep] at hs
    split at hs
    · rename_i t q hp
      obtain rfl := Option.some.inj hs
      exact .streamEnd hp
    · cases hs
  | streamThrow sessionInvalid =>
    simp only [loopStep] at hs
    split at hs
    · rename_i t q hp
      split at hs
      · rename_i hretry
        simp only [Bool.and_eq_true, Bool.not_eq_true'] at hretry
        obtain ⟨rfl, ht⟩ := hretry
        obtain rfl := Option.some.inj hs
        exact .retry hp ht
      · obtain rfl := Option.some.inj hs
        exact .streamThrow sessionInvalid hp
    · cases hs
  | tick =>
    simp only [loopStep] at hs
    split at hs
    · rename_i t q hp
      obtain rfl := Option.some.inj hs
      exact .tick hp
    · cases hs
  | tickScripts i wakeAgent =>
    simp only [loopStep] at hs
    split at hs
    · rename_i tick hp
      obtain rfl := Option.some.inj hs
      exact .tickScripts i wakeAgent hp
    · cases hs

end AgentDesk
