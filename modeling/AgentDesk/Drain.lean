/-
# Draining the sessions' outbound queues

`src/delivery.ts`, `deliverSessionMessages` and `drainSession`. Two pollers, the
active one and the sweep, call the former for the same sessions; a set of the
sessions being drained turns the second call away. A drain reads the rows that
are due and may be tried, once, and goes through them in order: an attempt, its
outcome recorded, the next row; the first failure ends the drain.

The calls are asynchronous, so a drain is a small machine of its own
(`Drain`) and the host is all of them, over the sessions' `delivered` tables.
A step is one stretch of code between two awaits (the failure handler is two:
the operator works in another process); everything that comes from
outside (the rows the container wrote, the tables and answers of a call, an
adapter's success or failure, the clock, the operator) is in the event. An
adapter call that times out is one that fails: what it does later is not seen.

`calls` and `history` record what happened: each `deliver` of the adapter, with
the tables it was made under, and each attempt and effective requeue.

Left out: the reactions of the progress module, what a system action's handler
sends, and a database that fails between an attempt and its record.

Key theorems: `hostStep_begin`, `hostStep_resolve`, `hostStep_reject`, `hostStep_record`.
-/
import Mathlib.Logic.Function.Basic
import Mathlib.Data.List.Sort
import AgentDesk.Delivered
import AgentDesk.Delivery
import AgentDesk.Trans

namespace AgentDesk

open Js

/-! ### The rows that are due -/

/-- `n` with at least `width` digits. -/
def padded (width n : ℕ) : String :=
  let digits := toString n
  String.ofList (List.replicate (width - digits.length) '0') ++ digits

/-- SQLite's `datetime` of a Unix time: the civil date of its day, and the time of day. -/
def datetime (seconds : ℕ) : String :=
  let z := seconds / 86400 + 719468
  let era := z / 146097
  let doe := z % 146097
  let yoe := (doe - doe / 1460 + doe / 36524 - doe / 146096) / 365
  let doy := doe - (365 * yoe + yoe / 4 - yoe / 100)
  let mp := (5 * doy + 2) / 153
  let day := doy - (153 * mp + 2) / 5 + 1
  let month := if mp < 10 then mp + 3 else mp - 9
  let year := yoe + era * 400 + if month ≤ 2 then 1 else 0
  let t := seconds % 86400
  s!"{padded 4 year}-{padded 2 month}-{padded 2 day} " ++
    s!"{padded 2 (t / 3600)}:{padded 2 (t % 3600 / 60)}:{padded 2 (t % 60)}"

example : datetime 1767225599 = "2025-12-31 23:59:59" := by decide

/-- A session's `messages_out`; the id is its primary key. -/
structure MessagesOut where
  rows : List OutboundMessage
  unique : (rows.map (·.id)).Nodup

/-- The rows with no time of their own, or one that has passed (as texts), by timestamp. -/
def getDueOutboundMessages (t : MessagesOut) (now : ℕ) : List OutboundMessage :=
  (t.rows.filter fun m => m.deliverAfter.all fun at' => decide (at' ≤ datetime now)).insertionSort
    fun a b => a.timestamp ≤ b.timestamp

/-- The rows a drain takes: due, and not undeliverable when it starts. -/
def undelivered (t : MessagesOut) (outcomes : List DeliveredRow) (now : ℕ) : List OutboundMessage :=
  (getDueOutboundMessages t now).filter fun m =>
    m.id ∉ getUndeliverableIds outcomes deliveryMaxAttempts now

/-! ### The machine -/

/-- Where a drain is with the first row of its queue. -/
inductive Phase where
  /-- About to take it. -/
  | ready
  /-- `deliverMessage` is on its way. -/
  | attempting (plan : Plan)
  /-- Recorded as delivered; the progress status is being cleared. -/
  | posted
  /-- Failed: the handler has read the attempts, this one included, and is about to record them. -/
  | failing (attempts : ℕ) (permanent : Bool)
  /-- Failed and recorded: the drain is over. -/
  | closing

structure Drain where
  session : Session
  queue : List OutboundMessage
  phase : Phase

/-- A `deliver` of the channel adapter, for a row of the session. -/
structure Call where
  env : HostEnv
  session : Session
  target : Target

inductive Happening where
  | attempt (sessionId messageOutId : String)
  | requeue (sessionId messageOutId : String)
  deriving DecidableEq, Repr

structure Host where
  now : ℕ
  inflightDeliveries : String → Bool
  outcomes : String → List DeliveredRow
  drains : ℕ → Option Drain
  calls : List Call
  history : List Happening

def Host.empty : Host := ⟨0, fun _ => false, fun _ => [], fun _ => none, [], []⟩

inductive HostEvent where
  | tick (seconds : ℕ)
  /-- Either poller comes to the session; `drain` names the call. -/
  | poll (drain : ℕ) (session : Session) (messagesOut : MessagesOut)
  /-- The drain takes its next row. -/
  | begin (drain : ℕ) (env : HostEnv)
  /-- `deliverMessage` returns. -/
  | resolve (drain : ℕ) (platformMsgId : Option String)
  /-- The progress status is cleared. -/
  | advance (drain : ℕ)
  /-- `deliverMessage`, or the work after it, throws. -/
  | reject (drain : ℕ)
  /-- The failure is recorded, and its notice sent. -/
  | record (drain : ℕ) (env : HostEnv)
  | finish (drain : ℕ)
  /-- The operator, `scripts/dlq.ts`. -/
  | requeue (sessionId messageOutId : String)

/-- The outcomes a plan leaves open. -/
def Plan.mayReturn : Plan → Bool
  | .violation _ | .throws _ => false
  | _ => true

def Plan.mayThrow : Plan → Bool
  | .drop | .unrouted => false
  | _ => true

def Plan.permanent : Plan → Bool
  | .violation _ => true
  | _ => false

/-- A row the user is waiting for. -/
def OutboundMessage.userFacing (m : OutboundMessage) : Bool :=
  m.kind ≠ .system && m.channelType ≠ some "agent"

/-- The back-off after the `attempts`-th failure. -/
def backoffSec (attempts : ℕ) : ℕ :=
  deliveryBackoffScheduleSec.getD (min (attempts - 1) (deliveryBackoffScheduleSec.length - 1)) 0

/-- Does the `attempts`-th failure stop the retries? -/
def deadLetters (permanent : Bool) (attempts : ℕ) : Bool :=
  permanent || decide (deliveryMaxAttempts ≤ attempts)

/-- The failure recorded: parked for the operator, or with a time to retry. -/
def recordFailure (permanent : Bool) (attempts : ℕ) (t : List DeliveredRow) (m : OutboundMessage) (now : ℕ) :
    List DeliveredRow :=
  markDeliveryFailed t m.id attempts (if deadLetters permanent attempts then none else some (backoffSec attempts)) now

/-- The chat of the notice that a row could not be delivered: the one the row names. -/
def noticeTarget (env : HostEnv) (permanent : Bool) (attempts : ℕ) (m : OutboundMessage) : Option Target :=
  if deadLetters permanent attempts && m.userFacing && env.adapter && truthy m.channelType &&
      truthy m.platformId then
    some ⟨m.channelType.getD "", m.platformId.getD ""⟩
  else none

def Host.setDrain (h : Host) (i : ℕ) (d : Option Drain) : Host :=
  { h with drains := Function.update h.drains i d }

def Host.setOutcomes (h : Host) (sessionId : String) (t : List DeliveredRow) : Host :=
  { h with outcomes := Function.update h.outcomes sessionId t }

/-- The failure handler of the row `m` reads how often it failed before. The operator's tool is another
process, and may requeue the row before the handler writes. -/
def Host.fail (h : Host) (i : ℕ) (session : Session) (m : OutboundMessage) (queue : List OutboundMessage)
    (permanent : Bool) : Host :=
  h.setDrain i (some ⟨session, m :: queue,
    .failing (getDeliveryAttempts (h.outcomes session.id) m.id + 1) permanent⟩)

/-- The failure handler writes, and the drain ends. -/
def Host.record (h : Host) (i : ℕ) (session : Session) (m : OutboundMessage) (queue : List OutboundMessage)
    (env : HostEnv) (attempts : ℕ) (permanent : Bool) : Host :=
  let t := recordFailure permanent attempts (h.outcomes session.id) m h.now
  let h' := (h.setOutcomes session.id t).setDrain i (some ⟨session, m :: queue, .closing⟩)
  { h' with calls := h.calls ++ ((noticeTarget env permanent attempts m).map (⟨env, session, ·⟩)).toList }

/-- The adapter call of a plan. -/
def Plan.call (plan : Plan) (env : HostEnv) (session : Session) : List Call :=
  match plan with
  | .send target _ => [⟨env, session, target⟩]
  | _ => []

def hostStep (h : Host) : HostEvent → Option Host
  | .tick seconds => some { h with now := h.now + seconds }
  | .poll i session messagesOut =>
    if (h.drains i).isSome then none
    else if h.inflightDeliveries session.id then some h
    else some
      ({ h with inflightDeliveries := Function.update h.inflightDeliveries session.id true }.setDrain i
        (some ⟨session, undelivered messagesOut (h.outcomes session.id) h.now, .ready⟩))
  | .begin i env => match h.drains i with
    | some ⟨session, m :: queue, .ready⟩ =>
      if m.kind = .llmUsage then
        some ((h.setOutcomes session.id (markDelivered (h.outcomes session.id) m.id none h.now)).setDrain i
          (some ⟨session, queue, .ready⟩))
      else
        let plan := deliverMessage env session m
        some { h.setDrain i (some ⟨session, m :: queue, .attempting plan⟩) with
               calls := h.calls ++ plan.call env session
               history := h.history ++ [.attempt session.id m.id] }
    | _ => none
  | .resolve i platformMsgId => match h.drains i with
    | some ⟨session, m :: queue, .attempting plan⟩ =>
      if plan.mayReturn then
        some ((h.setOutcomes session.id
            (markDelivered (h.outcomes session.id) m.id platformMsgId h.now)).setDrain i
          (some ⟨session, m :: queue, .posted⟩))
      else none
    | _ => none
  | .advance i => match h.drains i with
    | some ⟨session, _ :: queue, .posted⟩ => some (h.setDrain i (some ⟨session, queue, .ready⟩))
    | _ => none
  | .reject i => match h.drains i with
    | some ⟨session, m :: queue, .attempting plan⟩ =>
      if plan.mayThrow then some (h.fail i session m queue plan.permanent) else none
    | some ⟨session, m :: queue, .posted⟩ =>
      if m.userFacing then some (h.fail i session m queue false) else none
    | _ => none
  | .record i env => match h.drains i with
    | some ⟨session, m :: queue, .failing attempts permanent⟩ =>
      some (h.record i session m queue env attempts permanent)
    | _ => none
  | .finish i => match h.drains i with
    | some ⟨session, [], .ready⟩ | some ⟨session, _, .closing⟩ =>
      some ({ h with inflightDeliveries := Function.update h.inflightDeliveries session.id false }.setDrain i
        none)
    | _ => none
  | .requeue sessionId messageOutId =>
    let (t, reset) := requeueFailedDelivery (h.outcomes sessionId) messageOutId h.now
    some { h.setOutcomes sessionId t with
           history := h.history ++ if reset then [.requeue sessionId messageOutId] else [] }

/-! ### What a step can do -/

variable {h h' : Host} {i : ℕ}

theorem hostStep_poll {session : Session} {t : MessagesOut} (hs : hostStep h (.poll i session t) = some h') :
    (h.inflightDeliveries session.id = true ∧ h' = h) ∨
    (h.drains i = none ∧ h.inflightDeliveries session.id = false ∧
      h' = { h with inflightDeliveries := Function.update h.inflightDeliveries session.id true }.setDrain i
        (some ⟨session, undelivered t (h.outcomes session.id) h.now, .ready⟩)) := by
  simp only [hostStep] at hs
  split at hs
  · cases hs
  rename_i hnone
  split at hs
  · rename_i hin
    exact .inl ⟨hin, (Option.some.inj hs).symm⟩
  · rename_i hin
    exact .inr ⟨by simpa using hnone, by simpa using hin, (Option.some.inj hs).symm⟩

/-- A drain takes a row: it records a usage row, or starts an attempt. -/
theorem hostStep_begin {env : HostEnv} (hs : hostStep h (.begin i env) = some h') :
    ∃ session m queue, h.drains i = some ⟨session, m :: queue, .ready⟩ ∧
      ((m.kind = .llmUsage ∧
        h' = (h.setOutcomes session.id (markDelivered (h.outcomes session.id) m.id none h.now)).setDrain i
          (some ⟨session, queue, .ready⟩)) ∨
       (m.kind ≠ .llmUsage ∧
        h' = { h.setDrain i (some ⟨session, m :: queue, .attempting (deliverMessage env session m)⟩) with
               calls := h.calls ++ (deliverMessage env session m).call env session
               history := h.history ++ [.attempt session.id m.id] })) := by
  simp only [hostStep] at hs
  split at hs
  · rename_i session m queue hd
    split at hs
    · rename_i hk
      exact ⟨session, m, queue, hd, .inl ⟨hk, (Option.some.inj hs).symm⟩⟩
    · rename_i hk
      exact ⟨session, m, queue, hd, .inr ⟨hk, (Option.some.inj hs).symm⟩⟩
  · cases hs

theorem hostStep_resolve {pid : Option String} (hs : hostStep h (.resolve i pid) = some h') :
    ∃ session m queue plan, h.drains i = some ⟨session, m :: queue, .attempting plan⟩ ∧
      plan.mayReturn = true ∧
      h' = (h.setOutcomes session.id (markDelivered (h.outcomes session.id) m.id pid h.now)).setDrain i
        (some ⟨session, m :: queue, .posted⟩) := by
  simp only [hostStep] at hs
  split at hs
  · rename_i session m queue plan hd
    split at hs
    · rename_i hp
      exact ⟨session, m, queue, plan, hd, hp, (Option.some.inj hs).symm⟩
    · cases hs
  · cases hs

theorem hostStep_advance (hs : hostStep h (.advance i) = some h') :
    ∃ session m queue, h.drains i = some ⟨session, m :: queue, .posted⟩ ∧
      h' = h.setDrain i (some ⟨session, queue, .ready⟩) := by
  simp only [hostStep] at hs
  split at hs
  · rename_i session m queue hd
    exact ⟨session, m, queue, hd, (Option.some.inj hs).symm⟩
  · cases hs

/-- A failure of the row on its way, or after it was recorded as delivered. -/
theorem hostStep_reject (hs : hostStep h (.reject i) = some h') :
    ∃ session m queue permanent, h' = h.fail i session m queue permanent ∧
      ((∃ plan, h.drains i = some ⟨session, m :: queue, .attempting plan⟩ ∧ plan.mayThrow = true ∧
          permanent = plan.permanent) ∨
        (h.drains i = some ⟨session, m :: queue, .posted⟩ ∧ m.userFacing = true ∧ permanent = false)) := by
  simp only [hostStep] at hs
  split at hs
  · rename_i session m queue plan hd
    split at hs
    · rename_i hp
      exact ⟨session, m, queue, _, (Option.some.inj hs).symm, .inl ⟨plan, hd, hp, rfl⟩⟩
    · cases hs
  · rename_i session m queue hd
    split at hs
    · rename_i hu
      exact ⟨session, m, queue, _, (Option.some.inj hs).symm, .inr ⟨hd, hu, rfl⟩⟩
    · cases hs
  · cases hs

theorem hostStep_record {env : HostEnv} (hs : hostStep h (.record i env) = some h') :
    ∃ session m queue attempts permanent,
      h.drains i = some ⟨session, m :: queue, .failing attempts permanent⟩ ∧
        h' = h.record i session m queue env attempts permanent := by
  simp only [hostStep] at hs
  split at hs
  · rename_i session m queue attempts permanent hd
    exact ⟨session, m, queue, attempts, permanent, hd, (Option.some.inj hs).symm⟩
  · cases hs

theorem hostStep_finish (hs : hostStep h (.finish i) = some h') :
    ∃ d, h.drains i = some d ∧ (d.phase = .ready ∨ d.phase = .closing) ∧
      h' = { h with inflightDeliveries :=
               Function.update h.inflightDeliveries d.session.id false }.setDrain i none := by
  simp only [hostStep] at hs
  split at hs
  · rename_i session hd
    exact ⟨_, hd, .inl rfl, (Option.some.inj hs).symm⟩
  · rename_i session queue hd
    exact ⟨_, hd, .inr rfl, (Option.some.inj hs).symm⟩
  · cases hs

/-! ### A desk with one chat

Session `s` of agent group `ag` lives in the chat `oc_a`; the host knows another chat, `oc_b`, which
is no destination of the group. -/

def sampleSession : Session :=
  { id := "s", agentGroupId := "ag", messagingGroupId := some "mg-a", threadId := none, ownerUserId := none,
    rootSessionId := none, conversationThreadId := none, status := .active, spawnDepth := 0, createdAt := 0 }

def sampleEnv : HostEnv :=
  { now := 0, adapter := true,
    central := { agentGroups := [⟨"ag", none, .ok none⟩], destinations := [], maxSpawnDepthEnv := none },
    messagingGroups := [⟨"mg-a", "feishu", "feishu:oc_a", true, none⟩, ⟨"mg-b", "feishu", "feishu:oc_b", true, none⟩],
    rosterDmEnabledForGroup := fun _ => false, grants := [], rosterAtReserve := ⟨[], []⟩,
    rosterGatewayAuthorityEnabled := false, gateway := fun _ => none, authorizeDm := ⟨false, none, none⟩,
    rosterVerifyMembershipEnabled := false, stillMember := none,
    deployQuota := ⟨"global", ⟨60, 100⟩, 0, 86400⟩, pendingQuestion := .ok (), outboxFiles := .ok () }

/-- A chat row for the given chat, with the given content. -/
def sampleRow (platformId : String) (content : OutboundContent) : OutboundMessage :=
  { id := "m", kind := .chat, timestamp := "2026-01-01 00:00:00", platformId := some platformId,
    channelType := some "feishu", threadId := none, content := content, inReplyTo := none,
    deliverAfter := none, recurrence := none, originUserId := none }

/-- A reply to the session's own chat. -/
def sampleReply : OutboundMessage :=
  sampleRow "feishu:oc_a" ⟨14, .ok (.obj [("text", .str "hi")])⟩

def sampleOut (m : OutboundMessage) : MessagesOut := ⟨[m], by simp⟩

end AgentDesk
