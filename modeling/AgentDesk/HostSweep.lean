/-
# The host's sweep of a session

`src/host-sweep.ts`, `sweepSession`: every minute, for each session, the host
copies the container's acknowledgements, wakes a container if work is due, kills
one that is stuck, retries the rows a dead one had claimed, and inserts the next
occurrence of what recurs.

Between the awaits of a sweep (the wake, the kill, the imports of the recurrence
loop) the host delivers messages and runs task operations; the container writes
its own database at any moment, and so does the operator's tool to the host's. So
the sweep is a machine of its own (`SweepPhase`), a step is a statement or a
stretch without one, and everything outside is an event: the clock, the container
(which may write anything it likes to its tables), the operator, a throw, a crash
of the host. One sweep of a session runs at a time.

The reading and the writing of one row in the retry loop are one step: the host's
own code does not run in between, and the operator's tool touches only rows that
have failed.

What a sweep reads of the session's token usage, of the cron expression and of a
new id is in its events. `sweepStep_row` says what a step can do to a row, and
every result about the queue is read off that.

Key theorems: `decideStuckAction_ok_iff`, `sweepStep_row`, `sweepStep_persists`,
`sweepStep_recurring`, `sweepInv_step`.
-/
import Mathlib.Algebra.Ring.Nat
import AgentDesk.InboundQueue
import AgentDesk.Trans

namespace AgentDesk

/-! ### Is a container stuck? -/

def maxTries : ℕ := 5

def backoffBaseMs : ℕ := 5000

def claimStuckMs : ℤ := 60 * 1000

/-- `CONTAINER_TIMEOUT`, `none` when it is not a number. -/
def absoluteCeilingMs (containerTimeout : Option ℤ) : ℤ :=
  max 60000 (if containerTimeout.getD 0 = 0 then 30 * 60 * 1000 else containerTimeout.getD 0)

/-- The row of `container_state`. -/
structure ContainerState where
  currentTool : Option String
  toolDeclaredTimeoutMs : Option ℤ
  deriving DecidableEq, Repr

def bashTimeoutMs (state : Option ContainerState) : Option ℤ :=
  state.bind fun st => if st.currentTool = some "Bash" then st.toolDeclaredTimeoutMs else none

inductive StuckDecision where
  | ok
  | killCeiling (heartbeatAgeMs ceilingMs : ℤ)
  | killClaim (messageId : String) (claimAgeMs toleranceMs : ℤ)
  deriving DecidableEq, Repr

/-- How old a claim may get. -/
def claimTolerance (state : Option ContainerState) : ℤ := max claimStuckMs ((bashTimeoutMs state).getD 0)

/-- The verdict on one claim, if it is a reason to kill. -/
def stuckClaim (now heartbeatMtimeMs tolerance : ℤ) (claim : ProcessingAck) : Option StuckDecision :=
  match claim.statusChanged with
  | none => none
  | some claimedAt =>
    if now - claimedAt ≤ tolerance then none
    else if claimedAt < heartbeatMtimeMs then none
    else some (.killClaim claim.messageId (now - claimedAt) tolerance)

/-- `heartbeatMtimeMs` is 0 when there is no heartbeat file. -/
def decideStuckAction (containerTimeout : Option ℤ) (now heartbeatMtimeMs : ℤ) (state : Option ContainerState)
    (claims : List ProcessingAck) : StuckDecision :=
  let ceiling := max (absoluteCeilingMs containerTimeout) ((bashTimeoutMs state).getD 0)
  if heartbeatMtimeMs ≠ 0 ∧ ceiling < now - heartbeatMtimeMs then
    .killCeiling (now - heartbeatMtimeMs) ceiling
  else (claims.findSome? (stuckClaim now heartbeatMtimeMs (claimTolerance state))).getD .ok

theorem stuckClaim_eq_none {now heartbeat tolerance : ℤ} {claim : ProcessingAck} :
    stuckClaim now heartbeat tolerance claim = none ↔
      ∀ claimedAt, claim.statusChanged = some claimedAt → now - claimedAt ≤ tolerance ∨ claimedAt < heartbeat := by
  unfold stuckClaim
  cases claim.statusChanged with
  | none => simp
  | some t =>
    dsimp only
    by_cases hyoung : now - t ≤ tolerance
    · rw [if_pos hyoung]
      refine ⟨fun _ claimedAt ht => .inl ?_, fun _ => rfl⟩
      rwa [← Option.some.inj ht]
    · rw [if_neg hyoung]
      by_cases hbeat : t < heartbeat
      · rw [if_pos hbeat]
        refine ⟨fun _ claimedAt ht => .inr ?_, fun _ => rfl⟩
        rwa [← Option.some.inj ht]
      · rw [if_neg hbeat]
        refine ⟨fun h => (nomatch h), fun h => ?_⟩
        rcases h t rfl with h | h
        · exact absurd h hyoung
        · exact absurd h hbeat

theorem stuckClaim_ne_ok {now heartbeat tolerance : ℤ} {claim : ProcessingAck} {d : StuckDecision}
    (h : stuckClaim now heartbeat tolerance claim = some d) : d ≠ .ok := by
  unfold stuckClaim at h
  split at h
  · cases h
  split at h
  · cases h
  split at h
  · cases h
  rw [← Option.some.inj h]
  exact StuckDecision.noConfusion

/-- A container is spared if its heartbeat, where there is one, is not past the ceiling, and no claim is
a reason to kill. -/
theorem decideStuckAction_ok_iff {containerTimeout : Option ℤ} {now heartbeat : ℤ}
    {state : Option ContainerState} {claims : List ProcessingAck} :
    decideStuckAction containerTimeout now heartbeat state claims = .ok ↔
      (heartbeat = 0 ∨
          now - heartbeat ≤ max (absoluteCeilingMs containerTimeout) ((bashTimeoutMs state).getD 0)) ∧
        ∀ claim ∈ claims, ∀ claimedAt, claim.statusChanged = some claimedAt →
          now - claimedAt ≤ claimTolerance state ∨ claimedAt < heartbeat := by
  unfold decideStuckAction
  dsimp only
  split
  · rename_i hceiling
    refine ⟨StuckDecision.noConfusion, ?_⟩
    rintro ⟨h | h, -⟩
    · exact absurd h hceiling.1
    · omega
  · rename_i hceiling
    have hbeat : heartbeat = 0 ∨
        now - heartbeat ≤ max (absoluteCeilingMs containerTimeout) ((bashTimeoutMs state).getD 0) := by
      by_cases h0 : heartbeat = 0
      · exact .inl h0
      · exact .inr (not_lt.mp fun hlt => hceiling ⟨h0, hlt⟩)
    cases hd : claims.findSome? (stuckClaim now heartbeat (claimTolerance state)) with
    | none =>
      refine ⟨fun _ => ⟨hbeat, fun claim hmem => ?_⟩, fun _ => rfl⟩
      exact stuckClaim_eq_none.mp (List.findSome?_eq_none_iff.mp hd claim hmem)
    | some d =>
      obtain ⟨claim, hmem, hc⟩ := List.exists_of_findSome?_eq_some hd
      refine ⟨fun h => absurd h (stuckClaim_ne_ok hc), fun ⟨_, hall⟩ => ?_⟩
      rw [stuckClaim_eq_none.mpr (hall claim hmem)] at hc
      cases hc

/-! ### The machine -/

/-- Where the sweep of the session is. `outDb`: the container's database could be opened. -/
inductive SweepPhase where
  | idle
  /-- Acknowledgements copied; about to count what is due. -/
  | counting (outDb : Bool)
  /-- `wakeContainer` is on its way. -/
  | waking (outDb : Bool)
  /-- About to ask whether a container runs. -/
  | judging (outDb : Bool)
  /-- `killContainer` is on its way. -/
  | killing
  /-- In the retry loop, with the time it started and the claims to come. -/
  | resetting (now : ℕ) (claims : List String)
  /-- The recurrence module is being imported. -/
  | importing
  /-- In the recurrence loop, with the rows to come, as they were read. -/
  | recurring (queue : List QueueRow)

/-- A session: the host's queue, the container's tables, its heartbeat file, whether the host has a
container registered for it, and the sweep. The clock is in milliseconds. -/
structure SweepState where
  sessionId : String
  now : ℕ
  rows : List QueueRow
  acks : List ProcessingAck
  containerState : Option ContainerState
  heartbeat : ℕ
  running : Bool
  sweep : SweepPhase

def SweepState.fresh (sessionId : String) : SweepState := ⟨sessionId, 0, [], [], none, 0, false, .idle⟩

/-- What the recurrence loop makes of a row: the cron expression (or the import) throws, or the next
occurrence is inserted and the old row's recurrence cleared, unless that statement throws. -/
inductive RecurOutcome where
  | throws
  | next (newId : String) (nextRun : Stamp) (cleared : Bool)

inductive SweepEvent where
  | tick (ms : ℕ)
  | insertMessage (m : NewMessage) (processAfter : Option Stamp) (recurrence : Option String)
  | insertTask (t : NewTask)
  | cancelTask (taskId : String)
  | pauseTask (taskId : String)
  | resumeTask (taskId : String)
  | updateTask (taskId : String) (u : TaskUpdate)
  /-- The operator. -/
  | requeue (messageId : String)
  /-- The container writes its database: claims, acknowledgements, its tool. -/
  | outbound (acks : List ProcessingAck) (state : Option ContainerState)
  /-- The container touches its heartbeat file. -/
  | beat
  /-- A wake (anybody's) spawns a container. -/
  | spawn
  /-- The container's process is gone. -/
  | exit
  /-- The host is restarted. -/
  | crash
  /-- A statement of the sweep throws. -/
  | abort
  | sync (outDb : Bool)
  | count
  | woken
  | judge (overBudget : Bool)
  | killed
  | reset
  | clear (opened : Bool)
  | readRecurring
  | recur (outcome : RecurOutcome)
  | finish

/-- `parseSqliteUtc(processAfter) > now`: already scheduled for a later retry. -/
def QueueRow.rescheduled (now : ℕ) (r : QueueRow) : Bool :=
  r.processAfter.any fun stamp => stamp.parsed.any fun (t : ℤ) => decide ((now : ℤ) < t)

def backoffSecAfter (tries : ℕ) : ℕ := backoffBaseMs * 2 ^ tries / 1000

/-- One turn of the loop of `resetStuckProcessingRows`, which started at `start`. -/
def resetRow (rows : List QueueRow) (start now : ℕ) (messageId : String) : List QueueRow :=
  match getMessageForRetry rows messageId .pending with
  | none => rows
  | some msg =>
    if msg.rescheduled start then rows
    else if maxTries ≤ msg.tries then markMessageFailed rows msg.id
    else retryWithBackoff rows msg.id (backoffSecAfter msg.tries) now

/-- The loop of `resetStuckProcessingRows` is entered. -/
def SweepState.startReset (s : SweepState) : SweepPhase :=
  .resetting s.now ((getProcessingClaims s.acks).map (·.messageId))

/-- What `enforceRunningContainerSla` decides on, less the budget. -/
def SweepState.stuck (containerTimeout : Option ℤ) (s : SweepState) : StuckDecision :=
  decideStuckAction containerTimeout s.now s.heartbeat s.containerState (getProcessingClaims s.acks)

/-- After the wake: kill, retry, or go on to the recurrence. -/
def SweepState.judged (containerTimeout : Option ℤ) (s : SweepState) (outDb overBudget : Bool) : SweepPhase :=
  if !outDb then .importing
  else if !s.running then s.startReset
  else if overBudget || s.stuck containerTimeout ≠ .ok then .killing
  else .importing

/-- One turn of the loop of `handleRecurrence`. -/
def recurRow (rows : List QueueRow) (msg : QueueRow) : RecurOutcome → List QueueRow
  | .throws => rows
  | .next newId nextRun cleared => match insertRecurrence rows msg newId nextRun with
    | none => rows
    | some rows' => if cleared then clearRecurrence rows' msg.id else rows'

/-- Does the sweep wake a container? -/
def SweepState.counted (s : SweepState) (outDb : Bool) : SweepPhase :=
  if 0 < countDueMessages s.rows s.now && !s.running then .waking outDb else .judging outDb

def sweepStep (containerTimeout : Option ℤ) (s : SweepState) : SweepEvent → Option SweepState
  | .tick ms => some { s with now := s.now + ms }
  | .insertMessage m processAfter recurrence =>
    some { s with rows := (insertMessage s.rows s.sessionId m processAfter recurrence).getD s.rows }
  | .insertTask t => some { s with rows := (insertTask s.rows s.sessionId t).getD s.rows }
  | .cancelTask taskId => some { s with rows := cancelTask s.rows taskId }
  | .pauseTask taskId => some { s with rows := pauseTask s.rows taskId }
  | .resumeTask taskId => some { s with rows := resumeTask s.rows taskId }
  | .updateTask taskId u => some { s with rows := ((updateTask s.rows taskId u).map (·.1)).getD s.rows }
  | .requeue messageId => some { s with rows := (requeueFailedInbound s.rows messageId).1 }
  | .outbound acks state => some { s with acks, containerState := state }
  | .beat => some { s with heartbeat := s.now }
  | .spawn => if s.running then none else some { s with heartbeat := 0, running := true }
  | .exit => if s.running then some { s with running := false } else none
  | .crash => some { s with running := false, sweep := .idle }
  | .abort => some { s with sweep := .idle }
  | .sync outDb => match s.sweep with
    | .idle => some { s with rows := if outDb then syncProcessingAcks s.rows s.acks else s.rows
                             sweep := .counting outDb }
    | _ => none
  | .count => match s.sweep with
    | .counting outDb => some { s with sweep := s.counted outDb }
    | _ => none
  | .woken => match s.sweep with
    | .waking outDb => some { s with sweep := .judging outDb }
    | _ => none
  | .judge overBudget => match s.sweep with
    | .judging outDb => some { s with sweep := s.judged containerTimeout outDb overBudget }
    | _ => none
  | .killed => match s.sweep with
    | .killing => some { s with sweep := s.startReset }
    | _ => none
  | .reset => match s.sweep with
    | .resetting start (messageId :: claims) =>
      some { s with rows := resetRow s.rows start s.now messageId, sweep := .resetting start claims }
    | _ => none
  | .clear opened => match s.sweep with
    | .resetting _ [] => some { s with acks := if opened then deleteOrphanProcessingClaims s.acks else s.acks
                                       sweep := .importing }
    | _ => none
  | .readRecurring => match s.sweep with
    | .importing => some { s with sweep := .recurring (getCompletedRecurring s.rows) }
    | _ => none
  | .recur outcome => match s.sweep with
    | .recurring (msg :: queue) => some { s with rows := recurRow s.rows msg outcome, sweep := .recurring queue }
    | _ => none
  | .finish => match s.sweep with
    | .recurring [] => some { s with sweep := .idle }
    | _ => none

/-! ### What a step does to the queue -/

variable {c : Option ℤ} {s s' : SweepState} {e : SweepEvent}

/-- The queue after a step. -/
inductive RowsMove (s : SweepState) : SweepEvent → List QueueRow → Prop
  | same (e : SweepEvent) : RowsMove s e s.rows
  | insertMessage {m : NewMessage} {processAfter : Option Stamp} {recurrence : Option String}
      {rows' : List QueueRow} (h : insertMessage s.rows s.sessionId m processAfter recurrence = some rows') :
      RowsMove s (.insertMessage m processAfter recurrence) rows'
  | insertTask {t : NewTask} {rows' : List QueueRow} (h : insertTask s.rows s.sessionId t = some rows') :
      RowsMove s (.insertTask t) rows'
  | cancelTask (taskId : String) : RowsMove s (.cancelTask taskId) (cancelTask s.rows taskId)
  | pauseTask (taskId : String) : RowsMove s (.pauseTask taskId) (pauseTask s.rows taskId)
  | resumeTask (taskId : String) : RowsMove s (.resumeTask taskId) (resumeTask s.rows taskId)
  | updateTask (taskId : String) (u : TaskUpdate) : RowsMove s (.updateTask taskId u)
      (Table.updateWhere (fun r => r.named taskId && r.live) u.apply s.rows)
  | requeue (messageId : String) : RowsMove s (.requeue messageId) (requeueFailedInbound s.rows messageId).1
  | sync : RowsMove s (.sync true) (syncProcessingAcks s.rows s.acks)
  | reset {start : ℕ} {messageId : String} {claims : List String}
      (hphase : s.sweep = .resetting start (messageId :: claims)) :
      RowsMove s .reset (resetRow s.rows start s.now messageId)
  | recur {msg : QueueRow} {queue : List QueueRow} (hphase : s.sweep = .recurring (msg :: queue))
      (outcome : RecurOutcome) : RowsMove s (.recur outcome) (recurRow s.rows msg outcome)

theorem sweepStep_rows (h : sweepStep c s e = some s') : RowsMove s e s'.rows := by
  cases e with
  | insertMessage m processAfter recurrence =>
    obtain rfl := Option.some.inj h
    dsimp only
    cases hi : insertMessage s.rows s.sessionId m processAfter recurrence with
    | none => exact .same _
    | some rows' => exact .insertMessage hi
  | insertTask t =>
    obtain rfl := Option.some.inj h
    dsimp only
    cases hi : insertTask s.rows s.sessionId t with
    | none => exact .same _
    | some rows' => exact .insertTask hi
  | cancelTask taskId =>
    obtain rfl := Option.some.inj h
    exact .cancelTask taskId
  | pauseTask taskId =>
    obtain rfl := Option.some.inj h
    exact .pauseTask taskId
  | resumeTask taskId =>
    obtain rfl := Option.some.inj h
    exact .resumeTask taskId
  | updateTask taskId u =>
    obtain rfl := Option.some.inj h
    dsimp only
    unfold AgentDesk.updateTask
    dsimp only
    split
    · exact .updateTask taskId u
    · exact .same _
  | requeue messageId =>
    obtain rfl := Option.some.inj h
    exact .requeue messageId
  | sync outDb =>
    simp only [sweepStep] at h
    split at h
    · obtain rfl := Option.some.inj h
      cases outDb with
      | false => exact .same _
      | true => exact .sync
    · cases h
  | reset =>
    simp only [sweepStep] at h
    split at h
    · rename_i start messageId claims hphase
      obtain rfl := Option.some.inj h
      exact .reset hphase
    · cases h
  | recur outcome =>
    simp only [sweepStep] at h
    split at h
    · rename_i msg queue hphase
      obtain rfl := Option.some.inj h
      exact .recur hphase outcome
    · cases h
  | tick | outbound | beat | crash | abort =>
    obtain rfl := Option.some.inj h
    exact .same _
  | spawn | exit | count | woken | judge | killed | clear | readRecurring | finish =>
    simp only [sweepStep] at h
    split at h
    all_goals cases h
    all_goals exact .same _

/-- What a step does to a row. -/
inductive RowMove (s : SweepState) : SweepEvent → QueueRow → QueueRow → Prop
  | same (e : SweepEvent) (r : QueueRow) : RowMove s e r r
  | completed {r : QueueRow} {a : ProcessingAck} (ha : a ∈ s.acks) (hdone : a.done = true)
      (hid : a.messageId = r.id) (hopen : r.status ≠ .completed) :
      RowMove s (.sync true) r { r with status := .completed }
  | failed {r : QueueRow} {start : ℕ} {claims : List String} (hphase : s.sweep = .resetting start (r.id :: claims))
      (hpending : r.status = .pending) (hdue : r.rescheduled start = false) (htries : maxTries ≤ r.tries) :
      RowMove s .reset r { r with status := .failed }
  | retried {r : QueueRow} {start : ℕ} {claims : List String}
      (hphase : s.sweep = .resetting start (r.id :: claims)) (hpending : r.status = .pending)
      (hdue : r.rescheduled start = false) (htries : r.tries < maxTries) :
      RowMove s .reset r
        { r with tries := r.tries + 1
                 processAfter := some (.ofSeconds (s.now / 1000 + backoffSecAfter r.tries)) }
  | requeued {r : QueueRow} (hfailed : r.status = .failed) :
      RowMove s (.requeue r.id) r { r with status := .pending, tries := 0, processAfter := none }
  | cancelled {taskId : String} {r : QueueRow} (hnamed : r.named taskId = true) (hlive : r.live = true) :
      RowMove s (.cancelTask taskId) r { r with status := .completed, recurrence := none }
  | paused {taskId : String} {r : QueueRow} (hnamed : r.named taskId = true) (hpending : r.status = .pending) :
      RowMove s (.pauseTask taskId) r { r with status := .paused }
  | resumed {taskId : String} {r : QueueRow} (hnamed : r.named taskId = true) (hpaused : r.status = .paused) :
      RowMove s (.resumeTask taskId) r { r with status := .pending }
  | updated {taskId : String} {r : QueueRow} (u : TaskUpdate) (hnamed : r.named taskId = true)
      (hlive : r.live = true) : RowMove s (.updateTask taskId u) r (u.apply r)
  | cleared {r msg : QueueRow} {queue : List QueueRow} {newId : String} {nextRun : Stamp}
      (hphase : s.sweep = .recurring (msg :: queue)) (hid : r.id = msg.id) :
      RowMove s (.recur (.next newId nextRun true)) r { r with recurrence := none }

/-- The rows a step inserts. -/
inductive Born (s : SweepState) : SweepEvent → QueueRow → Prop
  | message (m : NewMessage) (processAfter : Option Stamp) (recurrence : Option String) (seq : ℕ) :
      Born s (.insertMessage m processAfter recurrence)
        { m.queued s.sessionId processAfter recurrence with seq := seq }
  | task (t : NewTask) (seq : ℕ) : Born s (.insertTask t) { t.queued s.sessionId with seq := seq }
  | next {msg : QueueRow} {queue : List QueueRow} (hphase : s.sweep = .recurring (msg :: queue)) (newId : String)
      (nextRun : Stamp) (cleared : Bool) (seq : ℕ) :
      Born s (.recur (.next newId nextRun cleared)) { msg.next newId nextRun with seq := seq }

/-- The table still has the row as the recurrence loop read it: completed, and recurring. -/
def Awaiting (rows : List QueueRow) (msg : QueueRow) : Prop :=
  ∃ r ∈ rows, r.id = msg.id ∧ r.kind = msg.kind ∧ r.seriesId = msg.seriesId ∧ r.status = .completed ∧
    r.recurrence.isSome = true

/-- What the sweep has read is still so: the ids are unique, the rows of the recurrence loop are
completed and recurring, and the retry loop started in the past. -/
structure SweepInv (s : SweepState) : Prop where
  unique : (s.rows.map (·.id)).Nodup
  resetting : ∀ start claims, s.sweep = .resetting start claims → start ≤ s.now
  queued : ∀ queue, s.sweep = .recurring queue → (queue.map (·.id)).Nodup ∧
    ∀ msg ∈ queue, Awaiting s.rows msg

theorem RowMove.id_eq {r r' : QueueRow} (h : RowMove s e r r') : r'.id = r.id := by
  cases h <;> rfl

theorem RowMove.kind_eq {r r' : QueueRow} (h : RowMove s e r r') : r'.kind = r.kind := by
  cases h <;> rfl

theorem RowMove.seriesId_eq {r r' : QueueRow} (h : RowMove s e r r') : r'.seriesId = r.seriesId := by
  cases h <;> rfl

theorem eq_of_id (hu : (s.rows.map (·.id)).Nodup) {r r₁ : QueueRow} (hr : r ∈ s.rows) (hr₁ : r₁ ∈ s.rows)
    (h : r.id = r₁.id) : r = r₁ :=
  List.inj_on_of_nodup_map hu hr hr₁ h

theorem resetRow_row (hu : (s.rows.map (·.id)).Nodup) {start : ℕ} {messageId : String} {claims : List String}
    (hphase : s.sweep = .resetting start (messageId :: claims)) {r' : QueueRow}
    (hr' : r' ∈ resetRow s.rows start s.now messageId) : ∃ r ∈ s.rows, RowMove s .reset r r' := by
  unfold resetRow at hr'
  cases hg : getMessageForRetry s.rows messageId .pending with
  | none =>
    rw [hg] at hr'
    exact ⟨r', hr', .same _ _⟩
  | some msg =>
    rw [hg] at hr'
    obtain ⟨hfind, hst⟩ := Option.filter_eq_some_iff.mp hg
    obtain ⟨hmem, hid⟩ := Table.find_spec hfind
    have hpending : msg.status = .pending := by simpa using hst
    have hphase' : s.sweep = .resetting start (msg.id :: claims) := by rw [hphase, hid]
    dsimp only at hr'
    split at hr'
    · exact ⟨r', hr', .same _ _⟩
    rename_i hdue
    have hdue' : msg.rescheduled start = false := by simpa using hdue
    split at hr'
    · rename_i htries
      rcases Table.mem_update_of_nodup hu hmem hr' with hold | rfl
      · exact ⟨r', hold, .same _ _⟩
      · exact ⟨msg, hmem, .failed hphase' hpending hdue' htries⟩
    · rename_i htries
      rcases Table.mem_update_of_nodup hu hmem hr' with hold | rfl
      · exact ⟨r', hold, .same _ _⟩
      · exact ⟨msg, hmem, .retried hphase' hpending hdue' (not_le.mp htries)⟩

theorem insertRow_row {rows rows' : List QueueRow} {new r' : QueueRow} (h : insertRow rows new = some rows')
    (hr' : r' ∈ rows') : r' ∈ rows ∨ ((∃ seq, r' = { new with seq := seq }) ∧ ∀ r ∈ rows, r.id ≠ r'.id) := by
  obtain ⟨hfree, seq, rfl⟩ := insertRow_spec h
  rcases List.mem_append.mp hr' with hold | hnew
  · exact .inl hold
  · rw [List.mem_singleton] at hnew
    rw [hnew]
    exact .inr ⟨⟨seq, rfl⟩, Table.find_none hfree⟩

theorem recurRow_row (hI : SweepInv s) {msg : QueueRow} {queue : List QueueRow}
    (hphase : s.sweep = .recurring (msg :: queue)) {outcome : RecurOutcome} {r' : QueueRow}
    (hr' : r' ∈ recurRow s.rows msg outcome) :
    (∃ r ∈ s.rows, RowMove s (.recur outcome) r r') ∨
      (Born s (.recur outcome) r' ∧ ∀ r ∈ s.rows, r.id ≠ r'.id) := by
  cases outcome with
  | throws => exact .inl ⟨r', hr', .same _ _⟩
  | next newId nextRun cleared =>
    cases hi : insertRecurrence s.rows msg newId nextRun with
    | none =>
      simp only [recurRow, hi] at hr'
      exact .inl ⟨r', hr', .same _ _⟩
    | some rows' =>
      simp only [recurRow, hi] at hr'
      have hrow : ∀ r₁ ∈ rows', r₁ ∈ s.rows ∨
          (Born s (.recur (.next newId nextRun cleared)) r₁ ∧ ∀ r ∈ s.rows, r.id ≠ r₁.id) := by
        intro r₁ hr₁
        rcases insertRow_row hi hr₁ with hold | ⟨⟨seq, rfl⟩, hfree⟩
        · exact .inl hold
        · exact .inr ⟨.next hphase newId nextRun cleared seq, hfree⟩
      cases cleared with
      | false =>
        rcases hrow r' hr' with hold | hborn
        · exact .inl ⟨r', hold, .same _ _⟩
        · exact .inr hborn
      | true =>
        simp only [if_true] at hr'
        unfold clearRecurrence at hr'
        rw [Table.update_eq] at hr'
        rcases Table.mem_updateWhere hr' with hold | ⟨r, hr, hp, rfl⟩
        · rcases hrow r' hold with hold | hborn
          · exact .inl ⟨r', hold, .same _ _⟩
          · exact .inr hborn
        · have hid : r.id = msg.id := by simpa using hp
          rcases hrow r hr with hold | ⟨-, hfree⟩
          · exact .inl ⟨r, hold, .cleared hphase hid⟩
          · -- the cleared row is an old one: the new one has another id
            obtain ⟨r₀, hr₀, hid₀, -⟩ := (hI.queued _ hphase).2 msg (.head _)
            exact absurd (hid₀.trans hid.symm) (hfree r₀ hr₀)

/-- **Row by row.** Every row after a step was there before and took one of the row moves, or is one
the step inserted, with an id of its own. -/
theorem sweepStep_row (hI : SweepInv s) (h : sweepStep c s e = some s') {r' : QueueRow} (hr' : r' ∈ s'.rows) :
    (∃ r ∈ s.rows, RowMove s e r r') ∨ (Born s e r' ∧ ∀ r ∈ s.rows, r.id ≠ r'.id) := by
  have hmove := sweepStep_rows h
  generalize s'.rows = rows' at hmove hr'
  cases hmove with
  | same => exact .inl ⟨r', hr', .same _ _⟩
  | insertMessage hi =>
    rcases insertRow_row hi hr' with hold | ⟨⟨seq, rfl⟩, hfree⟩
    · exact .inl ⟨r', hold, .same _ _⟩
    · exact .inr ⟨.message _ _ _ seq, hfree⟩
  | insertTask hi =>
    rcases insertRow_row hi hr' with hold | ⟨⟨seq, rfl⟩, hfree⟩
    · exact .inl ⟨r', hold, .same _ _⟩
    · exact .inr ⟨.task _ seq, hfree⟩
  | cancelTask taskId =>
    rcases Table.mem_updateWhere hr' with hold | ⟨r, hr, hp, rfl⟩
    · exact .inl ⟨r', hold, .same _ _⟩
    · obtain ⟨hnamed, hlive⟩ := Bool.and_eq_true_iff.mp hp
      exact .inl ⟨r, hr, .cancelled hnamed hlive⟩
  | pauseTask taskId =>
    rcases Table.mem_updateWhere hr' with hold | ⟨r, hr, hp, rfl⟩
    · exact .inl ⟨r', hold, .same _ _⟩
    · obtain ⟨hnamed, hpending⟩ := Bool.and_eq_true_iff.mp hp
      exact .inl ⟨r, hr, .paused hnamed (by simpa using hpending)⟩
  | resumeTask taskId =>
    rcases Table.mem_updateWhere hr' with hold | ⟨r, hr, hp, rfl⟩
    · exact .inl ⟨r', hold, .same _ _⟩
    · obtain ⟨hnamed, hpaused⟩ := Bool.and_eq_true_iff.mp hp
      exact .inl ⟨r, hr, .resumed hnamed (by simpa using hpaused)⟩
  | updateTask taskId u =>
    rcases Table.mem_updateWhere hr' with hold | ⟨r, hr, hp, rfl⟩
    · exact .inl ⟨r', hold, .same _ _⟩
    · obtain ⟨hnamed, hlive⟩ := Bool.and_eq_true_iff.mp hp
      exact .inl ⟨r, hr, .updated u hnamed hlive⟩
  | requeue messageId =>
    rcases Table.mem_updateWhere hr' with hold | ⟨r, hr, hp, rfl⟩
    · exact .inl ⟨r', hold, .same _ _⟩
    · obtain ⟨hid, hfailed⟩ := Bool.and_eq_true_iff.mp hp
      obtain rfl : r.id = messageId := by simpa using hid
      exact .inl ⟨r, hr, .requeued (by simpa using hfailed)⟩
  | sync =>
    rw [syncProcessingAcks_eq] at hr'
    rcases Table.mem_updateWhere hr' with hold | ⟨r, hr, hp, rfl⟩
    · exact .inl ⟨r', hold, .same _ _⟩
    · obtain ⟨hack, hopen⟩ := Bool.and_eq_true_iff.mp hp
      obtain ⟨a, ha, hack⟩ := List.any_eq_true.mp hack
      obtain ⟨hdone, hid⟩ := Bool.and_eq_true_iff.mp hack
      exact .inl ⟨r, hr, .completed ha hdone (by simpa using hid) (by simpa using hopen)⟩
  | reset hphase => exact .inl (resetRow_row hI.unique hphase hr')
  | recur hphase outcome => exact recurRow_row hI hphase hr'

theorem sweepStep_ids (h : sweepStep c s e = some s') :
    s'.rows.map (·.id) = s.rows.map (·.id) ∨
      ∃ id, id ∉ s.rows.map (·.id) ∧ s'.rows.map (·.id) = s.rows.map (·.id) ++ [id] := by
  have hinsert : ∀ {new : QueueRow} {rows' : List QueueRow}, insertRow s.rows new = some rows' →
      ∃ id, id ∉ s.rows.map (·.id) ∧ rows'.map (·.id) = s.rows.map (·.id) ++ [id] := by
    intro new rows' hi
    obtain ⟨hfree, seq, rfl⟩ := insertRow_spec hi
    refine ⟨new.id, ?_, by simp⟩
    rintro hmem
    obtain ⟨r, hr, hid⟩ := List.mem_map.mp hmem
    exact Table.find_none hfree r hr hid
  have hupdate : ∀ {rows : List QueueRow} {p : QueueRow → Bool} {f : QueueRow → QueueRow},
      (∀ r, (f r).id = r.id) → (Table.updateWhere p f rows).map (·.id) = rows.map (·.id) :=
    fun hf => Table.map_updateWhere hf _
  have hmove := sweepStep_rows h
  generalize s'.rows = rows' at hmove ⊢
  cases hmove with
  | same => exact .inl rfl
  | insertMessage hi => exact .inr (hinsert hi)
  | insertTask hi => exact .inr (hinsert hi)
  | cancelTask | pauseTask | resumeTask | updateTask | requeue => exact .inl (hupdate fun _ => rfl)
  | sync =>
    rw [syncProcessingAcks_eq]
    exact .inl (hupdate fun _ => rfl)
  | reset hphase =>
    refine .inl ?_
    unfold resetRow markMessageFailed retryWithBackoff
    split
    · rfl
    · split
      · rfl
      · split
        · rw [Table.update_eq]
          exact hupdate fun _ => rfl
        · rw [Table.update_eq]
          exact hupdate fun _ => rfl
  | @recur msg queue hphase outcome =>
    cases outcome with
    | throws => exact .inl rfl
    | next newId nextRun cleared =>
      cases hi : insertRecurrence s.rows msg newId nextRun with
      | none => exact .inl (by simp only [recurRow, hi])
      | some rows₁ =>
        obtain ⟨id, hnew, hids⟩ := hinsert hi
        refine .inr ⟨id, hnew, ?_⟩
        simp only [recurRow, hi]
        split
        · unfold clearRecurrence
          rw [Table.update_eq, ← hids]
          exact hupdate fun _ => rfl
        · exact hids

/-- No row is lost. -/
theorem sweepStep_persists (hI : SweepInv s) (h : sweepStep c s e = some s') {r : QueueRow} (hr : r ∈ s.rows) :
    ∃ r' ∈ s'.rows, RowMove s e r r' := by
  have hid : r.id ∈ s'.rows.map (·.id) := by
    have hmem : r.id ∈ s.rows.map (·.id) := List.mem_map.mpr ⟨r, hr, rfl⟩
    rcases sweepStep_ids h with heq | ⟨id, -, heq⟩
    · rwa [heq]
    · rw [heq]
      exact List.mem_append_left _ hmem
  obtain ⟨r', hr', hid'⟩ := List.mem_map.mp hid
  rcases sweepStep_row hI h hr' with ⟨r₀, hr₀, hmove⟩ | ⟨-, hfree⟩
  · obtain rfl := eq_of_id hI.unique hr₀ hr (hmove.id_eq.symm.trans hid')
    exact ⟨r', hr', hmove⟩
  · exact absurd hid'.symm (hfree r hr)

theorem sweepStep_row_of_id (hI : SweepInv s) (h : sweepStep c s e = some s') {r r' : QueueRow} (hr : r ∈ s.rows)
    (hr' : r' ∈ s'.rows) (hid : r'.id = r.id) : RowMove s e r r' := by
  rcases sweepStep_row hI h hr' with ⟨r₀, hr₀, hmove⟩ | ⟨-, hfree⟩
  · obtain rfl := eq_of_id hI.unique hr₀ hr (hmove.id_eq.symm.trans hid)
    exact hmove
  · exact absurd hid.symm (hfree r hr)

theorem RowMove.of_completed {r r' : QueueRow} (h : RowMove s e r r') (hdone : r.status = .completed) :
    r' = r ∨ ∃ msg queue outcome, s.sweep = .recurring (msg :: queue) ∧ e = .recur outcome ∧ r.id = msg.id ∧
      r' = { r with recurrence := none } := by
  have hlive : r.live = false := by simp [QueueRow.live, hdone]
  cases h with
  | same => exact .inl rfl
  | completed _ _ _ hopen => exact absurd hdone hopen
  | failed _ hpending | retried _ hpending | paused _ hpending =>
    rw [hdone] at hpending
    cases hpending
  | requeued hfailed =>
    rw [hdone] at hfailed
    cases hfailed
  | resumed _ hpaused =>
    rw [hdone] at hpaused
    cases hpaused
  | cancelled _ hl | updated _ _ hl =>
    rw [hlive] at hl
    cases hl
  | cleared hphase hid => exact .inr ⟨_, _, _, hphase, rfl, hid, rfl⟩

/-! ### What a step does to the sweep -/

theorem sweepStep_now (h : sweepStep c s e = some s') : s.now ≤ s'.now := by
  cases e with
  | tick ms =>
    obtain rfl := Option.some.inj h
    exact Nat.le_add_right _ _
  | insertMessage | insertTask | cancelTask | pauseTask | resumeTask | updateTask | requeue | outbound | beat |
    crash | abort =>
    obtain rfl := Option.some.inj h
    exact le_refl _
  | sync | reset | recur | spawn | exit | count | woken | judge | killed | clear | readRecurring | finish =>
    simp only [sweepStep] at h
    split at h
    all_goals cases h
    all_goals exact le_refl _

/-- In one of the two loops. -/
def SweepPhase.looping : SweepPhase → Bool
  | .resetting _ _ | .recurring _ => true
  | _ => false

/-- Where the sweep is after a step. -/
inductive PhaseMove (s : SweepState) : SweepEvent → SweepPhase → Prop
  | stays {e : SweepEvent} (hne : ∀ outcome, e ≠ .recur outcome) : PhaseMove s e s.sweep
  | leaves (e : SweepEvent) {phase : SweepPhase} (h : phase.looping = false) : PhaseMove s e phase
  | startReset (e : SweepEvent) : PhaseMove s e s.startReset
  | reset {start : ℕ} {messageId : String} {claims : List String}
      (hphase : s.sweep = .resetting start (messageId :: claims)) : PhaseMove s .reset (.resetting start claims)
  | readRecurring : PhaseMove s .readRecurring (.recurring (getCompletedRecurring s.rows))
  | recur {msg : QueueRow} {queue : List QueueRow} (hphase : s.sweep = .recurring (msg :: queue))
      (outcome : RecurOutcome) : PhaseMove s (.recur outcome) (.recurring queue)

theorem SweepState.counted_looping (s : SweepState) (outDb : Bool) : (s.counted outDb).looping = false := by
  unfold SweepState.counted
  split <;> rfl

theorem SweepState.judged_cases (c : Option ℤ) (s : SweepState) (outDb overBudget : Bool) :
    s.judged c outDb overBudget = s.startReset ∨ (s.judged c outDb overBudget).looping = false := by
  unfold SweepState.judged
  split
  · exact .inr rfl
  split
  · exact .inl rfl
  split <;> exact .inr rfl

theorem sweepStep_phase (h : sweepStep c s e = some s') : PhaseMove s e s'.sweep := by
  cases e with
  | tick | insertMessage | insertTask | cancelTask | pauseTask | resumeTask | updateTask | requeue | outbound |
    beat =>
    obtain rfl := Option.some.inj h
    exact .stays fun _ => SweepEvent.noConfusion
  | crash | abort =>
    obtain rfl := Option.some.inj h
    exact .leaves _ rfl
  | spawn | exit =>
    simp only [sweepStep] at h
    split at h
    all_goals cases h
    all_goals exact .stays fun _ => SweepEvent.noConfusion
  | sync | woken | clear | finish =>
    simp only [sweepStep] at h
    split at h
    all_goals cases h
    all_goals exact .leaves _ rfl
  | count =>
    simp only [sweepStep] at h
    split at h
    · cases h
      exact .leaves _ (s.counted_looping _)
    · cases h
  | judge overBudget =>
    simp only [sweepStep] at h
    split at h
    · rename_i outDb _
      cases h
      dsimp only
      rcases s.judged_cases c outDb overBudget with hj | hj
      · rw [hj]
        exact .startReset _
      · exact .leaves _ hj
    · cases h
  | killed =>
    simp only [sweepStep] at h
    split at h
    · cases h
      exact .startReset _
    · cases h
  | reset =>
    simp only [sweepStep] at h
    split at h
    · rename_i hphase
      cases h
      exact .reset hphase
    · cases h
  | readRecurring =>
    simp only [sweepStep] at h
    split at h
    · cases h
      exact .readRecurring
    · cases h
  | recur outcome =>
    simp only [sweepStep] at h
    split at h
    · rename_i hphase
      cases h
      exact .recur hphase outcome
    · cases h

theorem sweepStep_resetting {start : ℕ} {claims : List String} (h : sweepStep c s e = some s')
    (hphase : s'.sweep = .resetting start claims) :
    start = s.now ∨ ∃ claims₀, s.sweep = .resetting start claims₀ := by
  have hmove := sweepStep_phase h
  generalize s'.sweep = phase at hmove hphase
  cases hmove with
  | stays => exact .inr ⟨claims, hphase⟩
  | leaves _ hno =>
    rw [hphase] at hno
    cases hno
  | startReset =>
    cases hphase
    exact .inl rfl
  | reset hbefore =>
    cases hphase
    exact .inr ⟨_, hbefore⟩
  | readRecurring | recur => cases hphase

/-- The recurrence loop has just read its rows, has taken its next row, or stands where it was. -/
theorem sweepStep_recurring {queue : List QueueRow} (h : sweepStep c s e = some s')
    (hphase : s'.sweep = .recurring queue) :
    (queue = getCompletedRecurring s.rows ∧ s'.rows = s.rows) ∨
      (∃ msg outcome, s.sweep = .recurring (msg :: queue) ∧ e = .recur outcome) ∨
      (s.sweep = .recurring queue ∧ ∀ outcome, e ≠ .recur outcome) := by
  have hmove := sweepStep_phase h
  generalize s'.sweep = phase at hmove hphase
  cases hmove with
  | stays hne => exact .inr (.inr ⟨hphase, hne⟩)
  | leaves _ hno =>
    rw [hphase] at hno
    cases hno
  | readRecurring =>
    have hrows : s'.rows = s.rows := by
      have hr := sweepStep_rows h
      generalize s'.rows = rows' at hr
      cases hr
      rfl
    exact .inl ⟨(SweepPhase.recurring.inj hphase).symm, hrows⟩
  | recur hbefore outcome =>
    cases hphase
    exact .inr (.inl ⟨_, outcome, hbefore, rfl⟩)
  | startReset | reset => cases hphase

/-! ### The invariant -/

theorem sweepInv_fresh (sessionId : String) : SweepInv (SweepState.fresh sessionId) := by
  refine ⟨by simp [SweepState.fresh], ?_, ?_⟩
  · rintro start claims h
    cases h
  · rintro queue h
    cases h

theorem mem_getCompletedRecurring {rows : List QueueRow} {msg : QueueRow} (h : msg ∈ getCompletedRecurring rows) :
    msg ∈ rows ∧ msg.status = .completed ∧ msg.recurrence.isSome = true := by
  obtain ⟨hmem, hp⟩ := List.mem_filter.mp h
  obtain ⟨hdone, hrec⟩ := Bool.and_eq_true_iff.mp hp
  exact ⟨hmem, by simpa using hdone, hrec⟩

theorem sweepInv_step (s : SweepState) (e : SweepEvent) (s' : SweepState) (hI : SweepInv s)
    (h : sweepStep c s e = some s') : SweepInv s' := by
  -- a row that waits for its turn in the recurrence loop keeps what was read of it
  have hkeep : ∀ msg : QueueRow, (∀ outcome msg₀ queue, e = .recur outcome →
      s.sweep = .recurring (msg₀ :: queue) → msg₀.id ≠ msg.id) → Awaiting s.rows msg → Awaiting s'.rows msg := by
    rintro msg hother ⟨r, hr, hid, hrest⟩
    obtain ⟨r', hr', hmove⟩ := sweepStep_persists hI h hr
    rcases hmove.of_completed hrest.2.2.1 with rfl | ⟨msg₀, queue, outcome, hphase, he, hid₀, -⟩
    · exact ⟨r', hr', hid, hrest⟩
    · exact absurd (hid₀.symm.trans hid) (hother outcome msg₀ queue he hphase)
  refine ⟨?_, ?_, ?_⟩
  · rcases sweepStep_ids h with heq | ⟨id, hnew, heq⟩
    · rw [heq]
      exact hI.unique
    · rw [heq, List.nodup_append]
      refine ⟨hI.unique, List.nodup_singleton id, ?_⟩
      rintro a ha b hb rfl
      rw [List.mem_singleton] at hb
      exact hnew (hb ▸ ha)
  · intro start claims hphase
    have hnow := sweepStep_now h
    rcases sweepStep_resetting h hphase with rfl | ⟨claims₀, hbefore⟩
    · exact hnow
    · exact (hI.resetting start claims₀ hbefore).trans hnow
  · intro queue hphase
    rcases sweepStep_recurring h hphase with ⟨rfl, hrows⟩ | ⟨msg₀, outcome, hbefore, he⟩ | ⟨hbefore, hno⟩
    · refine ⟨?_, fun msg hmsg => ?_⟩
      · exact hI.unique.sublist (List.filter_sublist.map _)
      · obtain ⟨hmem, hdone, hrec⟩ := mem_getCompletedRecurring hmsg
        exact ⟨msg, hrows ▸ hmem, rfl, rfl, rfl, hdone, hrec⟩
    · obtain ⟨hnd, hall⟩ := hI.queued _ hbefore
      rw [List.map_cons, List.nodup_cons] at hnd
      refine ⟨hnd.2, fun msg hmsg => hkeep msg ?_ (hall msg (.tail _ hmsg))⟩
      intro outcome' msg₁ queue₁ _ hphase₁ hid
      obtain ⟨rfl, rfl⟩ := List.cons.inj (SweepPhase.recurring.inj (hbefore.symm.trans hphase₁))
      exact hnd.1 (List.mem_map.mpr ⟨msg, hmsg, hid.symm⟩)
    · obtain ⟨hnd, hall⟩ := hI.queued _ hbefore
      exact ⟨hnd, fun msg hmsg => hkeep msg (fun outcome _ _ he => absurd he (hno outcome)) (hall msg hmsg)⟩

end AgentDesk
