/-
# The inbound queue of a session

`messages_in` with its status, retry and recurrence columns, and every statement
that writes them: `src/db/session-db.ts` for the host's retries and the
operator's requeue, `src/modules/scheduling/db.ts` for tasks and their next
occurrences. The host is the only writer; the container answers in the
`processing_ack` of its own database, which `syncProcessingAcks` copies.

A stored time has two readers, SQLite's `datetime` and `parseSqliteUtc`; a
`Stamp` is what each of them makes of the text.

Key theorems: `syncProcessingAcks_eq`, `insertRow_spec`.
-/
import AgentDesk.RunnerRows

namespace AgentDesk

open Js

/-! ### Rows and acknowledgements -/

/-- A stored time: `datetime(x)` in seconds, `none` for NULL, and `parseSqliteUtc(x)` in
milliseconds, `none` for NaN. -/
structure Stamp where
  sqlite : Option ℤ
  parsed : Option ℤ
  deriving DecidableEq, Repr

/-- `datetime` of a Unix time, as it is stored. -/
def Stamp.ofSeconds (seconds : ℕ) : Stamp := ⟨some seconds, some (1000 * seconds)⟩

/-- The `status` column. -/
inductive RowStatus where
  | pending | paused | completed | failed
  deriving DecidableEq, Repr

/-- A row of `messages_in`, all of it. -/
structure QueueRow extends MessageIn where
  status : RowStatus
  processAfter : Option Stamp
  recurrence : Option String
  seriesId : String
  tries : ℕ

/-- A row of `processing_ack`. The time is container-written; it is what `parseSqliteUtc` makes of it. -/
structure ProcessingAck where
  messageId : String
  status : AckStatus
  statusChanged : Option ℤ
  deriving DecidableEq, Repr

/-- `status = 'pending'` or `'paused'`. -/
def QueueRow.live (r : QueueRow) : Bool := r.status = .pending || r.status = .paused

/-- `(id = ? OR series_id = ?) AND kind = 'task'`. -/
def QueueRow.named (taskId : String) (r : QueueRow) : Bool :=
  (r.id = taskId || r.seriesId = taskId) && r.kind = .task

/-- `process_after IS NULL OR datetime(process_after) <= datetime('now')`. -/
def QueueRow.due (now : ℕ) (r : QueueRow) : Bool :=
  match r.processAfter with
  | none => true
  | some stamp => stamp.sqlite.any fun (t : ℤ) => decide (t ≤ (now / 1000 : ℕ))

/-! ### Inserting -/

/-- An insert; the id is the primary key, and a conflict throws. The sequence number is a fresh one. -/
def insertRow (rows : List QueueRow) (new : QueueRow) : Option (List QueueRow) :=
  if (Table.find (·.id) rows new.id).isSome then none
  else some (rows ++ [{ new with seq := nextEvenSeq (rows.map (·.toMessageIn)) }])

/-- The row `insertMessage` inserts, before its number. -/
def NewMessage.queued (m : NewMessage) (sessionId : String) (processAfter : Option Stamp)
    (recurrence : Option String) : QueueRow :=
  { m.row sessionId 0 m.content with
    status := .pending, processAfter, recurrence, seriesId := m.id, tries := 0 }

structure NewTask where
  id : String
  processAfter : Stamp
  recurrence : Option String
  platformId : Option String
  channelType : Option String
  threadId : Option String
  content : Content

/-- The row `insertTask` inserts. -/
def NewTask.queued (t : NewTask) (sessionId : String) : QueueRow :=
  { sessionId, id := t.id, seq := 0, kind := .task, platformId := t.platformId, channelType := t.channelType
    threadId := t.threadId, content := t.content, trigger := true, sourceSessionId := none, originUserId := none
    conversationThreadId := none, status := .pending, processAfter := some t.processAfter
    recurrence := t.recurrence, seriesId := t.id, tries := 0 }

/-- The row `insertRecurrence` inserts: the next occurrence, of the same series. -/
def QueueRow.next (msg : QueueRow) (newId : String) (nextRun : Stamp) : QueueRow :=
  { sessionId := msg.sessionId, id := newId, seq := 0, kind := msg.kind, platformId := msg.platformId
    channelType := msg.channelType, threadId := msg.threadId, content := msg.content, trigger := true
    sourceSessionId := none, originUserId := none, conversationThreadId := none, status := .pending
    processAfter := some nextRun, recurrence := msg.recurrence, seriesId := msg.seriesId, tries := 0 }

def insertMessage (rows : List QueueRow) (sessionId : String) (m : NewMessage) (processAfter : Option Stamp)
    (recurrence : Option String) : Option (List QueueRow) :=
  insertRow rows (m.queued sessionId processAfter recurrence)

def insertTask (rows : List QueueRow) (sessionId : String) (t : NewTask) : Option (List QueueRow) :=
  insertRow rows (t.queued sessionId)

def insertRecurrence (rows : List QueueRow) (msg : QueueRow) (newId : String) (nextRun : Stamp) :
    Option (List QueueRow) :=
  insertRow rows (msg.next newId nextRun)

/-! ### The host's retries and the operator -/

def countDueMessages (rows : List QueueRow) (now : ℕ) : ℕ :=
  rows.countP fun r => r.status = .pending && r.trigger && r.due now

/-- The row of the id, if it has the status. -/
def getMessageForRetry (rows : List QueueRow) (messageId : String) (status : RowStatus) : Option QueueRow :=
  (Table.find (·.id) rows messageId).filter (·.status = status)

def markMessageFailed (rows : List QueueRow) (messageId : String) : List QueueRow :=
  Table.update (·.id) rows messageId fun r => { r with status := .failed }

def retryWithBackoff (rows : List QueueRow) (messageId : String) (backoffSec now : ℕ) : List QueueRow :=
  Table.update (·.id) rows messageId fun r =>
    { r with tries := r.tries + 1, processAfter := some (.ofSeconds (now / 1000 + backoffSec)) }

/-- Whether the acknowledgement is one that `syncProcessingAcks` reads. -/
def ProcessingAck.done (a : ProcessingAck) : Bool := a.status = .completed || a.status = .failed

def syncProcessingAcks (rows : List QueueRow) (acks : List ProcessingAck) : List QueueRow :=
  (acks.filter (·.done)).foldl (fun rows a =>
    Table.updateWhere (fun r => r.id = a.messageId && r.status ≠ .completed)
      (fun r => { r with status := .completed }) rows) rows

/-- The operator, `scripts/requeue-inbound.ts`: whether a failed row was reset. -/
def requeueFailedInbound (rows : List QueueRow) (messageId : String) : List QueueRow × Bool :=
  let p := fun r : QueueRow => r.id = messageId && r.status = .failed
  (Table.updateWhere p (fun r => { r with status := .pending, tries := 0, processAfter := none }) rows, rows.any p)

/-- The rows still claimed. -/
def getProcessingClaims (acks : List ProcessingAck) : List ProcessingAck := acks.filter (·.status = .processing)

def deleteOrphanProcessingClaims (acks : List ProcessingAck) : List ProcessingAck :=
  acks.filter (·.status ≠ .processing)

/-! ### Tasks -/

def cancelTask (rows : List QueueRow) (taskId : String) : List QueueRow :=
  Table.updateWhere (fun r => r.named taskId && r.live)
    (fun r => { r with status := .completed, recurrence := none }) rows

def pauseTask (rows : List QueueRow) (taskId : String) : List QueueRow :=
  Table.updateWhere (fun r => r.named taskId && r.status = .pending) (fun r => { r with status := .paused }) rows

def resumeTask (rows : List QueueRow) (taskId : String) : List QueueRow :=
  Table.updateWhere (fun r => r.named taskId && r.status = .paused) (fun r => { r with status := .pending }) rows

/-- The fields to change; the inner `none` is a `null`. -/
structure TaskUpdate where
  prompt : Option String
  script : Option (Option String)
  recurrence : Option (Option String)
  processAfter : Option Stamp

/-- The content with prompt and script replaced; `none` when reading it, or writing a property of it,
throws. -/
def TaskUpdate.merge (u : TaskUpdate) (content : Content) : Option Content :=
  if u.prompt.isNone && u.script.isNone then some content
  else match content with
    | some (.obj fields) =>
      let fields := match u.prompt with
        | some prompt => Json.set fields "prompt" (.str prompt)
        | none => fields
      let fields := match u.script with
        | some script => Json.set fields "script" (script.elim .null .str)
        | none => fields
      some (some (.obj fields))
    -- a property set on an array is not written out again
    | some (.arr l) => some (some (.arr l))
    | _ => none

def TaskUpdate.apply (u : TaskUpdate) (r : QueueRow) : QueueRow :=
  { r with content := (u.merge r.content).getD r.content
           processAfter := u.processAfter.elim r.processAfter some
           recurrence := u.recurrence.getD r.recurrence }

/-- The rows touched, in one transaction: `none` when a merge throws. -/
def updateTask (rows : List QueueRow) (taskId : String) (u : TaskUpdate) : Option (List QueueRow × ℕ) :=
  let touched := rows.filter fun r => r.named taskId && r.live
  if touched.all fun r => (u.merge r.content).isSome then
    some (Table.updateWhere (fun r => r.named taskId && r.live) u.apply rows, touched.length)
  else none

def getCompletedRecurring (rows : List QueueRow) : List QueueRow :=
  rows.filter fun r => r.status = .completed && r.recurrence.isSome

def clearRecurrence (rows : List QueueRow) (messageId : String) : List QueueRow :=
  Table.update (·.id) rows messageId fun r => { r with recurrence := none }

/-! ### What a read finds afterwards -/

/-- The synchronisation, row by row. -/
theorem syncProcessingAcks_eq (rows : List QueueRow) (acks : List ProcessingAck) :
    syncProcessingAcks rows acks =
      Table.updateWhere (fun r => (acks.any fun a => a.done && a.messageId = r.id) && r.status ≠ .completed)
        (fun r => { r with status := .completed }) rows := by
  unfold syncProcessingAcks
  induction acks generalizing rows with
  | nil => simp [Table.updateWhere]
  | cons a acks ih =>
    by_cases hdone : a.done = true
    · rw [List.filter_cons_of_pos hdone, List.foldl_cons, ih]
      unfold Table.updateWhere
      rw [List.map_map]
      apply List.map_congr_left
      intro r _
      by_cases hc : r.status = .completed
      · simp [hc]
      · by_cases ha : r.id = a.messageId
        · simp [hc, ha, hdone]
        · simp [hc, ha, hdone, Ne.symm ha]
    · rw [List.filter_cons_of_neg hdone, ih]
      simp [hdone]

theorem insertRow_spec {rows rows' : List QueueRow} {new : QueueRow} (h : insertRow rows new = some rows') :
    Table.find (·.id) rows new.id = none ∧ ∃ seq, rows' = rows ++ [{ new with seq := seq }] := by
  unfold insertRow at h
  split at h
  · cases h
  · rename_i hfree
    exact ⟨by simpa using hfree, _, (Option.some.inj h).symm⟩

end AgentDesk
