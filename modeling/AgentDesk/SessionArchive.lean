/-
# Archiving idle sessions

`src/session-archive.ts`: the host's sweep looks for sessions that are active, stopped and idle for a number of days,
packs the folder of each (`tar`, in a process of its own, while the host goes on), and then deletes it and marks the
session archived. Before the delete the session's row is read again: a message, or a container that was started, shows
there, and the folder stays.

What waits for the session is in its folder, in `messages_in`, and neither the choice nor the check reads that. A task
for later, a recurrence, a retry with a back-off change the queue and leave `last_active` alone.

* `archive_keeps_work_iff`: in any run, no folder with a pending or paused row is deleted and no such session is
  archived, exactly when every session that has such a row as its tar ends was touched since the sweep chose it.
* `message_not_buried`: a message that comes while the tar runs keeps the folder.
* `scheduled_task_buried`: a task for a month from now is deleted after a week.

The tarballs are left out: nothing reads them. The deleting of pending questions and the revoking of grants that go with
it are in other tables.
-/
import AgentDesk.ContainerTokens
import AgentDesk.InboundQueue
import AgentDesk.Trans

namespace AgentDesk

/-! ### The tables -/

/-- A row of `sessions`, with the columns the sweep reads. -/
structure SessionRow extends Session where
  containerStatus : ContainerStatus
  lastActive : Option ℕ
  archivedAt : Option ℕ
  deriving DecidableEq

/-- `COALESCE(last_active, created_at)`. -/
def SessionRow.idleSince (r : SessionRow) : ℕ := r.lastActive.getD r.createdAt

structure SessionTable where
  rows : List SessionRow
  ids : (rows.map (·.id)).Nodup

def SessionTable.find (t : SessionTable) (id : String) : Option SessionRow := Table.find (·.id) t.rows id

/-- The columns of a row that `updateSession` may set: not its id. -/
def SessionRow.set (f : SessionRow → SessionRow) (r : SessionRow) : SessionRow :=
  { f r with toSession := { (f r).toSession with id := r.id } }

theorem SessionRow.set_id (f : SessionRow → SessionRow) (r : SessionRow) : (SessionRow.set f r).id = r.id := rfl

/-- `updateSession`. -/
def SessionTable.update (t : SessionTable) (id : String) (f : SessionRow → SessionRow) : SessionTable :=
  ⟨Table.update (·.id) t.rows id (SessionRow.set f), by
    rw [Table.keys_update (SessionRow.set_id f)]
    exact t.ids⟩

def SessionTable.insert (t : SessionTable) (new : SessionRow) (h : t.find new.id = none) : SessionTable :=
  ⟨t.rows ++ [new], by
    rw [List.map_append, List.map_singleton, ← List.concat_eq_append]
    refine t.ids.concat fun hmem => ?_
    obtain ⟨r, hr, hid⟩ := List.mem_map.mp hmem
    exact Table.find_none h r hr hid⟩

/-- `deleteSession`, for each of the ids. -/
def SessionTable.delete (t : SessionTable) (ids : List String) : SessionTable :=
  ⟨t.rows.filter fun r => r.id ∉ ids, t.ids.sublist (List.filter_sublist.map _)⟩

def dayMs : ℕ := 86400000

def archiveBatchLimit : ℕ := 100

/-- Active sessions without a container, idle for longer than `ttlDays`; the longest idle first. -/
def findArchivableSessions (t : SessionTable) (now ttlDays limit : ℕ) : List SessionRow :=
  ((t.rows.filter fun r => r.status = .active && r.containerStatus = .stopped &&
    r.idleSince + ttlDays * dayMs < now).insertionSort fun a b => a.idleSince ≤ b.idleSince).take limit

def findArchivedSessionsOlderThan (t : SessionTable) (now days limit : ℕ) : List SessionRow :=
  ((t.rows.filter fun r => r.status = .archived && r.archivedAt.any fun t => t + days * dayMs < now).insertionSort
    fun a b => a.archivedAt.getD 0 ≤ b.archivedAt.getD 0).take limit

/-! ### The host -/

/-- An archiving on its way: the row as the sweep read it, when that was, and whether the folder is gone, so that only
the row is left to mark. -/
structure Tar where
  session : SessionRow
  startedAt : ℕ
  removed : Bool

/-- The folder of the session is gone. -/
def Tar.removedOf (id : String) (t : Tar) : Tar := if t.session.id = id then { t with removed := true } else t

/-- The sessions; the queue in the folder of each, `none` without a folder; the archivings on their way. -/
structure ArchiveHost where
  now : ℕ
  sessions : SessionTable
  inbound : String → Option (List QueueRow)
  tars : List Tar

/-- The statements that change a queue, but for the message that is written into it. -/
inductive QueueWrite where
  | insertTask (t : NewTask)
  | insertRecurrence (msg : QueueRow) (newId : String) (nextRun : Stamp)
  | cancelTask (taskId : String)
  | pauseTask (taskId : String)
  | resumeTask (taskId : String)
  | updateTask (taskId : String) (u : TaskUpdate)
  | clearRecurrence (messageId : String)
  | markMessageFailed (messageId : String)
  | retryWithBackoff (messageId : String) (backoffSec : ℕ)
  | requeueFailedInbound (messageId : String)
  | syncProcessingAcks (acks : List ProcessingAck)

/-- The queue afterwards; a statement that throws leaves it. -/
def QueueWrite.apply (sessionId : String) (now : ℕ) (rows : List QueueRow) : QueueWrite → List QueueRow
  | .insertTask t => (AgentDesk.insertTask rows sessionId t).getD rows
  | .insertRecurrence msg newId nextRun => (AgentDesk.insertRecurrence rows msg newId nextRun).getD rows
  | .cancelTask taskId => AgentDesk.cancelTask rows taskId
  | .pauseTask taskId => AgentDesk.pauseTask rows taskId
  | .resumeTask taskId => AgentDesk.resumeTask rows taskId
  | .updateTask taskId u => ((AgentDesk.updateTask rows taskId u).map (·.1)).getD rows
  | .clearRecurrence messageId => AgentDesk.clearRecurrence rows messageId
  | .markMessageFailed messageId => AgentDesk.markMessageFailed rows messageId
  | .retryWithBackoff messageId backoffSec => AgentDesk.retryWithBackoff rows messageId backoffSec now
  | .requeueFailedInbound messageId => (AgentDesk.requeueFailedInbound rows messageId).1
  | .syncProcessingAcks acks => AgentDesk.syncProcessingAcks rows acks

inductive ArchiveEvent where
  | clock (ms : ℕ)
  /-- `resolveSession` makes a session and its folder. -/
  | create (session : Session)
  /-- `writeSessionMessage`. -/
  | message (sessionId : String) (m : NewMessage) (processAfter : Option Stamp) (recurrence : Option String)
  | queue (sessionId : String) (w : QueueWrite)
  | containerRunning (sessionId : String)
  | containerIdle (sessionId : String)
  | containerStopped (sessionId : String)
  /-- `runSessionLifecycleSweep` takes its candidates. -/
  | sweep (ttlDays : ℕ)
  /-- The tar of a session ends, well or not. -/
  | tarEnds (sessionId : String) (ok : Bool)
  /-- `archiveSession` goes on after the delete. -/
  | archived (sessionId : String)
  /-- The rest of the sweep. -/
  | hardDelete (days : ℕ)

/-! ### Steps -/

def ArchiveHost.updateSession (s : ArchiveHost) (id : String) (f : SessionRow → SessionRow) : ArchiveHost :=
  { s with sessions := s.sessions.update id f }

/-- `archivesInProgress.delete`. -/
def ArchiveHost.endTar (s : ArchiveHost) (id : String) : ArchiveHost :=
  { s with tars := s.tars.filter fun t => t.session.id ≠ id }

/-- The session is as it was read. -/
def stillQuiescent (s : ArchiveHost) (session : SessionRow) : Bool :=
  match s.sessions.find session.id with
  | none => false
  | some fresh => fresh.status = .active && fresh.containerStatus = .stopped && fresh.lastActive = session.lastActive

/-- The tar that runs for a session. -/
def ArchiveHost.tarOf (s : ArchiveHost) (id : String) : Option Tar :=
  s.tars.find? fun t => t.session.id = id && !t.removed

/-- `archiveSession`, up to its first await: without a folder there is nothing to pack. -/
def ArchiveHost.startTar (s : ArchiveHost) (session : SessionRow) : ArchiveHost :=
  if s.tars.any fun t => t.session.id = session.id then s
  else { s with tars := s.tars ++ [⟨session, s.now, (s.inbound session.id).isNone⟩] }

def archiveStep (s : ArchiveHost) : ArchiveEvent → Option ArchiveHost
  | .clock ms => some { s with now := s.now + ms }
  | .create session =>
    let row : SessionRow :=
      { session with status := .active, createdAt := s.now, containerStatus := .stopped, lastActive := none
                     archivedAt := none }
    -- the id is a fresh one
    if h : s.sessions.find row.id = none ∧ s.inbound row.id = none ∧ s.tars.all fun t => t.session.id ≠ row.id then
      some { s with sessions := s.sessions.insert row h.1, inbound := Function.update s.inbound row.id (some []) }
    else none
  | .message sessionId m processAfter recurrence =>
    -- without a folder the database cannot be opened, and with the id of a row it has the insert throws
    match (s.inbound sessionId).bind fun rows => insertMessage rows sessionId m processAfter recurrence with
    | none => some s
    | some rows => some ({ s with inbound := Function.update s.inbound sessionId (some rows) }.updateSession sessionId
        fun r => { r with lastActive := some s.now })
  | .queue sessionId w =>
    some { s with inbound :=
      Function.update s.inbound sessionId ((s.inbound sessionId).map fun rows => w.apply sessionId s.now rows) }
  | .containerRunning sessionId =>
    some (s.updateSession sessionId fun r => { r with containerStatus := .running, lastActive := some s.now })
  | .containerIdle sessionId =>
    some (s.updateSession sessionId fun r => { r with containerStatus := .idle })
  | .containerStopped sessionId =>
    some (s.updateSession sessionId fun r => { r with containerStatus := .stopped })
  | .sweep ttlDays =>
    if ttlDays = 0 then some s
    else some ((findArchivableSessions s.sessions s.now ttlDays archiveBatchLimit).foldl .startTar s)
  | .tarEnds sessionId ok => (s.tarOf sessionId).map fun tar =>
    if ok && stillQuiescent s tar.session then
      { s with
        inbound := Function.update s.inbound sessionId none
        tars := s.tars.map (Tar.removedOf sessionId) }
    else s.endTar sessionId
  | .archived sessionId =>
    (s.tars.find? fun t => t.session.id = sessionId && t.removed).map fun tar =>
      (s.updateSession sessionId fun r => { r with status := .archived, archivedAt := some tar.startedAt }).endTar
        sessionId
  | .hardDelete days =>
    if days = 0 then some s
    else
      let candidates := findArchivedSessionsOlderThan s.sessions s.now days archiveBatchLimit
      some { s with sessions := s.sessions.delete (candidates.map (·.id)) }

/-! ### What is kept of the tables -/

theorem SessionTable.find_update (t : SessionTable) (id : String) (f : SessionRow → SessionRow) (k : String) :
    (t.update id f).find k = if k = id then (t.find k).map (SessionRow.set f) else t.find k := by
  unfold SessionTable.find SessionTable.update
  rw [Table.find_update (SessionRow.set_id f)]
  split
  · rename_i hk
    rw [hk]
  · rfl

theorem SessionTable.find_insert (t : SessionTable) (new : SessionRow) (h : t.find new.id = none) (k : String) :
    (t.insert new h).find k = if k = new.id then some new else t.find k :=
  Table.find_append_new h k

theorem SessionTable.find_delete {t : SessionTable} {ids : List String} {k : String} {row : SessionRow} :
    (t.delete ids).find k = some row ↔ t.find k = some row ∧ k ∉ ids := by
  constructor
  · intro h
    obtain ⟨hmem, rfl⟩ := Table.find_spec h
    obtain ⟨hrow, hids⟩ := List.mem_filter.mp hmem
    exact ⟨Table.find_of_nodup t.ids hrow, by simpa using hids⟩
  · rintro ⟨h, hids⟩
    obtain ⟨hrow, rfl⟩ := Table.find_spec h
    exact Table.find_of_nodup (t.delete ids).ids (List.mem_filter.mpr ⟨hrow, by simpa using hids⟩)

theorem mem_findArchivableSessions {t : SessionTable} {now ttlDays limit : ℕ} {row : SessionRow}
    (h : row ∈ findArchivableSessions t now ttlDays limit) :
    t.find row.id = some row ∧ row.status = .active ∧ row.idleSince + ttlDays * dayMs < now := by
  have hrow := (List.perm_insertionSort _ _).mem_iff.mp (List.mem_of_mem_take h)
  obtain ⟨hmem, hidle⟩ := List.mem_filter.mp hrow
  simp only [Bool.and_eq_true, decide_eq_true_eq] at hidle
  exact ⟨Table.find_of_nodup t.ids hmem, hidle.1.1, hidle.2⟩

theorem mem_findArchivedSessions {t : SessionTable} {now days limit : ℕ} {row : SessionRow}
    (h : row ∈ findArchivedSessionsOlderThan t now days limit) : t.find row.id = some row ∧ row.status = .archived := by
  have hrow := (List.perm_insertionSort _ _).mem_iff.mp (List.mem_of_mem_take h)
  obtain ⟨hmem, hold⟩ := List.mem_filter.mp hrow
  simp only [Bool.and_eq_true, decide_eq_true_eq] at hold
  exact ⟨Table.find_of_nodup t.ids hmem, hold.1⟩

theorem startTars_spec (candidates : List SessionRow) (s : ArchiveHost) :
    let s' := candidates.foldl ArchiveHost.startTar s
    s'.now = s.now ∧ s'.sessions = s.sessions ∧ s'.inbound = s.inbound ∧ (∀ tar ∈ s'.tars, tar ∈ s.tars ∨
      ∃ c ∈ candidates, tar = ⟨c, s.now, (s.inbound c.id).isNone⟩) ∧ ∀ tar ∈ s.tars, tar ∈ s'.tars := by
  induction candidates generalizing s with
  | nil => exact ⟨rfl, rfl, rfl, fun tar h => .inl h, fun tar h => h⟩
  | cons c candidates ih =>
    obtain ⟨hnow, hsessions, hinbound, htars, hkept⟩ := ih (s.startTar c)
    have hstart : (s.startTar c).now = s.now ∧ (s.startTar c).sessions = s.sessions ∧
        (s.startTar c).inbound = s.inbound ∧ (∀ tar ∈ (s.startTar c).tars, tar ∈ s.tars ∨
          tar = ⟨c, s.now, (s.inbound c.id).isNone⟩) ∧ ∀ tar ∈ s.tars, tar ∈ (s.startTar c).tars := by
      unfold ArchiveHost.startTar
      split
      · exact ⟨rfl, rfl, rfl, fun tar h => .inl h, fun tar h => h⟩
      · refine ⟨rfl, rfl, rfl, fun tar h => ?_, fun tar h => List.mem_append_left _ h⟩
        rcases List.mem_append.mp h with h | h
        · exact .inl h
        · exact .inr (List.mem_singleton.mp h)
    obtain ⟨hnow', hsessions', hinbound', htars', hkept'⟩ := hstart
    refine ⟨hnow.trans hnow', hsessions.trans hsessions', hinbound.trans hinbound', fun tar h => ?_,
      fun tar h => hkept tar (hkept' tar h)⟩
    rcases htars tar h with h | ⟨c', hc', rfl⟩
    · rcases htars' tar h with h | rfl
      · exact .inl h
      · exact .inr ⟨c, .head _, rfl⟩
    · exact .inr ⟨c', .tail _ hc', by rw [hnow', hinbound']⟩

/-! ### What a step can do -/

/-- What the sweep knows of an archiving that is on its way. -/
structure ArchiveInv (s : ArchiveHost) : Prop where
  /-- Where only the row is left to mark, the folder is gone. -/
  gone : ∀ tar ∈ s.tars, tar.removed = true → s.inbound tar.session.id = none
  idle : ∀ tar ∈ s.tars, ∀ t, tar.session.lastActive = some t → t < tar.startedAt
  past : ∀ tar ∈ s.tars, tar.startedAt ≤ s.now
  /-- The session was last active when it was read, or since. -/
  since : ∀ tar ∈ s.tars, ∀ row, s.sessions.find tar.session.id = some row →
    row.lastActive = tar.session.lastActive ∨ ∃ t, row.lastActive = some t ∧ tar.startedAt ≤ t

/-- The session was touched since the sweep chose it: a message came or a container was started, its container is not
stopped, or it is not active any more. -/
def Touched (s : ArchiveHost) (tar : Tar) : Prop :=
  ∀ row, s.sessions.find tar.session.id = some row →
    row.status ≠ .active ∨ row.containerStatus ≠ .stopped ∨ ∃ t, row.lastActive = some t ∧ tar.startedAt ≤ t

theorem stillQuiescent_iff {s : ArchiveHost} (h : ArchiveInv s) {tar : Tar} (htar : tar ∈ s.tars) :
    stillQuiescent s tar.session = false ↔ Touched s tar := by
  unfold stillQuiescent Touched
  cases hrow : s.sessions.find tar.session.id with
  | none => simp
  | some row =>
    have hchanged : row.lastActive ≠ tar.session.lastActive ↔ ∃ t, row.lastActive = some t ∧ tar.startedAt ≤ t := by
      constructor
      · exact fun hne => (h.since tar htar row hrow).resolve_left hne
      · rintro ⟨t, ht, hle⟩ heq
        have hlt := h.idle tar htar t (heq ▸ ht)
        omega
    have hforall : (∀ row', some row = some row' → row'.status ≠ .active ∨ row'.containerStatus ≠ .stopped ∨
        ∃ t, row'.lastActive = some t ∧ tar.startedAt ≤ t) ↔ row.status ≠ .active ∨ row.containerStatus ≠ .stopped ∨
        ∃ t, row.lastActive = some t ∧ tar.startedAt ≤ t :=
      ⟨fun hall => hall row rfl, fun hr row' he => Option.some.inj he ▸ hr⟩
    rw [hforall, ← hchanged]
    simp only [Bool.and_eq_false_iff, decide_eq_false_iff_not, or_assoc, ne_eq]

theorem tarOf_mem {s : ArchiveHost} {id : String} {tar : Tar} (h : s.tarOf id = some tar) :
    tar ∈ s.tars ∧ tar.session.id = id := by
  have hfound := List.find?_some h
  simp only [Bool.and_eq_true, decide_eq_true_eq] at hfound
  exact ⟨List.mem_of_find?_eq_some h, hfound.1⟩

/-- The change of a step, whichever event makes it. -/
inductive ArchiveMove (s : ArchiveHost) (e : ArchiveEvent) : ArchiveHost → Prop where
  | still : ArchiveMove s e s
  | clock (ms : ℕ) : ArchiveMove s e { s with now := s.now + ms }
  | create (row : SessionRow) (hrow : s.sessions.find row.id = none) (hfolder : s.inbound row.id = none)
      (htars : ∀ tar ∈ s.tars, tar.session.id ≠ row.id) : ArchiveMove s e
        { s with sessions := s.sessions.insert row hrow, inbound := Function.update s.inbound row.id (some []) }
  /-- A folder's queue changes. -/
  | queue (id : String) (rows : Option (List QueueRow)) (hfolder : rows.isSome = (s.inbound id).isSome) :
      ArchiveMove s e { s with inbound := Function.update s.inbound id rows }
  /-- The same, and the session is marked active. -/
  | message (id : String) (rows : List QueueRow) (hfolder : (some rows).isSome = (s.inbound id).isSome) :
      ArchiveMove s e ({ s with inbound := Function.update s.inbound id (some rows) }.updateSession id
        fun r => { r with lastActive := some s.now })
  | container (id : String) (f : SessionRow → SessionRow) (hstatus : ∀ r, (f r).status = r.status)
      (hactive : ∀ r, (f r).lastActive = r.lastActive ∨ (f r).lastActive = some s.now) :
      ArchiveMove s e (s.updateSession id f)
  | sweep (ttlDays : ℕ) :
      ArchiveMove s e ((findArchivableSessions s.sessions s.now ttlDays archiveBatchLimit).foldl .startTar s)
  | removed (id : String) (he : e = .tarEnds id true) : ArchiveMove s e
      { s with inbound := Function.update s.inbound id none, tars := s.tars.map (Tar.removedOf id) }
  | ended (id : String) : ArchiveMove s e (s.endTar id)
  | archived (tar : Tar) (htar : tar ∈ s.tars) (hremoved : tar.removed = true) : ArchiveMove s e
      ((s.updateSession tar.session.id fun r =>
        { r with status := .archived, archivedAt := some tar.startedAt }).endTar tar.session.id)
  | deleted (ids : List String)
      (hids : ∀ id ∈ ids, ∀ row, s.sessions.find id = some row → row.status = .archived) :
      ArchiveMove s e { s with sessions := s.sessions.delete ids }

theorem archiveStep_move {s s' : ArchiveHost} {e : ArchiveEvent} (hs : archiveStep s e = some s') :
    ArchiveMove s e s' := by
  cases e with
  | clock ms =>
    obtain rfl := Option.some.inj hs
    exact .clock ms
  | create session =>
    simp only [archiveStep] at hs
    split at hs
    · rename_i hfresh
      obtain rfl := Option.some.inj hs
      exact .create _ hfresh.1 hfresh.2.1 (by simpa using hfresh.2.2)
    · cases hs
  | message sessionId m processAfter recurrence =>
    simp only [archiveStep] at hs
    split at hs
    · obtain rfl := Option.some.inj hs
      exact .still
    · rename_i rows hinsert
      obtain rfl := Option.some.inj hs
      obtain ⟨rows₀, hfolder, -⟩ := Option.bind_eq_some_iff.mp hinsert
      exact .message sessionId rows (by rw [hfolder]; rfl)
  | queue sessionId w =>
    obtain rfl := Option.some.inj hs
    exact .queue sessionId _ Option.isSome_map
  | containerRunning sessionId =>
    obtain rfl := Option.some.inj hs
    exact .container sessionId _ (fun r => rfl) fun r => .inr rfl
  | containerIdle sessionId | containerStopped sessionId =>
    obtain rfl := Option.some.inj hs
    exact .container sessionId _ (fun r => rfl) fun r => .inl rfl
  | sweep ttlDays =>
    simp only [archiveStep] at hs
    split at hs
    · obtain rfl := Option.some.inj hs
      exact .still
    · obtain rfl := Option.some.inj hs
      exact .sweep ttlDays
  | tarEnds sessionId ok =>
    simp only [archiveStep] at hs
    obtain ⟨tar, -, rfl⟩ := Option.map_eq_some_iff.mp hs
    split
    · rename_i hok
      rw [Bool.and_eq_true] at hok
      exact .removed sessionId (by rw [hok.1])
    · exact .ended sessionId
  | archived sessionId =>
    simp only [archiveStep] at hs
    obtain ⟨tar, htar, rfl⟩ := Option.map_eq_some_iff.mp hs
    have hfound := List.find?_some htar
    simp only [Bool.and_eq_true, decide_eq_true_eq] at hfound
    obtain ⟨rfl, hremoved⟩ := hfound
    exact .archived tar (List.mem_of_find?_eq_some htar) hremoved
  | hardDelete days =>
    simp only [archiveStep] at hs
    split at hs
    · obtain rfl := Option.some.inj hs
      exact .still
    · obtain rfl := Option.some.inj hs
      refine .deleted _ fun id hid row hrow => ?_
      obtain ⟨old, hold, rfl⟩ := List.mem_map.mp hid
      obtain ⟨hfind, harchived⟩ := mem_findArchivedSessions hold
      rw [← Option.some.inj (hfind.symm.trans hrow), harchived]

/-! ### The invariant -/

theorem ArchiveInv.updateSession {s : ArchiveHost} (h : ArchiveInv s) (id : String) {f : SessionRow → SessionRow}
    (hactive : ∀ r, (f r).lastActive = r.lastActive ∨ (f r).lastActive = some s.now) :
    ArchiveInv (s.updateSession id f) := by
  refine ⟨h.gone, h.idle, h.past, fun tar htar row hrow => ?_⟩
  rw [ArchiveHost.updateSession, SessionTable.find_update] at hrow
  split at hrow
  · obtain ⟨row₀, hrow₀, rfl⟩ := Option.map_eq_some_iff.mp hrow
    rcases hactive row₀ with hsame | hnow
    · rw [SessionRow.set, hsame]
      exact h.since tar htar row₀ hrow₀
    · exact .inr ⟨s.now, hnow, h.past tar htar⟩
  · exact h.since tar htar row hrow

theorem ArchiveInv.setInbound {s : ArchiveHost} (h : ArchiveInv s) {inbound : String → Option (List QueueRow)}
    (hfolders : ∀ id, (inbound id).isSome = (s.inbound id).isSome) : ArchiveInv { s with inbound } := by
  refine ⟨fun tar htar hremoved => ?_, h.idle, h.past, h.since⟩
  rw [← Option.isNone_iff_eq_none, ← Option.not_isSome, hfolders, h.gone tar htar hremoved]
  rfl

theorem inbound_isSome {inbound : String → Option (List QueueRow)} {id : String} {rows : Option (List QueueRow)}
    (hfolder : rows.isSome = (inbound id).isSome) (k : String) :
    (Function.update inbound id rows k).isSome = (inbound k).isSome := by
  by_cases hk : k = id
  · rw [hk, Function.update_self, hfolder]
  · rw [Function.update_of_ne hk]

theorem ArchiveInv.endTar {s : ArchiveHost} (h : ArchiveInv s) (id : String) : ArchiveInv (s.endTar id) :=
  ⟨fun tar htar => h.gone tar (List.mem_of_mem_filter htar), fun tar htar => h.idle tar (List.mem_of_mem_filter htar),
    fun tar htar => h.past tar (List.mem_of_mem_filter htar), fun tar htar => h.since tar (List.mem_of_mem_filter htar)⟩

theorem Tar.removedOf_spec (id : String) (t : Tar) : (t.removedOf id).session = t.session ∧
    (t.removedOf id).startedAt = t.startedAt ∧
    ((t.removedOf id).removed = true → t.session.id = id ∨ t.removed = true) := by
  unfold Tar.removedOf
  split
  · rename_i hid
    exact ⟨rfl, rfl, fun _ => .inl hid⟩
  · exact ⟨rfl, rfl, .inr⟩

theorem ArchiveInv.remove {s : ArchiveHost} (h : ArchiveInv s) (id : String) :
    ArchiveInv { s with inbound := Function.update s.inbound id none, tars := s.tars.map (Tar.removedOf id) } := by
  refine ⟨fun tar htar hremoved => ?_, fun tar htar t ht => ?_, fun tar htar => ?_, fun tar htar row hrow => ?_⟩
  all_goals
    obtain ⟨t₀, ht₀, rfl⟩ := List.mem_map.mp htar
    obtain ⟨hsession, hstarted, hwhy⟩ := t₀.removedOf_spec id
  · rw [hsession]
    dsimp only
    by_cases hid : t₀.session.id = id
    · rw [hid, Function.update_self]
    · rw [Function.update_of_ne hid]
      exact h.gone t₀ ht₀ ((hwhy hremoved).resolve_left hid)
  · rw [hsession] at ht
    rw [hstarted]
    exact h.idle t₀ ht₀ t ht
  · rw [hstarted]
    exact h.past t₀ ht₀
  · rw [hsession] at hrow ⊢
    rw [hstarted]
    exact h.since t₀ ht₀ row hrow

theorem archiveInv_sweep {s : ArchiveHost} (h : ArchiveInv s) (ttlDays limit : ℕ) :
    ArchiveInv ((findArchivableSessions s.sessions s.now ttlDays limit).foldl .startTar s) := by
  obtain ⟨hnow, hsessions, hinbound, htars, -⟩ :=
    startTars_spec (findArchivableSessions s.sessions s.now ttlDays limit) s
  have hcandidate : ∀ c ∈ findArchivableSessions s.sessions s.now ttlDays limit,
      s.sessions.find c.id = some c ∧ ∀ t, c.lastActive = some t → t < s.now := by
    intro c hc
    obtain ⟨hrow, -, hold⟩ := mem_findArchivableSessions hc
    refine ⟨hrow, fun t ht => ?_⟩
    rw [SessionRow.idleSince, ht, Option.getD_some] at hold
    omega
  refine ⟨fun tar htar hremoved => ?_, fun tar htar t ht => ?_, fun tar htar => ?_, fun tar htar row hrow => ?_⟩
  · rw [hinbound]
    rcases htars tar htar with hold | ⟨c, -, rfl⟩
    · exact h.gone tar hold hremoved
    · exact Option.isNone_iff_eq_none.mp hremoved
  · rcases htars tar htar with hold | ⟨c, hc, rfl⟩
    · exact h.idle tar hold t ht
    · exact (hcandidate c hc).2 t ht
  · rw [hnow]
    rcases htars tar htar with hold | ⟨c, -, rfl⟩
    · exact h.past tar hold
    · exact Nat.le_refl _
  · rw [hsessions] at hrow
    rcases htars tar htar with hold | ⟨c, hc, rfl⟩
    · exact h.since tar hold row hrow
    · rw [(hcandidate c hc).1] at hrow
      exact .inl (by rw [Option.some.inj hrow])

theorem archiveInv_step (s : ArchiveHost) (e : ArchiveEvent) (s' : ArchiveHost) (h : ArchiveInv s)
    (hs : archiveStep s e = some s') : ArchiveInv s' := by
  cases archiveStep_move hs with
  | still => exact h
  | clock ms => exact ⟨h.gone, h.idle, fun tar htar => Nat.le_add_right_of_le (h.past tar htar), h.since⟩
  | create row hrow hfolder htars =>
    refine ⟨fun tar htar hremoved => ?_, h.idle, h.past, fun tar htar row' hrow' => ?_⟩
    · dsimp only
      rw [Function.update_of_ne (htars tar htar)]
      exact h.gone tar htar hremoved
    · dsimp only at hrow'
      rw [SessionTable.find_insert, if_neg (htars tar htar)] at hrow'
      exact h.since tar htar row' hrow'
  | queue id rows hfolder => exact h.setInbound (inbound_isSome hfolder)
  | message id rows hfolder =>
    have hqueue : ArchiveInv { s with inbound := Function.update s.inbound id (some rows) } :=
      h.setInbound (inbound_isSome hfolder)
    exact hqueue.updateSession id fun r => .inr rfl
  | container id f hstatus hactive => exact h.updateSession id hactive
  | sweep ttlDays => exact archiveInv_sweep h ttlDays archiveBatchLimit
  | removed id he => exact h.remove id
  | ended id => exact h.endTar id
  | archived tar htar hremoved =>
    refine ArchiveInv.endTar ?_ tar.session.id
    exact h.updateSession tar.session.id fun r => .inl rfl
  | deleted ids hids =>
    exact ⟨h.gone, h.idle, h.past, fun tar htar row hrow => h.since tar htar row (SessionTable.find_delete.mp hrow).1⟩

/-! ### Work and its session -/

def SessionTable.Active (t : SessionTable) (id : String) : Prop := ∃ row, t.find id = some row ∧ row.status = .active

/-- A session whose queue has a pending or paused row keeps its folder, and stays active if it was. -/
def KeepsWork (s : ArchiveHost) (e : ArchiveEvent) : Prop :=
  ∀ id rows s', s.inbound id = some rows → (∃ r ∈ rows, r.live = true) → archiveStep s e = some s' →
    (s'.inbound id).isSome = true ∧ (s.sessions.Active id → s'.sessions.Active id)

/-- A session with a pending or paused row was touched while its tar ran. -/
def WorkTouched (s : ArchiveHost) : ArchiveEvent → Prop
  | .tarEnds id true => ∀ tar rows, s.tarOf id = some tar → s.inbound id = some rows → (∃ r ∈ rows, r.live = true) →
      Touched s tar
  | _ => True

theorem SessionTable.Active.update {t : SessionTable} {k : String} (h : t.Active k) (id : String)
    {f : SessionRow → SessionRow} (hstatus : ∀ r, k = id → (f r).status = r.status) : (t.update id f).Active k := by
  obtain ⟨row, hrow, hactive⟩ := h
  by_cases hk : k = id
  · refine ⟨SessionRow.set f row, by rw [SessionTable.find_update, if_pos hk, hrow, Option.map_some], ?_⟩
    rw [SessionRow.set, hstatus row hk, hactive]
  · exact ⟨row, by rw [SessionTable.find_update, if_neg hk, hrow], hactive⟩

theorem keeps_other {s s' : ArchiveHost} {e : ArchiveEvent} (h : ArchiveInv s) (hs : archiveStep s e = some s')
    (he : ∀ id, e ≠ .tarEnds id true) (id : String) (hfolder : (s.inbound id).isSome = true) :
    (s'.inbound id).isSome = true ∧ (s.sessions.Active id → s'.sessions.Active id) := by
  cases archiveStep_move hs with
  | still => exact ⟨hfolder, fun ha => ha⟩
  | clock ms => exact ⟨hfolder, fun ha => ha⟩
  | create row hrow hnew htars =>
    have hne : id ≠ row.id := by
      rintro rfl
      rw [hnew] at hfolder
      cases hfolder
    dsimp only
    rw [Function.update_of_ne hne]
    refine ⟨hfolder, fun ⟨row', hrow', hactive⟩ => ⟨row', ?_, hactive⟩⟩
    rw [SessionTable.find_insert, if_neg hne, hrow']
  | queue id' rows hsame => exact ⟨(inbound_isSome hsame id).trans hfolder, fun ha => ha⟩
  | message id' rows hsame =>
    exact ⟨(inbound_isSome hsame id).trans hfolder, fun ha => ha.update id' fun r _ => rfl⟩
  | container id' f hstatus hactive => exact ⟨hfolder, fun ha => ha.update id' fun r _ => hstatus r⟩
  | sweep ttlDays =>
    obtain ⟨-, hsessions, hinbound, -⟩ :=
      startTars_spec (findArchivableSessions s.sessions s.now ttlDays archiveBatchLimit) s
    rw [hinbound, hsessions]
    exact ⟨hfolder, fun ha => ha⟩
  | removed id' heq => exact (he id' heq).elim
  | ended id' => exact ⟨hfolder, fun ha => ha⟩
  | archived tar htar hremoved =>
    -- the session that is marked has lost its folder
    have hne : id ≠ tar.session.id := by
      rintro rfl
      rw [h.gone tar htar hremoved] at hfolder
      cases hfolder
    refine ⟨hfolder, fun ha => ?_⟩
    exact ha.update tar.session.id fun r hid => absurd hid hne
  | deleted ids hids =>
    refine ⟨hfolder, fun ⟨row, hrow, hactive⟩ => ⟨row, SessionTable.find_delete.mpr ⟨hrow, fun hid => ?_⟩, hactive⟩⟩
    cases hactive.symm.trans (hids id hid row hrow)

theorem keepsWork_iff {s s' : ArchiveHost} {e : ArchiveEvent} (h : ArchiveInv s) (hs : archiveStep s e = some s') :
    KeepsWork s e ↔ WorkTouched s e := by
  by_cases he : ∃ sessionId, e = .tarEnds sessionId true
  · obtain ⟨sessionId, rfl⟩ := he
    have hstep : ∀ tar, s.tarOf sessionId = some tar → archiveStep s (.tarEnds sessionId true) =
        some (if stillQuiescent s tar.session = true then
          { s with
            inbound := Function.update s.inbound sessionId none
            tars := s.tars.map (Tar.removedOf sessionId) }
        else s.endTar sessionId) := by
      intro tar htar
      simp only [archiveStep, htar, Option.map_some, Bool.true_and]
    constructor
    · intro hkeeps tar rows htar hrows hlive
      obtain ⟨hmem, hid⟩ := tarOf_mem htar
      rw [← stillQuiescent_iff h hmem]
      by_contra hquiet
      have hfolder := (hkeeps sessionId rows _ hrows hlive (hstep tar htar)).1
      rw [if_pos (by simpa using hquiet)] at hfolder
      simp at hfolder
    · intro htouched id rows s₁ hrows hlive hs₁
      simp only [archiveStep] at hs₁
      obtain ⟨tar, htar, rfl⟩ := Option.map_eq_some_iff.mp hs₁
      split
      · rename_i hquiet
        have hne : id ≠ sessionId := by
          rintro rfl
          have hquiet' := (stillQuiescent_iff h (tarOf_mem htar).1).mpr (htouched tar rows htar hrows hlive)
          rw [Bool.true_and, hquiet'] at hquiet
          cases hquiet
        dsimp only
        rw [Function.update_of_ne hne, hrows]
        exact ⟨rfl, fun ha => ha⟩
      · exact ⟨by rw [ArchiveHost.endTar, hrows]; rfl, fun ha => ha⟩
  · have hother : ∀ id, e ≠ .tarEnds id true := fun id heq => he ⟨id, heq⟩
    have htouched : WorkTouched s e := by
      unfold WorkTouched
      split
      · rename_i id
        exact (hother id rfl).elim
      · trivial
    refine iff_of_true ?_ htouched
    intro id rows s₁ hrows hlive hs₁
    exact keeps_other h hs₁ hother id (by rw [hrows]; rfl)

theorem archiveInv_idle {s : ArchiveHost} (h : s.tars = []) : ArchiveInv s :=
  ⟨by simp [h], by simp [h], by simp [h], by simp [h]⟩

/-- **Archiving keeps what waits for a session exactly while the session is touched.** In any run of the host, from any
sessions and any queues with no archiving on its way, whatever is routed, scheduled, retried, run and swept in any
order: no folder with a pending or paused row is deleted and no such session is archived, if and only if each session
that has one as its tar ends was touched since the sweep chose it. -/
theorem archive_keeps_work_iff {s₀ s : ArchiveHost} {es : List ArchiveEvent} (hidle : s₀.tars = [])
    (h : Trans.run archiveStep s₀ es = some s) :
    Trans.Along archiveStep KeepsWork s₀ es ↔ Trans.Along archiveStep WorkTouched s₀ es :=
  Trans.along_iff_along (J := ArchiveInv) (fun _ _ _ hinv hs _ => archiveInv_step _ _ _ hinv hs)
    (fun _ _ _ hinv hs => keepsWork_iff hinv hs) (archiveInv_idle hidle) h

/-! ### A task for later -/

def idleHost : ArchiveHost := { now := 0, sessions := ⟨[], by simp⟩, inbound := fun _ => none, tars := [] }

def remindedSession : Session :=
  { id := "s", agentGroupId := "ag", messagingGroupId := none, threadId := none, ownerUserId := none
    rootSessionId := none, conversationThreadId := none, status := .active, spawnDepth := 0, createdAt := 0 }

def remindMessage : NewMessage := ⟨"m", .chat, none, none, none, none, true, none, none, none⟩

/-- Thirty days from the start. -/
def remindTask : NewTask := ⟨"t", .ofSeconds 2592000, none, none, none, none, none⟩

/-- A user asks for a reminder; the container schedules it and stops. -/
def reminded : List ArchiveEvent :=
  [.create remindedSession, .message "s" remindMessage none none, .containerRunning "s",
    .queue "s" (.insertTask remindTask), .queue "s" (.syncProcessingAcks [⟨"m", .completed, none⟩]),
    .containerStopped "s"]

/-- Eight days later, with a week as the limit; and the user writes while the tar runs. -/
def remindedAgain : List ArchiveEvent :=
  reminded ++ [.clock (8 * dayMs), .sweep 7, .message "s" { remindMessage with id := "m2" } none none]

theorem archive_keeps_work_iff_sample : ∃ s,
    Trans.run archiveStep idleHost (remindedAgain ++ [.tarEnds "s" true]) = some s ∧
      Trans.Along archiveStep KeepsWork idleHost (remindedAgain ++ [.tarEnds "s" true]) := by
  have hother : ∀ e ∈ remindedAgain, ∀ s, WorkTouched s e := by
    intro e he s
    simp only [remindedAgain, reminded, List.cons_append, List.nil_append, List.mem_cons, List.not_mem_nil,
      or_false] at he
    rcases he with rfl | rfl | rfl | rfl | rfl | rfl | rfl | rfl | rfl <;> trivial
  refine ⟨_, rfl, (@archive_keeps_work_iff idleHost _ (remindedAgain ++ [.tarEnds "s" true]) rfl rfl).mpr
    (Trans.along_append.mpr ⟨Trans.along_of_forall hother, fun s₁ h₁ => ⟨?_, fun s₂ _ => trivial⟩⟩)⟩
  obtain rfl := Option.some.inj h₁
  intro tar rows htar hrows hlive row hrow
  obtain rfl := Option.some.inj htar
  obtain rfl := Option.some.inj hrow
  exact .inr (.inr ⟨8 * dayMs, rfl, Nat.le_refl _⟩)

/-- Eight days later, with a week as the limit, the folder is deleted and the task with it. -/
theorem scheduled_task_buried : ∃ s₁ s,
    Trans.run archiveStep idleHost (reminded ++ [.clock (8 * dayMs), .sweep 7]) = some s₁ ∧
      archiveStep s₁ (.tarEnds "s" true) = some s ∧ ¬KeepsWork s₁ (.tarEnds "s" true) := by
  refine ⟨_, _, rfl, rfl, fun hkeeps => ?_⟩
  obtain ⟨hfolder, -⟩ := hkeeps "s" _ _ rfl ⟨{ remindTask.queued "s" with seq := 4 }, .tail _ (.head _), rfl⟩ rfl
  cases hfolder

/-! ### A message while the tar runs -/

/-- The session was active at the start of the archiving or later. -/
def ActiveSince (s : ArchiveHost) (tar : Tar) : Prop :=
  ∀ row, s.sessions.find tar.session.id = some row → ∃ t, row.lastActive = some t ∧ tar.startedAt ≤ t

theorem ActiveSince.touched {s : ArchiveHost} {tar : Tar} (h : ActiveSince s tar) : Touched s tar :=
  fun row hrow => .inr (.inr (h row hrow))

theorem ActiveSince.updateSession {s : ArchiveHost} {tar : Tar} (h : ActiveSince s tar) (hpast : tar.startedAt ≤ s.now)
    (id : String) {f : SessionRow → SessionRow}
    (hactive : ∀ r, (f r).lastActive = r.lastActive ∨ (f r).lastActive = some s.now) :
    ActiveSince (s.updateSession id f) tar := by
  intro row hrow
  rw [ArchiveHost.updateSession, SessionTable.find_update] at hrow
  split at hrow
  · obtain ⟨row₀, hrow₀, rfl⟩ := Option.map_eq_some_iff.mp hrow
    rcases hactive row₀ with hsame | hnow
    · rw [SessionRow.set, hsame]
      exact h row₀ hrow₀
    · exact ⟨s.now, hnow, hpast⟩
  · exact h row hrow

theorem activeSince_step {s s' : ArchiveHost} {e : ArchiveEvent} {tar : Tar} (hinv : ArchiveInv s)
    (htar : tar ∈ s.tars) (h : ActiveSince s tar) (hs : archiveStep s e = some s') : ActiveSince s' tar := by
  have hpast := hinv.past tar htar
  cases archiveStep_move hs with
  | still => exact h
  | clock ms => exact h
  | create row hrow hfolder htars =>
    intro row' hrow'
    dsimp only at hrow'
    rw [SessionTable.find_insert, if_neg (htars tar htar)] at hrow'
    exact h row' hrow'
  | queue id rows hfolder => exact h
  | message id rows hfolder =>
    have hqueue : ActiveSince { s with inbound := Function.update s.inbound id (some rows) } tar := h
    exact hqueue.updateSession hpast id fun r => .inr rfl
  | container id f hstatus hactive => exact h.updateSession hpast id hactive
  | sweep ttlDays =>
    obtain ⟨-, hsessions, -⟩ :=
      startTars_spec (findArchivableSessions s.sessions s.now ttlDays archiveBatchLimit) s
    intro row hrow
    rw [hsessions] at hrow
    exact h row hrow
  | removed id he => exact h
  | ended id => exact h
  | archived ended htars hremoved =>
    have hmarked := h.updateSession hpast ended.session.id
      (f := fun r => { r with status := .archived, archivedAt := some ended.startedAt }) fun r => .inl rfl
    exact hmarked
  | deleted ids hids => exact fun row hrow => h row (SessionTable.find_delete.mp hrow).1

/-- **A message that comes while the tar runs is not buried.** In any run of the host: a message is written for a
session whose tar runs, and anything happens until this tar ends, well or not. Then the folder with its queue is left as
it is, and so is the session. -/
theorem message_not_buried {s₀ s₁ s₂ s₃ s₄ : ArchiveHost} {sessionId : String} {tar : Tar} {m : NewMessage}
    {processAfter : Option Stamp} {recurrence : Option String} {rows : List QueueRow} {before es : List ArchiveEvent}
    {ok : Bool} (hidle : s₀.tars = []) (h₁ : Trans.run archiveStep s₀ before = some s₁)
    (htar : s₁.tarOf sessionId = some tar)
    (hinsert : ((s₁.inbound sessionId).bind fun rows => insertMessage rows sessionId m processAfter recurrence) =
      some rows)
    (h₂ : archiveStep s₁ (.message sessionId m processAfter recurrence) = some s₂)
    (hruns : Trans.Along archiveStep (fun s _ => s.tarOf sessionId = some tar) s₂ (es ++ [.tarEnds sessionId ok]))
    (h₃ : Trans.run archiveStep s₂ es = some s₃) (h₄ : archiveStep s₃ (.tarEnds sessionId ok) = some s₄) :
    s₄.inbound = s₃.inbound ∧ s₄.sessions = s₃.sessions := by
  have hinv : ArchiveInv s₁ := Trans.run_inv archiveInv_step (archiveInv_idle hidle) h₁
  obtain ⟨hmem, rfl⟩ := tarOf_mem htar
  have hactive : ActiveSince s₂ tar := by
    simp only [archiveStep, hinsert] at h₂
    obtain rfl := Option.some.inj h₂
    intro row hrow
    rw [ArchiveHost.updateSession, SessionTable.find_update, if_pos rfl] at hrow
    obtain ⟨row₀, -, rfl⟩ := Option.map_eq_some_iff.mp hrow
    exact ⟨s₁.now, rfl, hinv.past tar hmem⟩
  obtain ⟨hbefore, hend⟩ := Trans.along_append.mp hruns
  have halways : Trans.Always archiveStep (fun s => ArchiveInv s ∧ ActiveSince s tar) s₂ es :=
    Trans.always_of_along (fun _ hJ => hJ)
      (fun _ _ _ hJ hs hruns =>
        ⟨archiveInv_step _ _ _ hJ.1 hs, activeSince_step hJ.1 (tarOf_mem hruns).1 hJ.2 hs⟩)
      ⟨archiveInv_step _ _ _ hinv h₂, hactive⟩ hbefore
  obtain ⟨hinv₃, hactive₃⟩ := halways es [] s₃ (List.append_nil es).symm h₃
  have htar₃ : s₃.tarOf tar.session.id = some tar := (hend s₃ h₃).1
  have hquiet : stillQuiescent s₃ tar.session = false :=
    (stillQuiescent_iff hinv₃ (tarOf_mem htar₃).1).mpr hactive₃.touched
  simp only [archiveStep, htar₃, Option.map_some, hquiet, Bool.and_false, Bool.false_eq_true, if_false] at h₄
  obtain rfl := Option.some.inj h₄
  exact ⟨rfl, rfl⟩

/-- The reminder that is asked for again, while the tar runs. -/
theorem message_not_buried_sample : ∃ s₁ s₂ s₄ : ArchiveHost,
    Trans.run archiveStep idleHost (reminded ++ [.clock (8 * dayMs), .sweep 7]) = some s₁ ∧
    archiveStep s₁ (.message "s" { remindMessage with id := "m2" } none none) = some s₂ ∧
    archiveStep s₂ (.tarEnds "s" true) = some s₄ ∧ s₄.inbound = s₂.inbound ∧ s₄.sessions = s₂.sessions := by
  refine ⟨_, _, _, rfl, rfl, rfl, ?_⟩
  exact @message_not_buried idleHost _ _ _ _ "s" _ { remindMessage with id := "m2" } none none _
    (reminded ++ [.clock (8 * dayMs), .sweep 7]) [] true rfl rfl rfl rfl rfl ⟨rfl, fun _ _ => trivial⟩ rfl rfl

end AgentDesk
