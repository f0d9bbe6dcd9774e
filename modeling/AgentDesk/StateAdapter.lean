/-
# Locks and queues in SQLite

`SqliteStateAdapter` of `src/state-sqlite.ts`: the locks and queues of the Chat SDK in two tables. A lock is a row
with a token and the time at which it expires; whoever has the token may extend or release it, and an expired one
is deleted when it is in the way. A queue is a list of rows with an index, the new one after the last, and the ones
that are too many are deleted by their index.

What it should be is a `Service`: a lease or none for each thread, and a list of entries for each thread. The
adapter answers as the service does (`serve_refines`), and only the last lock that was given for a thread can be in
the table (`SystemInv`), so a holder that has been succeeded can do nothing.

The statements of an operation run without a pause, but for `enqueue`, which counts the entries later: the count is
an operation of its own. Tokens are `crypto.randomUUID`, which gives none twice. A value is what JSON stores of it.

Key theorems: `serve_refines`, `systemInv_step`, `adapter_implements`.
-/
import AgentDesk.JsonText
import AgentDesk.Table
import AgentDesk.Trans
import Mathlib.Data.List.Sort
import Mathlib.Data.List.Range

namespace AgentDesk.StateAdapter

open JsonText

/-! ### The tables -/

/-- A lock, as a holder has it and as a row of `chat_sdk_locks`. -/
structure Lock where
  threadId : Text
  token : Text
  expiresAt : ℤ
  deriving DecidableEq

/-- A row of `chat_sdk_lists`. -/
structure ListRow (α : Type) where
  key : Text
  idx : ℕ
  value : α
  expiresAt : Option ℤ

structure Db (α : Type) where
  locks : List Lock
  lists : List (ListRow α)

variable {α : Type}

namespace Db

/-! ### Locks -/

/-- `INSERT OR IGNORE`: the lock, if the thread has none. -/
def insertLock (db : Db α) (lock : Lock) : Db α × Bool :=
  if (Table.find Lock.threadId db.locks lock.threadId).isSome then (db, false)
  else ({ db with locks := db.locks ++ [lock] }, true)

/-- `token` is the random one. -/
def acquireLock (db : Db α) (now : ℤ) (token threadId : Text) (ttlMs : ℤ) : Db α × Option Lock :=
  let lock : Lock := ⟨threadId, token, now + ttlMs⟩
  let db := { db with locks := db.locks.filter fun l => !(l.threadId = threadId && l.expiresAt < now) }
  match db.insertLock lock with
  | (db, false) => (db, none)
  | (db, true) => (db, some lock)

def releaseLock (db : Db α) (lock : Lock) : Db α :=
  { db with locks := db.locks.filter fun l => !(l.threadId = lock.threadId && l.token = lock.token) }

/-- The lock that the holder has then, and whether it was extended. -/
def extendLock (db : Db α) (now : ℤ) (lock : Lock) (ttlMs : ℤ) : Db α × Lock × Bool :=
  let newExpiry := now + ttlMs
  let own := fun l : Lock => decide (l.threadId = lock.threadId) && decide (l.token = lock.token)
  let extended := { db with locks := Table.updateWhere own (fun l => { l with expiresAt := newExpiry }) db.locks }
  if db.locks.any own then (extended, { lock with expiresAt := newExpiry }, true) else (extended, lock, false)

def forceReleaseLock (db : Db α) (threadId : Text) : Db α :=
  { db with locks := Table.delete Lock.threadId db.locks threadId }

/-! ### Lists -/

/-- `SELECT … WHERE key = ? ORDER BY idx ASC`. -/
def rowsOf (db : Db α) (key : Text) : List (ListRow α) :=
  (db.lists.filter fun r => r.key = key).mergeSort fun r r' => r.idx ≤ r'.idx

/-- `SELECT MAX(idx)`. -/
def maxIdx (db : Db α) (key : Text) : Option ℕ := ((db.lists.filter fun r => r.key = key).map (·.idx)).max?

def appendToList (db : Db α) (now : ℤ) (key : Text) (value : α) (maxLength : Option ℕ) (ttlMs : Option ℤ) : Db α :=
  let expiresAt := (ttlMs.filter (· ≠ 0)).map (now + ·)
  let nextIdx := (db.maxIdx key).elim 0 (· + 1)
  let inserted := db.lists ++ [⟨key, nextIdx, value, expiresAt⟩]
  match maxLength.filter (· ≠ 0) with
  | none => { db with lists := inserted }
  | some maxLength =>
    if maxLength ≤ nextIdx then
      { db with lists := inserted.filter fun r => !(r.key = key && r.idx ≤ nextIdx - maxLength) }
    else { db with lists := inserted }

def queueKey (threadId : Text) : Text := ofString "queue:" ++ threadId

/-- `enqueue`, up to the count. -/
def enqueue (db : Db α) (now : ℤ) (threadId : Text) (entry : α) (maxSize : ℕ) : Db α :=
  db.appendToList now (queueKey threadId) entry (some maxSize) none

def dequeue (db : Db α) (threadId : Text) : Db α × Option α :=
  match db.rowsOf (queueKey threadId) with
  | [] => (db, none)
  | row :: _ =>
    ({ db with lists := db.lists.filter fun r => !(r.key = queueKey threadId && r.idx = row.idx) }, some row.value)

def queueDepth (db : Db α) (threadId : Text) : ℕ := (db.lists.filter fun r => r.key = queueKey threadId).length

def cleanup (db : Db α) (now : ℤ) : Db α :=
  { locks := db.locks.filter fun l => !(l.expiresAt < now)
    lists := db.lists.filter fun r => !(r.expiresAt.any fun expiresAt => expiresAt < now) }

end Db

/-- The locks that are left when an expired one of the thread is deleted. -/
def unexpired (locks : List Lock) (now : ℤ) (threadId : Text) : List Lock :=
  locks.filter fun l => !(l.threadId = threadId && l.expiresAt < now)

theorem acquireLock_cases (db : Db α) (now : ℤ) (token threadId : Text) (ttlMs : ℤ) :
    ((Table.find Lock.threadId (unexpired db.locks now threadId) threadId).isSome = true ∧
      db.acquireLock now token threadId ttlMs = ({ db with locks := unexpired db.locks now threadId }, none)) ∨
    (Table.find Lock.threadId (unexpired db.locks now threadId) threadId = none ∧
      db.acquireLock now token threadId ttlMs =
        ({ db with locks := unexpired db.locks now threadId ++ [⟨threadId, token, now + ttlMs⟩] },
          some ⟨threadId, token, now + ttlMs⟩)) := by
  unfold Db.acquireLock Db.insertLock
  dsimp only
  cases hfind : Table.find Lock.threadId (unexpired db.locks now threadId) threadId with
  | some l =>
    refine .inl ⟨rfl, ?_⟩
    rw [unexpired] at hfind
    rw [hfind]
    rfl
  | none =>
    refine .inr ⟨rfl, ?_⟩
    rw [unexpired] at hfind
    rw [hfind]
    rfl

/-! ### Operations -/

inductive Op (α : Type) where
  | acquireLock (token threadId : Text) (ttlMs : ℤ)
  | releaseLock (lock : Lock)
  | extendLock (lock : Lock) (ttlMs : ℤ)
  | forceReleaseLock (threadId : Text)
  | cleanup
  | enqueue (threadId : Text) (entry : α) (maxSize : ℕ) (positive : 0 < maxSize)
  | dequeue (threadId : Text)
  | queueDepth (threadId : Text)

inductive Answer (α : Type) where
  | done
  | lock (lock : Option Lock)
  | extended (lock : Lock) (done : Bool)
  | entry (entry : Option α)
  | depth (n : ℕ)

/-- An operation at a time. -/
def Db.serve (db : Db α) (now : ℤ) : Op α → Db α × Answer α
  | .acquireLock token threadId ttlMs => ((db.acquireLock now token threadId ttlMs).1,
      .lock (db.acquireLock now token threadId ttlMs).2)
  | .releaseLock lock => (db.releaseLock lock, .done)
  | .extendLock lock ttlMs => ((db.extendLock now lock ttlMs).1,
      .extended (db.extendLock now lock ttlMs).2.1 (db.extendLock now lock ttlMs).2.2)
  | .forceReleaseLock threadId => (db.forceReleaseLock threadId, .done)
  | .cleanup => (db.cleanup now, .done)
  | .enqueue threadId entry maxSize _ => (db.enqueue now threadId entry maxSize, .done)
  | .dequeue threadId => ((db.dequeue threadId).1, .entry (db.dequeue threadId).2)
  | .queueDepth threadId => (db, .depth (db.queueDepth threadId))

/-! ### What it should do -/

/-- For each thread a lease, with its token and its end, and a queue. -/
structure Service (α : Type) where
  lease : Text → Option (Text × ℤ)
  queue : Text → List α

/-- The lease of the lock, where the lock has its token. -/
def Service.owned (s : Service α) (lock : Lock) : Option (Text × ℤ) :=
  (s.lease lock.threadId).filter fun lease => lease.1 = lock.token

/-- A lease is given unless there is one that has not ended. A queue drops its oldest entries when it is full. -/
def Service.serve (s : Service α) (now : ℤ) : Op α → Service α × Answer α
  | .acquireLock token threadId ttlMs =>
    if (s.lease threadId).any fun lease => now ≤ lease.2 then (s, .lock none)
    else ({ s with lease := Function.update s.lease threadId (some (token, now + ttlMs)) },
      .lock (some ⟨threadId, token, now + ttlMs⟩))
  | .releaseLock lock =>
    (if (s.owned lock).isSome then { s with lease := Function.update s.lease lock.threadId none } else s, .done)
  | .extendLock lock ttlMs =>
    if (s.owned lock).isSome then
      ({ s with lease := Function.update s.lease lock.threadId (some (lock.token, now + ttlMs)) },
        .extended { lock with expiresAt := now + ttlMs } true)
    else (s, .extended lock false)
  | .forceReleaseLock threadId => ({ s with lease := Function.update s.lease threadId none }, .done)
  | .cleanup => ({ s with lease := fun threadId => (s.lease threadId).filter fun lease => now ≤ lease.2 }, .done)
  | .enqueue threadId entry maxSize _ =>
    let queue := s.queue threadId ++ [entry]
    ({ s with queue := Function.update s.queue threadId (queue.drop (queue.length - maxSize)) }, .done)
  | .dequeue threadId => ({ s with queue := Function.update s.queue threadId (s.queue threadId).tail },
      .entry (s.queue threadId).head?)
  | .queueDepth threadId => (s, .depth (s.queue threadId).length)

/-- The service that the tables stand for. -/
def Db.service (db : Db α) : Service α where
  lease threadId := (Table.find Lock.threadId db.locks threadId).map fun l => (l.token, l.expiresAt)
  queue threadId := (db.rowsOf (Db.queueKey threadId)).map (·.value)

/-! ### Locks are leases -/

/-- A thread has one lock. -/
def OneLock (locks : List Lock) : Prop := (locks.map Lock.threadId).Nodup

/-- The leases of the locks. -/
def leases (locks : List Lock) (threadId : Text) : Option (Text × ℤ) :=
  (Table.find Lock.threadId locks threadId).map fun l => (l.token, l.expiresAt)

theorem OneLock.filter {locks : List Lock} (h : OneLock locks) (p : Lock → Bool) : OneLock (locks.filter p) :=
  List.Nodup.sublist (List.filter_sublist.map Lock.threadId) h

theorem leases_extend (locks : List Lock) (lock : Lock) (newExpiry : ℤ) :
    leases (Table.updateWhere (fun l => l.threadId = lock.threadId && l.token = lock.token)
        (fun l => { l with expiresAt := newExpiry }) locks) =
      if ((leases locks lock.threadId).filter fun lease => lease.1 = lock.token).isSome then
        Function.update (leases locks) lock.threadId (some (lock.token, newExpiry))
      else leases locks := by
  funext threadId
  have hfind : leases (Table.updateWhere (fun l => l.threadId = lock.threadId && l.token = lock.token)
      (fun l => { l with expiresAt := newExpiry }) locks) threadId =
      (leases locks threadId).map fun lease =>
        if threadId = lock.threadId ∧ lease.1 = lock.token then (lease.1, newExpiry) else lease := by
    unfold leases Table.updateWhere
    rw [Table.find_map fun l => by split <;> rfl]
    cases hl : Table.find Lock.threadId locks threadId with
    | none => rfl
    | some l =>
      obtain ⟨-, rfl⟩ := Table.find_spec hl
      by_cases hown : l.threadId = lock.threadId ∧ l.token = lock.token
      · simp [hown]
      · simp only [Option.map_some, Bool.and_eq_true, decide_eq_true_eq, if_neg hown]
  rw [hfind]
  by_cases ht : threadId = lock.threadId
  · subst ht
    cases hlease : leases locks lock.threadId with
    | none => simp [hlease]
    | some lease =>
      by_cases htoken : lease.1 = lock.token
      · simp [htoken]
      · simp [htoken, hlease]
  · have hsame : (leases locks threadId).map (fun lease =>
        if threadId = lock.threadId ∧ lease.1 = lock.token then (lease.1, newExpiry) else lease) =
        leases locks threadId := by simp [ht]
    rw [hsame]
    split
    · rw [Function.update_of_ne ht]
    · rfl

section locks

variable {locks : List Lock} (h : OneLock locks)

include h

theorem leases_filter (p : Text → Text × ℤ → Bool) (threadId : Text) :
    leases (locks.filter fun l => p l.threadId (l.token, l.expiresAt)) threadId =
      (leases locks threadId).filter (p threadId) := by
  unfold leases
  rw [Table.find_filter h]
  cases hfind : Table.find Lock.threadId locks threadId with
  | none => rfl
  | some l =>
    obtain ⟨-, rfl⟩ := Table.find_spec hfind
    by_cases hp : p l.threadId (l.token, l.expiresAt) = true
    · simp [Option.filter, hp]
    · simp [Option.filter, hp]

theorem leases_release (lock : Lock) :
    leases (locks.filter fun l => !(l.threadId = lock.threadId && l.token = lock.token)) =
      if ((leases locks lock.threadId).filter fun lease => lease.1 = lock.token).isSome then
        Function.update (leases locks) lock.threadId none
      else leases locks := by
  funext threadId
  rw [leases_filter h fun t lease => !(t = lock.threadId && lease.1 = lock.token)]
  by_cases ht : threadId = lock.threadId
  · subst ht
    cases hlease : leases locks lock.threadId with
    | none => simp [hlease]
    | some lease =>
      by_cases htoken : lease.1 = lock.token
      · simp [htoken]
      · simp [htoken, hlease]
  · have hsame : (leases locks threadId).filter (fun lease => !(decide (threadId = lock.threadId) &&
        decide (lease.1 = lock.token))) = leases locks threadId := by
      cases leases locks threadId with
      | none => rfl
      | some lease => simp [ht]
    rw [hsame]
    split
    · rw [Function.update_of_ne ht]
    · rfl

theorem any_own (lock : Lock) :
    (locks.any fun l => decide (l.threadId = lock.threadId) && decide (l.token = lock.token)) =
      ((leases locks lock.threadId).filter fun lease => lease.1 = lock.token).isSome := by
  rw [Bool.eq_iff_iff, List.any_eq_true]
  unfold leases
  cases hfind : Table.find Lock.threadId locks lock.threadId with
  | none =>
    have hnone := Table.find_none hfind
    simp only [Option.map_none, Option.filter_none, Option.isSome_none, Bool.false_eq_true, iff_false]
    rintro ⟨l, hl, hown⟩
    rw [Bool.and_eq_true, decide_eq_true_eq, decide_eq_true_eq] at hown
    exact hnone l hl hown.1
  | some l =>
    obtain ⟨hl, hthread⟩ := Table.find_spec hfind
    constructor
    · rintro ⟨l', hl', hown⟩
      rw [Bool.and_eq_true, decide_eq_true_eq, decide_eq_true_eq] at hown
      have hsame : l' = l := List.inj_on_of_nodup_map h hl' hl (hown.1.trans hthread.symm)
      simp [← hsame, hown.2]
    · intro hsome
      exact ⟨l, hl, by simpa [hthread, Option.filter] using hsome⟩

end locks

/-! ### Rows are queues -/

/-- The rows of a list, in the order in which they were inserted. -/
def listOf (lists : List (ListRow α)) (key : Text) : List (ListRow α) := lists.filter fun r => r.key = key

/-- The rows of a list are numbered one after the other. -/
def Numbered (rows : List (ListRow α)) : Prop := ∃ start, rows.map (·.idx) = List.range' start rows.length

theorem Numbered.sorted {rows : List (ListRow α)} (h : Numbered rows) :
    (rows.mergeSort fun r r' => r.idx ≤ r'.idx) = rows := by
  obtain ⟨start, hidx⟩ := h
  apply List.mergeSort_of_pairwise
  have hpairwise : (rows.map (·.idx)).Pairwise (· < ·) := by
    rw [hidx]
    exact List.pairwise_lt_range'
  exact (List.pairwise_map.mp hpairwise).imp fun h => decide_eq_true (Nat.le_of_lt h)

/-- The next index goes on where the rows end. -/
theorem Numbered.next {rows : List (ListRow α)} (h : Numbered rows) :
    ∃ start, rows.map (·.idx) = List.range' start rows.length ∧
      ((rows.map (·.idx)).max?).elim 0 (· + 1) = start + rows.length := by
  obtain ⟨start, hidx⟩ := h
  cases hlength : rows.length with
  | zero =>
    rw [List.length_eq_zero_iff.mp hlength]
    exact ⟨0, rfl, rfl⟩
  | succ n =>
    refine ⟨start, by rw [hidx, hlength], ?_⟩
    have hmax : (rows.map (·.idx)).max? = some (start + n) := by
      rw [hidx, hlength, List.max?_eq_some_iff]
      refine ⟨List.mem_range'_1.mpr ⟨by omega, by omega⟩, fun b hb => ?_⟩
      have := (List.mem_range'_1.mp hb).2
      omega
    rw [hmax]
    rfl

theorem filter_idx {rows : List (ListRow α)} {start : ℕ} (h : rows.map (·.idx) = List.range' start rows.length)
    (cutoff : ℕ) : (rows.filter fun r => !(r.idx ≤ cutoff : Bool)) = rows.drop (cutoff + 1 - start) := by
  induction rows generalizing start with
  | nil => simp
  | cons r rows ih =>
    rw [List.map_cons, List.length_cons, List.range'_succ] at h
    obtain ⟨hr, hrest⟩ := List.cons.inj h
    by_cases hcut : start ≤ cutoff
    · have hdrop : cutoff + 1 - start = (cutoff + 1 - (start + 1)) + 1 := by omega
      rw [List.filter_cons_of_neg (by simp [hr, hcut]), ih hrest, hdrop, List.drop_succ_cons]
    · have hdrop : cutoff + 1 - start = 0 := by omega
      have hnext : cutoff + 1 - (start + 1) = 0 := by omega
      rw [List.filter_cons_of_pos (by simp [hr, hcut]), ih hrest, hdrop, hnext, List.drop_zero, List.drop_zero]

theorem Numbered.drop {rows : List (ListRow α)} (h : Numbered rows) (n : ℕ) : Numbered (rows.drop n) := by
  obtain ⟨start, hidx⟩ := h
  refine ⟨start + n, ?_⟩
  rw [List.map_drop, hidx, List.length_drop, List.drop_range', Nat.mul_one]

theorem listOf_filter (lists : List (ListRow α)) (p : ListRow α → Bool) (key : Text) :
    listOf (lists.filter p) key = (listOf lists key).filter p := by
  unfold listOf
  rw [List.filter_filter, List.filter_filter]
  congr 1
  funext r
  exact Bool.and_comm _ _

theorem mem_listOf {lists : List (ListRow α)} {key : Text} {r : ListRow α} (h : r ∈ listOf lists key) : r.key = key :=
  of_decide_eq_true (List.mem_filter.mp h).2

theorem listOf_delete (lists : List (ListRow α)) (p : ListRow α → Bool) (key key' : Text) :
    listOf (lists.filter fun r => !(r.key = key && p r)) key' =
      if key' = key then (listOf lists key).filter fun r => !p r else listOf lists key' := by
  rw [listOf_filter]
  by_cases hkey : key' = key
  · subst hkey
    rw [if_pos rfl]
    apply List.filter_congr
    intro r hr
    simp [mem_listOf hr]
  · rw [if_neg hkey]
    apply List.filter_eq_self.mpr
    intro r hr
    simp [mem_listOf hr, hkey]

theorem listOf_append (lists : List (ListRow α)) (r : ListRow α) (key : Text) :
    listOf (lists ++ [r]) key = if key = r.key then listOf lists key ++ [r] else listOf lists key := by
  unfold listOf
  rw [List.filter_append]
  by_cases hkey : r.key = key
  · simp [hkey]
  · simp [hkey, Ne.symm hkey]

/-- The tables as the operations leave them. -/
structure Db.Well (db : Db α) : Prop where
  locks : OneLock db.locks
  numbered : ∀ key, Numbered (listOf db.lists key)
  lasting : ∀ r ∈ db.lists, r.expiresAt = none

/-- **A list that has an entry appended** keeps as many of its last as it may. -/
theorem listOf_enqueue {db : Db α} (h : db.Well) (now : ℤ) (threadId : Text) (entry : α) {maxSize : ℕ}
    (hsize : 0 < maxSize) : ∃ new : ListRow α, new.value = entry ∧ new.expiresAt = none ∧
      Numbered (listOf db.lists (Db.queueKey threadId) ++ [new]) ∧
      ∀ key, listOf (db.enqueue now threadId entry maxSize).lists key =
        if key = Db.queueKey threadId then
          (listOf db.lists key ++ [new]).drop ((listOf db.lists key).length + 1 - maxSize)
        else listOf db.lists key := by
  obtain ⟨start, hidx, hnext⟩ := (h.numbered (Db.queueKey threadId)).next
  have hmax : (db.maxIdx (Db.queueKey threadId)).elim 0 (· + 1) =
      start + (listOf db.lists (Db.queueKey threadId)).length := hnext
  let new : ListRow α :=
    ⟨Db.queueKey threadId, start + (listOf db.lists (Db.queueKey threadId)).length, entry, none⟩
  have hall : (listOf db.lists (Db.queueKey threadId) ++ [new]).map (·.idx) =
      List.range' start (listOf db.lists (Db.queueKey threadId) ++ [new]).length := by
    rw [List.map_append, hidx, List.length_append, List.length_singleton, List.range'_1_concat]
    rfl
  refine ⟨new, rfl, rfl, ⟨start, hall⟩, fun key => ?_⟩
  have hpositive : (some maxSize).filter (· ≠ 0) = some maxSize := by simp [Nat.pos_iff_ne_zero.mp hsize]
  simp only [Db.enqueue, Db.appendToList, hmax, hpositive, Option.filter_none, Option.map_none]
  by_cases hcut : maxSize ≤ start + (listOf db.lists (Db.queueKey threadId)).length
  · rw [if_pos hcut, listOf_delete]
    by_cases hkey : key = Db.queueKey threadId
    · subst hkey
      rw [if_pos rfl, if_pos rfl, listOf_append, if_pos rfl, filter_idx hall]
      congr 1
      omega
    · rw [if_neg hkey, if_neg hkey, listOf_append, if_neg hkey]
  · rw [if_neg hcut, listOf_append]
    by_cases hkey : key = Db.queueKey threadId
    · subst hkey
      have hnone : (listOf db.lists (Db.queueKey threadId)).length + 1 - maxSize = 0 := by omega
      rw [if_pos rfl, if_pos rfl, hnone, List.drop_zero]
    · rw [if_neg hkey, if_neg hkey]

theorem rowsOf_eq {db : Db α} (h : db.Well) (key : Text) : db.rowsOf key = listOf db.lists key :=
  (h.numbered key).sorted

/-- **A list that is read from its front** loses its first row. -/
theorem listOf_dequeue {db : Db α} (h : db.Well) (threadId key : Text) :
    listOf (db.dequeue threadId).1.lists key =
      if key = Db.queueKey threadId then (listOf db.lists key).tail else listOf db.lists key := by
  unfold Db.dequeue
  rw [rowsOf_eq h]
  obtain ⟨start, hidx⟩ := h.numbered (Db.queueKey threadId)
  cases hrows : listOf db.lists (Db.queueKey threadId) with
  | nil =>
    by_cases hkey : key = Db.queueKey threadId
    · rw [if_pos hkey, hkey, hrows]
      rfl
    · rw [if_neg hkey]
  | cons r rest =>
    dsimp only
    rw [listOf_delete]
    by_cases hkey : key = Db.queueKey threadId
    · rw [if_pos hkey, if_pos hkey, hkey, hrows, List.tail_cons, List.filter_cons_of_neg (by simp)]
      apply List.filter_eq_self.mpr
      intro r' hr'
      -- the others have higher indexes
      rw [hrows, List.map_cons, List.length_cons, List.range'_succ] at hidx
      obtain ⟨hr, hrest⟩ := List.cons.inj hidx
      have hmem : r'.idx ∈ List.range' (start + 1) rest.length := hrest ▸ List.mem_map_of_mem hr'
      have hlower := (List.mem_range'_1.mp hmem).1
      simp only [Bool.not_eq_true', decide_eq_false_iff_not]
      omega
    · rw [if_neg hkey, if_neg hkey]

/-! ### The adapter does what the service does -/

theorem OneLock.append {locks : List Lock} (h : OneLock locks) (lock : Lock)
    (hnone : leases locks lock.threadId = none) : OneLock (locks ++ [lock]) := by
  have hfind : Table.find Lock.threadId locks lock.threadId = none := by simpa [leases] using hnone
  have hfree : lock.threadId ∉ locks.map Lock.threadId := by
    intro hmem
    obtain ⟨l, hl, hthread⟩ := List.mem_map.mp hmem
    exact Table.find_none hfind l hl hthread
  unfold OneLock at h ⊢
  rw [List.map_append, List.map_singleton, List.nodup_append]
  refine ⟨h, List.nodup_singleton _, ?_⟩
  intro t ht t' ht' heq
  rw [List.mem_singleton.mp ht'] at heq
  exact hfree (heq ▸ ht)

theorem OneLock.extend {locks : List Lock} (h : OneLock locks) (p : Lock → Bool) (newExpiry : ℤ) :
    OneLock (Table.updateWhere p (fun l => { l with expiresAt := newExpiry }) locks) := by
  have hthreads : (Table.updateWhere p (fun l => { l with expiresAt := newExpiry }) locks).map Lock.threadId =
      locks.map Lock.threadId := by
    unfold Table.updateWhere
    rw [List.map_map]
    apply List.map_congr_left
    intro l _
    dsimp only [Function.comp]
    split <;> rfl
  unfold OneLock
  rw [hthreads]
  exact h

theorem leases_append {locks : List Lock} (lock : Lock) (hnone : leases locks lock.threadId = none) :
    leases (locks ++ [lock]) = Function.update (leases locks) lock.threadId (some (lock.token, lock.expiresAt)) := by
  funext threadId
  have hfind : Table.find Lock.threadId locks lock.threadId = none := by simpa [leases] using hnone
  have happend : Table.find Lock.threadId (locks ++ [lock]) threadId =
      (Table.find Lock.threadId locks threadId).or (Table.find Lock.threadId [lock] threadId) := List.find?_append
  unfold leases
  rw [happend]
  by_cases ht : threadId = lock.threadId
  · subst ht
    rw [hfind, Function.update_self]
    simp [Table.find]
  · rw [Function.update_of_ne ht]
    have hother : Table.find Lock.threadId [lock] threadId = none := by simp [Table.find, Ne.symm ht]
    rw [hother, Option.or_none]

theorem leases_expired {locks : List Lock} (h : OneLock locks) (now : ℤ) (threadId : Text) :
    leases (unexpired locks now threadId) =
      Function.update (leases locks) threadId ((leases locks threadId).filter fun lease => now ≤ lease.2) := by
  funext threadId'
  unfold unexpired
  rw [leases_filter h fun t lease => !(t = threadId && lease.2 < now)]
  by_cases ht : threadId' = threadId
  · subst ht
    rw [Function.update_self]
    congr 1
    funext lease
    by_cases hle : now ≤ lease.2
    · simp [hle]
    · simp [hle, not_le.mp hle]
  · rw [Function.update_of_ne ht]
    cases leases locks threadId' with
    | none => rfl
    | some lease => simp [ht]

theorem leases_force {locks : List Lock} (threadId : Text) :
    leases (Table.delete Lock.threadId locks threadId) = Function.update (leases locks) threadId none := by
  funext threadId'
  unfold leases
  rw [Table.find_delete]
  by_cases ht : threadId' = threadId
  · rw [if_pos ht, ht, Function.update_self, Option.map_none]
  · rw [if_neg ht, Function.update_of_ne ht]

theorem queueKey_inj {threadId threadId' : Text} :
    Db.queueKey threadId = Db.queueKey threadId' ↔ threadId = threadId' :=
  ⟨List.append_cancel_left, fun h => h ▸ rfl⟩

theorem service_eq {db : Db α} (h : db.Well) : db.service =
    ⟨leases db.locks, fun threadId => (listOf db.lists (Db.queueKey threadId)).map (·.value)⟩ := by
  unfold Db.service
  congr 1
  funext threadId
  rw [rowsOf_eq h]

theorem Db.Well.of_locks {db : Db α} (h : db.Well) {locks : List Lock} (hlocks : OneLock locks) :
    Db.Well { db with locks := locks } := ⟨hlocks, h.numbered, h.lasting⟩

/-- **What an operation does to the tables**: they stay as they should be, and they come to stand for what the
service does; and it answers as the service does. -/
structure Serves (db : Db α) (now : ℤ) (op : Op α) : Prop where
  well : (db.serve now op).1.Well
  service : (db.serve now op).1.service = (db.service.serve now op).1
  answer : (db.serve now op).2 = (db.service.serve now op).2

theorem serves_acquire {db : Db α} (h : db.Well) (now : ℤ) (token threadId : Text) (ttlMs : ℤ) :
    Serves db now (.acquireLock token threadId ttlMs) := by
  have hfree : OneLock (unexpired db.locks now threadId) := h.locks.filter _
  have hexpired := leases_expired h.locks now threadId
  have hheld : leases (unexpired db.locks now threadId) threadId =
      (leases db.locks threadId).filter fun lease => now ≤ lease.2 := by
    rw [hexpired, Function.update_self]
  rcases acquireLock_cases db now token threadId ttlMs with ⟨hsome, hacquire⟩ | ⟨hfind, hacquire⟩
  · -- the lock of another holder has not ended
    have hleaseSome : (leases (unexpired db.locks now threadId) threadId).isSome = true := by
      unfold leases
      rw [Option.isSome_map]
      exact hsome
    rw [hheld] at hleaseSome
    obtain ⟨lease, hlease⟩ := Option.isSome_iff_exists.mp hleaseSome
    obtain ⟨hold, hle⟩ := Option.filter_eq_some_iff.mp hlease
    have hunexpired : ((leases db.locks threadId).any fun lease => now ≤ lease.2) = true := by
      rw [hold]
      exact hle
    have hsame : leases (unexpired db.locks now threadId) = leases db.locks := by
      rw [hexpired, hlease, ← hold]
      exact Function.update_eq_self _ _
    have hwell := h.of_locks hfree
    have hserve : db.serve now (.acquireLock token threadId ttlMs) =
        ({ db with locks := unexpired db.locks now threadId }, .lock none) := by
      rw [Db.serve, hacquire]
    constructor
    · rw [hserve]
      exact hwell
    · rw [hserve, service_eq hwell, hsame, service_eq h]
      simp only [Service.serve, hunexpired, if_true]
    · rw [hserve, service_eq h]
      simp only [Service.serve, hunexpired, if_true]
  · have hnone : leases (unexpired db.locks now threadId) threadId = none := by
      unfold leases
      rw [hfind, Option.map_none]
    have hunexpired : ((leases db.locks threadId).any fun lease => now ≤ lease.2) = false := by
      rw [hheld, Option.filter_eq_none_iff] at hnone
      cases hlease : leases db.locks threadId with
      | none => rfl
      | some lease => exact Bool.eq_false_iff.mpr (hnone lease hlease)
    have hwell := h.of_locks (hfree.append ⟨threadId, token, now + ttlMs⟩ hnone)
    have hleases := leases_append ⟨threadId, token, now + ttlMs⟩ hnone
    have hserve : db.serve now (.acquireLock token threadId ttlMs) =
        ({ db with locks := unexpired db.locks now threadId ++ [⟨threadId, token, now + ttlMs⟩] },
          .lock (some ⟨threadId, token, now + ttlMs⟩)) := by
      rw [Db.serve, hacquire]
    constructor
    · rw [hserve]
      exact hwell
    · rw [hserve, service_eq hwell, hleases, hexpired, Function.update_idem, service_eq h]
      simp only [Service.serve, hunexpired, Bool.false_eq_true, if_false]
    · rw [hserve, service_eq h]
      simp only [Service.serve, hunexpired, Bool.false_eq_true, if_false]

theorem serves_release {db : Db α} (h : db.Well) (now : ℤ) (lock : Lock) : Serves db now (.releaseLock lock) := by
  have hwell := h.of_locks (h.locks.filter fun l => !(l.threadId = lock.threadId && l.token = lock.token))
  refine ⟨hwell, ?_, rfl⟩
  rw [service_eq h]
  show Db.service { db with locks := db.locks.filter _ } = _
  rw [service_eq hwell, leases_release h.locks]
  cases hown : ((leases db.locks lock.threadId).filter fun lease => lease.1 = lock.token).isSome with
  | true => simp only [Service.serve, Service.owned, hown, if_true]
  | false => simp only [Service.serve, Service.owned, hown, Bool.false_eq_true, if_false]

theorem serves_extend {db : Db α} (h : db.Well) (now : ℤ) (lock : Lock) (ttlMs : ℤ) :
    Serves db now (.extendLock lock ttlMs) := by
  have hwell := h.of_locks (h.locks.extend
    (fun l => decide (l.threadId = lock.threadId) && decide (l.token = lock.token)) (now + ttlMs))
  have hany := any_own h.locks lock
  have hleases := leases_extend db.locks lock (now + ttlMs)
  have hdb : (db.extendLock now lock ttlMs).1 = { db with locks := (Table.updateWhere
      (fun l => decide (l.threadId = lock.threadId) && decide (l.token = lock.token))
        (fun l => { l with expiresAt := now + ttlMs }) db.locks) } := by
    unfold Db.extendLock
    dsimp only
    split <;> rfl
  constructor
  · show (db.extendLock now lock ttlMs).1.Well
    rw [hdb]
    exact hwell
  · show (db.extendLock now lock ttlMs).1.service = _
    rw [hdb, service_eq hwell, hleases, service_eq h]
    cases hown : ((leases db.locks lock.threadId).filter fun lease => lease.1 = lock.token).isSome with
    | true => simp only [Service.serve, Service.owned, hown, if_true]
    | false => simp only [Service.serve, Service.owned, hown, Bool.false_eq_true, if_false]
  · rw [service_eq h]
    cases hown : ((leases db.locks lock.threadId).filter fun lease => lease.1 = lock.token).isSome with
    | true => simp only [Db.serve, Db.extendLock, Service.serve, Service.owned, hany, hown, if_true]
    | false =>
      simp only [Db.serve, Db.extendLock, Service.serve, Service.owned, hany, hown, Bool.false_eq_true, if_false]

theorem serves_cleanup {db : Db α} (h : db.Well) (now : ℤ) : Serves db now .cleanup := by
  have hlists : (db.lists.filter fun r => !(r.expiresAt.any fun expiresAt => expiresAt < now)) = db.lists := by
    apply List.filter_eq_self.mpr
    intro r hr
    simp [h.lasting r hr]
  have hdb : db.cleanup now = { db with locks := db.locks.filter fun l => !(l.expiresAt < now : Bool) } := by
    unfold Db.cleanup
    rw [hlists]
  have hwell := h.of_locks (h.locks.filter fun l => !(l.expiresAt < now : Bool))
  refine ⟨?_, ?_, rfl⟩
  · show (db.cleanup now).Well
    rw [hdb]
    exact hwell
  · show (db.cleanup now).service = _
    rw [hdb, service_eq hwell, service_eq h]
    simp only [Service.serve, Service.mk.injEq, and_true]
    funext threadId
    rw [leases_filter h.locks fun _ lease => !(lease.2 < now : Bool)]
    congr 1
    funext lease
    by_cases hle : now ≤ lease.2
    · simp [hle]
    · simp [hle, not_le.mp hle]

theorem serves_force {db : Db α} (h : db.Well) (now : ℤ) (threadId : Text) :
    Serves db now (.forceReleaseLock threadId) := by
  have hwell : Db.Well { db with locks := Table.delete Lock.threadId db.locks threadId } :=
    h.of_locks (h.locks.filter _)
  refine ⟨hwell, ?_, rfl⟩
  rw [service_eq h]
  show Db.service { db with locks := Table.delete Lock.threadId db.locks threadId } = _
  rw [service_eq hwell, leases_force]
  rfl

theorem enqueue_locks (db : Db α) (now : ℤ) (threadId : Text) (entry : α) (maxSize : ℕ) :
    (db.enqueue now threadId entry maxSize).locks = db.locks := by
  unfold Db.enqueue Db.appendToList
  dsimp only
  split
  · rfl
  · split <;> rfl

theorem dequeue_locks (db : Db α) (threadId : Text) : (db.dequeue threadId).1.locks = db.locks := by
  unfold Db.dequeue
  split <;> rfl

theorem serves_enqueue {db : Db α} (h : db.Well) (now : ℤ) (threadId : Text) (entry : α) (maxSize : ℕ)
    (hsize : 0 < maxSize) : Serves db now (.enqueue threadId entry maxSize hsize) := by
  obtain ⟨new, hvalue, hlast, hnumbered, hlist⟩ := listOf_enqueue h now threadId entry hsize
  have hlocks := enqueue_locks db now threadId entry maxSize
  have hwell : (db.enqueue now threadId entry maxSize).Well := by
    refine ⟨hlocks ▸ h.locks, ?_, ?_⟩
    · intro key
      rw [hlist]
      split
      · rename_i hkey
        rw [hkey]
        exact hnumbered.drop _
      · exact h.numbered key
    · intro r hr
      have hmem : r ∈ listOf (db.enqueue now threadId entry maxSize).lists r.key :=
        List.mem_filter.mpr ⟨hr, decide_eq_true rfl⟩
      rw [hlist] at hmem
      split at hmem
      · rcases List.mem_append.mp (List.mem_of_mem_drop hmem) with hold | hnew
        · exact h.lasting r (List.mem_filter.mp hold).1
        · rw [List.mem_singleton.mp hnew, hlast]
      · exact h.lasting r (List.mem_filter.mp hmem).1
  refine ⟨hwell, ?_, rfl⟩
  show (db.enqueue now threadId entry maxSize).service = _
  rw [service_eq hwell, service_eq h, hlocks]
  simp only [Service.serve, Service.mk.injEq, true_and]
  funext threadId'
  rw [hlist]
  by_cases ht : threadId' = threadId
  · subst ht
    rw [if_pos rfl, Function.update_self, List.map_drop, List.map_append, List.map_singleton, hvalue,
      List.length_append, List.length_map, List.length_singleton]
  · rw [if_neg (queueKey_inj.not.mpr ht), Function.update_of_ne ht]

theorem serves_dequeue {db : Db α} (h : db.Well) (now : ℤ) (threadId : Text) : Serves db now (.dequeue threadId) := by
  have hlist := listOf_dequeue h threadId
  have hlocks := dequeue_locks db threadId
  have hsub : (db.dequeue threadId).1.lists ⊆ db.lists := by
    unfold Db.dequeue
    split
    · exact List.Subset.refl _
    · exact fun r hr => (List.mem_filter.mp hr).1
  have hwell : (db.dequeue threadId).1.Well := by
    refine ⟨hlocks ▸ h.locks, ?_, fun r hr => h.lasting r (hsub hr)⟩
    intro key
    rw [hlist]
    split
    · rw [← List.drop_one]
      exact (h.numbered key).drop 1
    · exact h.numbered key
  constructor
  · exact hwell
  · show (db.dequeue threadId).1.service = _
    rw [service_eq hwell, service_eq h, hlocks]
    simp only [Service.serve, Service.mk.injEq, true_and]
    funext threadId'
    rw [hlist]
    by_cases ht : threadId' = threadId
    · subst ht
      rw [if_pos rfl, Function.update_self, List.map_tail]
    · rw [if_neg (queueKey_inj.not.mpr ht), Function.update_of_ne ht]
  · rw [service_eq h]
    simp only [Db.serve, Service.serve, Db.dequeue, rowsOf_eq h]
    cases listOf db.lists (Db.queueKey threadId) with
    | nil => rfl
    | cons r rest => rfl

/-- **Each operation does to the tables what the service does.** -/
theorem serve_refines {db : Db α} (h : db.Well) (now : ℤ) (op : Op α) : Serves db now op := by
  cases op with
  | acquireLock token threadId ttlMs => exact serves_acquire h now token threadId ttlMs
  | releaseLock lock => exact serves_release h now lock
  | extendLock lock ttlMs => exact serves_extend h now lock ttlMs
  | forceReleaseLock threadId => exact serves_force h now threadId
  | cleanup => exact serves_cleanup h now
  | enqueue threadId entry maxSize positive => exact serves_enqueue h now threadId entry maxSize positive
  | dequeue threadId => exact serves_dequeue h now threadId
  | queueDepth threadId =>
    refine ⟨h, rfl, ?_⟩
    rw [service_eq h]
    show Answer.depth (listOf _ _).length = Answer.depth (List.map _ _).length
    rw [List.length_map]

/-! ### Runs -/

/-- The tables, the time of the last operation, the tokens that were drawn, and the locks that were given, the
oldest first. -/
structure System (α : Type) where
  db : Db α
  now : ℤ
  drawn : List Text
  given : List Lock

def System.start (now : ℤ) : System α := ⟨⟨[], []⟩, now, [], []⟩

/-- The token that an operation draws. -/
def Op.token? : Op α → Option Text
  | .acquireLock token _ _ => some token
  | _ => none

/-- The lock that an answer gives. -/
def Answer.given : Answer α → Option Lock
  | .lock given => given
  | _ => none

/-- An operation at a time that is no earlier, with a token that was never drawn. -/
def step (s : System α) (e : ℤ × Op α) : Option (System α) :=
  if e.1 < s.now ∨ e.2.token?.any (· ∈ s.drawn) then none
  else some ⟨(s.db.serve e.1 e.2).1, e.1, e.2.token?.toList ++ s.drawn,
    s.given ++ (s.db.serve e.1 e.2).2.given.toList⟩

theorem step_eq {s s' : System α} {e : ℤ × Op α} (h : step s e = some s') :
    s.now ≤ e.1 ∧ (∀ token, e.2.token? = some token → token ∉ s.drawn) ∧
      s' = ⟨(s.db.serve e.1 e.2).1, e.1, e.2.token?.toList ++ s.drawn,
        s.given ++ (s.db.serve e.1 e.2).2.given.toList⟩ := by
  unfold step at h
  split at h
  · cases h
  · rename_i hno
    rw [not_or] at hno
    refine ⟨not_lt.mp hno.1, fun token htoken hmem => ?_, (Option.some.inj h).symm⟩
    rw [htoken] at hno
    exact hno.2 (by simpa using hmem)

/-- The locks of a thread that were given. -/
def givenOf (given : List Lock) (threadId : Text) : List Lock := given.filter fun l => l.threadId = threadId

/-- **What holds of the locks in every state**: tokens are not given twice, and the lock of a thread that is in the
table is the last that was given for it. -/
structure SystemInv (s : System α) : Prop where
  well : s.db.Well
  once : (s.given.map Lock.token).Nodup
  drawn : ∀ l ∈ s.given, l.token ∈ s.drawn
  last : ∀ l ∈ s.db.locks, (givenOf s.given l.threadId).getLast?.map Lock.token = some l.token

theorem systemInv_start (now : ℤ) : SystemInv (System.start now : System α) :=
  ⟨⟨List.nodup_nil, fun _ => ⟨0, rfl⟩, fun _ hr => (nomatch hr)⟩, List.nodup_nil, fun _ hl => (nomatch hl),
    fun _ hl => (nomatch hl)⟩

theorem locks_serve {db : Db α} {now : ℤ} {op : Op α} {l : Lock} (hl : l ∈ (db.serve now op).1.locks) :
    (∃ l' ∈ db.locks, l'.threadId = l.threadId ∧ l'.token = l.token ∧
      ∀ given, (db.serve now op).2.given = some given → given.threadId ≠ l.threadId) ∨
    (db.serve now op).2.given = some l ∧ op.token? = some l.token := by
  cases op with
  | acquireLock token threadId ttlMs =>
    rcases acquireLock_cases db now token threadId ttlMs with ⟨-, hacquire⟩ | ⟨hnone, hacquire⟩
    · rw [Db.serve, hacquire] at hl ⊢
      exact .inl ⟨l, (List.mem_filter.mp hl).1, rfl, rfl, fun given h => nomatch h⟩
    · rw [Db.serve, hacquire] at hl ⊢
      rcases List.mem_append.mp hl with hold | hnew
      · refine .inl ⟨l, (List.mem_filter.mp hold).1, rfl, rfl, fun given h heq => ?_⟩
        obtain rfl := Option.some.inj h
        exact Table.find_none hnone l hold heq.symm
      · rw [List.mem_singleton.mp hnew]
        exact .inr ⟨rfl, rfl⟩
  | releaseLock lock => exact .inl ⟨l, (List.mem_filter.mp hl).1, rfl, rfl, fun given h => nomatch h⟩
  | extendLock lock ttlMs =>
    have hmem : l ∈ Table.updateWhere (fun l => decide (l.threadId = lock.threadId) && decide (l.token = lock.token))
        (fun l => { l with expiresAt := now + ttlMs }) db.locks := by
      simp only [Db.serve, Db.extendLock] at hl
      split at hl <;> exact hl
    obtain ⟨l', hl', rfl⟩ := List.mem_map.mp hmem
    refine .inl ⟨l', hl', ?_, ?_, fun given h => nomatch h⟩ <;> split <;> rfl
  | forceReleaseLock threadId => exact .inl ⟨l, (List.mem_filter.mp hl).1, rfl, rfl, fun given h => nomatch h⟩
  | cleanup => exact .inl ⟨l, (List.mem_filter.mp hl).1, rfl, rfl, fun given h => nomatch h⟩
  | enqueue threadId entry maxSize positive =>
    exact .inl ⟨l, enqueue_locks db now threadId entry maxSize ▸ hl, rfl, rfl, fun given h => nomatch h⟩
  | dequeue threadId =>
    exact .inl ⟨l, dequeue_locks db threadId ▸ hl, rfl, rfl, fun given h => nomatch h⟩
  | queueDepth threadId => exact .inl ⟨l, hl, rfl, rfl, fun given h => nomatch h⟩

theorem token_of_given {db : Db α} {now : ℤ} {op : Op α} {l : Lock} (h : (db.serve now op).2.given = some l) :
    op.token? = some l.token := by
  cases op with
  | acquireLock token threadId ttlMs =>
    rcases acquireLock_cases db now token threadId ttlMs with ⟨-, hacquire⟩ | ⟨-, hacquire⟩
    · rw [Db.serve, hacquire] at h
      cases h
    · rw [Db.serve, hacquire] at h
      rw [← Option.some.inj h]
      rfl
  | _ => cases h

theorem systemInv_step {s s' : System α} {e : ℤ × Op α} (hI : SystemInv s) (h : step s e = some s') : SystemInv s' := by
  obtain ⟨-, hfresh, rfl⟩ := step_eq h
  have hserve := serve_refines hI.well e.1 e.2
  refine ⟨hserve.well, ?_, ?_, ?_⟩
  · show ((s.given ++ (s.db.serve e.1 e.2).2.given.toList).map Lock.token).Nodup
    cases hgiven : (s.db.serve e.1 e.2).2.given with
    | none => simpa using hI.once
    | some l =>
      have hnew := hfresh l.token (token_of_given hgiven)
      rw [Option.toList_some, List.map_append, List.map_singleton, List.nodup_append]
      refine ⟨hI.once, List.nodup_singleton _, fun token htoken token' htoken' heq => ?_⟩
      obtain ⟨l', hl', rfl⟩ := List.mem_map.mp htoken
      rw [List.mem_singleton.mp htoken'] at heq
      exact hnew (heq ▸ hI.drawn l' hl')
  · intro l hl
    rcases List.mem_append.mp hl with hold | hnew
    · exact List.mem_append_right _ (hI.drawn l hold)
    · have hgiven : (s.db.serve e.1 e.2).2.given = some l := Option.mem_toList.mp hnew
      exact List.mem_append_left _ (Option.mem_toList.mpr (token_of_given hgiven))
  · intro l hl
    dsimp only
    rcases locks_serve hl with ⟨l', hl', hthread, htoken, hother⟩ | ⟨hgiven, -⟩
    · have hlast := hI.last l' hl'
      rw [hthread, htoken] at hlast
      have hsame : givenOf (s.given ++ (s.db.serve e.1 e.2).2.given.toList) l.threadId =
          givenOf s.given l.threadId := by
        unfold givenOf
        rw [List.filter_append]
        cases hgiven : (s.db.serve e.1 e.2).2.given with
        | none => simp
        | some given => simp [hother given hgiven]
      rw [hsame]
      exact hlast
    · have hend : givenOf (s.given ++ (s.db.serve e.1 e.2).2.given.toList) l.threadId =
          givenOf s.given l.threadId ++ [l] := by
        unfold givenOf
        rw [List.filter_append, hgiven]
        simp
      rw [hend, List.getLast?_concat]
      rfl

/-! ### What the holders and the queues may rely on -/

/-- An operation that ends or changes the lock on purpose: of its holder, or by force. -/
def Op.Ends (op : Op α) (l : Lock) : Prop :=
  (∃ lock, (op = .releaseLock lock ∨ ∃ ttlMs, op = .extendLock lock ttlMs) ∧
    lock.threadId = l.threadId ∧ lock.token = l.token) ∨ op = .forceReleaseLock l.threadId

/-- The entry that an operation puts in the queue of a thread. -/
def Op.entryFor (threadId : Text) : Op α → Option α
  | .enqueue threadId' entry _ _ => if threadId' = threadId then some entry else none
  | _ => none

def enqueued (threadId : Text) (es : List (ℤ × Op α)) : List α := es.filterMap fun e => e.2.entryFor threadId

/-- The operations put entries in the queue of the thread only up to `n` of them. -/
def UpTo (threadId : Text) (n : ℕ) (op : Op α) : Prop :=
  ∀ entry maxSize positive, op = .enqueue threadId entry maxSize positive → maxSize ≤ n

def Service.idle : Service α := ⟨fun _ => none, fun _ => []⟩

def Service.after (s : Service α) (es : List (ℤ × Op α)) : Service α := es.foldl (fun s e => (s.serve e.1 e.2).1) s

/-- What holds after the operations of a run. -/
structure Guarantees (es : List (ℤ × Op α)) (s : System α) : Prop where
  service : s.db.service = Service.idle.after es
  answers : ∀ now op, (s.db.serve now op).2 = (s.db.service.serve now op).2
  sole : ∀ l ∈ s.db.locks, ∀ l' ∈ s.db.locks, l.threadId = l'.threadId → l = l'
  excludes : ∀ l ∈ s.db.locks, ∀ now token ttlMs, now ≤ l.expiresAt →
    (s.db.serve now (.acquireLock token l.threadId ttlMs)).2 = .lock none
  kept : ∀ l ∈ s.db.locks, ∀ now op, now ≤ l.expiresAt → ¬ op.Ends l → l ∈ (s.db.serve now op).1.locks
  succeeded : ∀ a b, [a, b].Sublist s.given → b.threadId = a.threadId →
    ∀ lock, lock.threadId = a.threadId → lock.token = a.token → ∀ now ttlMs,
      s.db.serve now (.releaseLock lock) = (s.db, .done) ∧
        s.db.serve now (.extendLock lock ttlMs) = (s.db, .extended lock false)
  fifo : ∀ threadId, s.db.service.queue threadId <:+ enqueued threadId es
  bounded : ∀ threadId n, (∀ e ∈ es, UpTo threadId n e.2) → (s.db.service.queue threadId).length ≤ n

theorem kept_serve {db : Db α} {l : Lock} (hl : l ∈ db.locks) {now : ℤ} (hnow : now ≤ l.expiresAt) {op : Op α}
    (hends : ¬ op.Ends l) : l ∈ (db.serve now op).1.locks := by
  cases op with
  | acquireLock token threadId ttlMs =>
    have hkept : l ∈ unexpired db.locks now threadId := List.mem_filter.mpr ⟨hl, by simp [Int.not_lt.mpr hnow]⟩
    rcases acquireLock_cases db now token threadId ttlMs with ⟨-, hacquire⟩ | ⟨-, hacquire⟩
    · rw [Db.serve, hacquire]
      exact hkept
    · rw [Db.serve, hacquire]
      exact List.mem_append_left _ hkept
  | releaseLock lock =>
    refine List.mem_filter.mpr ⟨hl, ?_⟩
    by_contra hown
    have hsame : l.threadId = lock.threadId ∧ l.token = lock.token := by simpa using hown
    exact hends (.inl ⟨lock, .inl rfl, hsame.1.symm, hsame.2.symm⟩)
  | extendLock lock ttlMs =>
    have hother : (decide (l.threadId = lock.threadId) && decide (l.token = lock.token)) = false := by
      by_contra hown
      have hsame : l.threadId = lock.threadId ∧ l.token = lock.token := by simpa using hown
      exact hends (.inl ⟨lock, .inr ⟨ttlMs, rfl⟩, hsame.1.symm, hsame.2.symm⟩)
    have hmem : l ∈ Table.updateWhere (fun l => decide (l.threadId = lock.threadId) && decide (l.token = lock.token))
        (fun l => { l with expiresAt := now + ttlMs }) db.locks :=
      List.mem_map.mpr ⟨l, hl, if_neg (by simp only [hother, Bool.false_eq_true, not_false_eq_true])⟩
    simp only [Db.serve, Db.extendLock]
    split <;> exact hmem
  | forceReleaseLock threadId =>
    refine List.mem_filter.mpr ⟨hl, ?_⟩
    by_contra hown
    have hsame : l.threadId = threadId := by simpa using hown
    exact hends (.inr (hsame ▸ rfl))
  | cleanup => exact List.mem_filter.mpr ⟨hl, by simp [Int.not_lt.mpr hnow]⟩
  | enqueue threadId entry maxSize positive => exact enqueue_locks db now threadId entry maxSize ▸ hl
  | dequeue threadId => exact dequeue_locks db threadId ▸ hl
  | queueDepth threadId => exact hl

theorem token_of_succeeded {given : List Lock} (honce : (given.map Lock.token).Nodup) {a b : Lock}
    (hab : [a, b].Sublist given) (hthread : b.threadId = a.threadId) {token : Text}
    (hlast : (givenOf given a.threadId).getLast?.map Lock.token = some token) : token ≠ a.token := by
  have hsub : [a, b].Sublist (givenOf given a.threadId) := by
    have hfilter := hab.filter fun l => decide (l.threadId = a.threadId)
    simpa [givenOf, hthread] using hfilter
  have hnodup : ((givenOf given a.threadId).map Lock.token).Nodup := honce.sublist (List.filter_sublist.map _)
  generalize givenOf given a.threadId = locks at hlast hsub hnodup
  rcases List.eq_nil_or_concat locks with rfl | ⟨before, last, rfl⟩
  · cases hlast
  · rw [List.concat_eq_append] at hlast hsub hnodup
    rw [List.getLast?_concat] at hlast
    rw [List.map_append, List.map_singleton, List.nodup_append] at hnodup
    -- the first of two is before the last
    have ha : a ∈ before := by
      obtain ⟨front, back, hsplit, hfront, hback⟩ := List.sublist_append_iff.mp hsub
      cases front with
      | nil =>
        have hlength := hback.length_le
        rw [List.nil_append] at hsplit
        rw [← hsplit] at hlength
        simp at hlength
      | cons x front =>
        obtain ⟨rfl, -⟩ := List.cons.inj hsplit
        exact hfront.subset List.mem_cons_self
    rw [← Option.some.inj hlast]
    exact (hnodup.2.2 a.token (List.mem_map_of_mem ha) _ (List.mem_singleton.mpr rfl)).symm

theorem serve_succeeded {db : Db α} {lock : Lock}
    (h : ∀ l ∈ db.locks, l.threadId = lock.threadId → l.token ≠ lock.token) (now ttlMs : ℤ) :
    db.serve now (.releaseLock lock) = (db, .done) ∧
      db.serve now (.extendLock lock ttlMs) = (db, .extended lock false) := by
  have hother : ∀ l ∈ db.locks, (decide (l.threadId = lock.threadId) && decide (l.token = lock.token)) = false := by
    intro l hl
    have hne := h l hl
    simpa using hne
  have hkept : (db.locks.filter fun l => !(l.threadId = lock.threadId && l.token = lock.token)) = db.locks := by
    apply List.filter_eq_self.mpr
    intro l hl
    rw [hother l hl]
    rfl
  have hsame : Table.updateWhere (fun l => decide (l.threadId = lock.threadId) && decide (l.token = lock.token))
      (fun l => { l with expiresAt := now + ttlMs }) db.locks = db.locks := by
    unfold Table.updateWhere
    refine (List.map_congr_left fun l hl => ?_).trans (List.map_id _)
    exact if_neg (by simp only [hother l hl, Bool.false_eq_true, not_false_eq_true])
  have hnone :
      (db.locks.any fun l => decide (l.threadId = lock.threadId) && decide (l.token = lock.token)) = false := by
    rw [List.any_eq_false]
    intro l hl
    rw [hother l hl]
    exact Bool.false_ne_true
  constructor
  · show (({ db with locks := db.locks.filter _ } : Db α), Answer.done) = _
    rw [hkept]
  · simp only [Db.serve, Db.extendLock, hsame, hnone]
    rfl

section Queues

variable (s : Service α) (now : ℤ) (op : Op α) (threadId : Text)

theorem queue_serve : (s.serve now op).1.queue threadId <:+ s.queue threadId ++ (op.entryFor threadId).toList := by
  cases op with
  | enqueue threadId' entry maxSize positive =>
    simp only [Service.serve, Op.entryFor]
    by_cases ht : threadId' = threadId
    · subst ht
      rw [Function.update_self, if_pos rfl]
      exact List.drop_suffix _ _
    · have hother : threadId ≠ threadId' := Ne.symm ht
      simp [ht, hother]
  | dequeue threadId' =>
    simp only [Service.serve, Op.entryFor]
    by_cases ht : threadId = threadId'
    · subst ht
      rw [Function.update_self, Option.toList_none, List.append_nil]
      exact List.tail_suffix _
    · simp [ht]
  | acquireLock token threadId' ttlMs =>
    simp only [Service.serve]
    split <;> simp [Op.entryFor]
  | extendLock lock ttlMs =>
    simp only [Service.serve]
    split <;> simp [Op.entryFor]
  | releaseLock lock =>
    simp only [Service.serve]
    split <;> simp [Op.entryFor]
  | _ => simp [Service.serve, Op.entryFor]

theorem length_serve {n : ℕ} (hop : UpTo threadId n op) (hs : (s.queue threadId).length ≤ n) :
    ((s.serve now op).1.queue threadId).length ≤ n := by
  by_cases hentry : op.entryFor threadId = none
  · have hlength := (queue_serve s now op threadId).length_le
    rw [hentry, Option.toList_none, List.append_nil] at hlength
    exact hlength.trans hs
  · cases op with
    | enqueue threadId' entry maxSize positive =>
      obtain rfl : threadId' = threadId := by
        by_contra ht
        exact hentry (if_neg ht)
      have hsize := hop entry maxSize positive rfl
      simp only [Service.serve, Function.update_self, List.length_drop]
      omega
    | _ => exact absurd rfl hentry

end Queues

theorem queue_after (threadId : Text) (es : List (ℤ × Op α)) (s : Service α) :
    (s.after es).queue threadId <:+ s.queue threadId ++ enqueued threadId es := by
  induction es generalizing s with
  | nil => simp [Service.after, enqueued]
  | cons e es ih =>
    have hrest : (s.after (e :: es)).queue threadId <:+
        (s.serve e.1 e.2).1.queue threadId ++ enqueued threadId es := ih _
    obtain ⟨front, hfront⟩ := queue_serve s e.1 e.2 threadId
    have hall : s.queue threadId ++ enqueued threadId (e :: es) =
        front ++ ((s.serve e.1 e.2).1.queue threadId ++ enqueued threadId es) := by
      rw [← List.append_assoc, hfront, List.append_assoc]
      congr 1
      unfold enqueued
      rw [List.filterMap_cons]
      cases e.2.entryFor threadId <;> rfl
    rw [hall]
    exact hrest.trans (List.suffix_append _ _)

theorem length_after {threadId : Text} {n : ℕ} {es : List (ℤ × Op α)} (hes : ∀ e ∈ es, UpTo threadId n e.2)
    {s : Service α} (hs : (s.queue threadId).length ≤ n) : ((s.after es).queue threadId).length ≤ n := by
  induction es generalizing s with
  | nil => exact hs
  | cons e es ih =>
    exact ih (fun e' he' => hes e' (List.mem_cons_of_mem e he'))
      (length_serve s e.1 e.2 threadId (hes e List.mem_cons_self) hs)

theorem service_run {es : List (ℤ × Op α)} {s s' : System α} (hI : SystemInv s) (h : Trans.run step s es = some s') :
    SystemInv s' ∧ s'.db.service = s.db.service.after es := by
  induction es generalizing s with
  | nil =>
    obtain rfl := Trans.run_nil.mp h
    exact ⟨hI, rfl⟩
  | cons e es ih =>
    obtain ⟨s₁, h₁, hrest⟩ := Trans.run_cons.mp h
    obtain ⟨hI', hservice⟩ := ih (systemInv_step hI h₁) hrest
    obtain ⟨-, -, rfl⟩ := step_eq h₁
    refine ⟨hI', ?_⟩
    rw [hservice]
    show Service.after (s.db.serve e.1 e.2).1.service es = Service.after (s.db.service.serve e.1 e.2).1 es
    rw [(serve_refines hI.well e.1 e.2).service]

/-- **The adapter implements locks and queues**, in every state that a sequence of operations leads to. -/
theorem adapter_implements {now : ℤ} {es : List (ℤ × Op α)} {s : System α}
    (h : Trans.run step (System.start now) es = some s) : Guarantees es s := by
  obtain ⟨hI, hservice⟩ := service_run (systemInv_start now) h
  have hidle : (System.start now : System α).db.service = Service.idle := by
    rw [service_eq (systemInv_start now).well]
    rfl
  rw [hidle] at hservice
  refine ⟨hservice, fun now op => (serve_refines hI.well now op).answer, ?_, ?_, ?_, ?_, ?_, ?_⟩
  · intro l hl l' hl' hthread
    exact List.inj_on_of_nodup_map hI.well.locks hl hl' hthread
  · intro l hl now token ttlMs hnow
    have hlease : leases s.db.locks l.threadId = some (l.token, l.expiresAt) := by
      unfold leases
      rw [Table.find_of_nodup hI.well.locks hl]
      rfl
    rw [(serve_refines hI.well now _).answer, service_eq hI.well]
    simp only [Service.serve, hlease, Option.any_some, decide_eq_true_eq, if_pos hnow]
  · intro l hl now op hnow hends
    exact kept_serve hl hnow hends
  · intro a b hab hthread lock hlock htoken now ttlMs
    apply serve_succeeded
    intro l hl hthread'
    have hlast := hI.last l hl
    rw [hthread', hlock] at hlast
    rw [htoken]
    exact token_of_succeeded hI.once hab hthread hlast
  · intro threadId
    rw [hservice]
    exact queue_after threadId es Service.idle
  · intro threadId n hes
    rw [hservice]
    exact length_after hes (Nat.zero_le n)

/-- A lock that expires and is taken over, and two entries for a queue of one. -/
def takeover : List (ℤ × Op ℕ) :=
  [(0, .acquireLock [1] [7] 10), (11, .acquireLock [2] [7] 10), (12, .releaseLock ⟨[7], [1], 10⟩),
    (13, .enqueue [7] 4 1 Nat.one_pos), (14, .enqueue [7] 5 1 Nat.one_pos)]

theorem adapter_implements_takeover : ∃ s, Trans.run step (System.start 0) takeover = some s ∧
    Guarantees takeover s := by
  have hruns : (Trans.run step (System.start 0) takeover).isSome := by decide
  obtain ⟨s, hs⟩ := Option.isSome_iff_exists.mp hruns
  exact ⟨s, hs, adapter_implements hs⟩

end AgentDesk.StateAdapter
