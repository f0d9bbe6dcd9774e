/-
# The admission queue

`src/admission-queue.ts`: a wake that `wakeContainer` turns away because all slots are taken puts its session
into a queue, and a freed slot admits the session whose fairness bucket holds the fewest slots. An admission
that fails costs the session a failure: the first keeps its turn, the second sends it to the back, the third
evicts it, and its bucket and its time are forgotten.

The wake that fails for want of a slot has queued the session again before its failure is recorded. So an
evicted session stays in the queue, without a bucket. The same happens to a session that is queued again while
its admission succeeds, or that fails an admission after another one of it has ended.

* `selectNextIndex_least`: the first entry of the least loaded bucket.
* `drainLoop_stable`: the loop of a drain ends by itself.
* `queue_integrity_iff`: over every run the collections agree, every queued session has its bucket and its time,
  and no evicted one is queued, exactly when no admission that ends finds its session queued, and none that is
  to be tried again has lost its record.
* `evicted_in_queue`: three rejected wakes.
-/
import Mathlib.Algebra.Order.Ring.Int
import Mathlib.Data.List.Nodup
import Mathlib.Logic.Function.Basic
import AgentDesk.Containers
import AgentDesk.LeastIndex
import AgentDesk.Sessions

namespace AgentDesk

open Js

/-- Consecutive failed admissions before a session is evicted to the sweep. -/
def maxAdmissionFailures : ℕ := 3

/-- The module's collections. `failCounts` is 0 where the map has no entry. -/
structure Admission where
  queue : List String
  queued : String → Bool
  failCounts : String → ℕ
  firstQueuedAt : String → Option ℕ
  fairnessKeyOf : String → Option String

def Admission.empty : Admission := ⟨[], fun _ => false, fun _ => 0, fun _ => none, fun _ => none⟩

/-- The fairness bucket a session competes in. -/
def sessionFairnessKey (session : Session) : String :=
  if truthy session.ownerUserId then "user:" ++ session.ownerUserId.getD ""
  else if truthy session.messagingGroupId then "group:" ++ session.messagingGroupId.getD ""
  else "session:" ++ session.id

/-! ### Queueing -/

/-- `Map.set` of a key that may be there: what is there stays. -/
def setNew {α : Type} (m : String → Option α) (id : String) (v : α) : String → Option α :=
  Function.update m id (some ((m id).getD v))

def enqueueAdmission (a : Admission) (sessionId fairnessKey : String) (now : ℕ) : Admission :=
  if a.queued sessionId then a
  else { a with firstQueuedAt := setNew a.firstQueuedAt sessionId now
                fairnessKeyOf := setNew a.fairnessKeyOf sessionId fairnessKey
                queued := Function.update a.queued sessionId true
                queue := a.queue ++ [sessionId] }

def requeueTail (a : Admission) (sessionId : String) : Admission :=
  if a.queued sessionId then a
  else { a with queued := Function.update a.queued sessionId true, queue := a.queue ++ [sessionId] }

/-- To the front, wherever it is. -/
def requeueFront (a : Admission) (sessionId : String) : Admission :=
  { a with queued := Function.update a.queued sessionId true, queue := sessionId :: a.queue.erase sessionId }

/-- What the host knows when a session is to be woken. -/
structure WakeView where
  running : Bool
  inFlight : Bool
  activeCount : ℕ
  inflightCount : ℕ
  cap : ℕ

/-- What `wakeContainer` does to the queue: a wake that is turned away enqueues its session. -/
def wakeContainer (a : Admission) (session : Session) (view : WakeView) (now : ℕ) : Admission :=
  if view.running || view.inFlight || shouldAdmitWake view.activeCount view.inflightCount view.cap then a
  else enqueueAdmission a session.id (sessionFairnessKey session) now

/-! ### Admitting -/

/-- The slots the bucket of an entry holds; an entry without a bucket counts as unloaded. -/
def slotsOf (keyOf : String → Option String) (slotsHeldBy : String → ℕ) (id : String) : ℕ :=
  ((keyOf id).map slotsHeldBy).getD 0

/-- The loop of `selectNextIndex` from position `i`, with the best so far; `best` is none for infinity. -/
def selectFrom (load : String → ℕ) : List String → (i at' : ℕ) → (best : Option ℕ) → ℕ
  | [], _, at', _ => at'
  | id :: rest, i, at', best =>
    if best.all (load id < ·) then
      if load id = 0 then i else selectFrom load rest (i + 1) i (some (load id))
    else selectFrom load rest (i + 1) at' best

def selectNextIndex (entries : List String) (keyOf : String → Option String) (slotsHeldBy : String → ℕ) : ℕ :=
  selectFrom (slotsOf keyOf slotsHeldBy) entries 0 0 none

def pop (a : Admission) (slotsHeldBy : String → ℕ) : Admission × Option String :=
  let at' := selectNextIndex a.queue a.fairnessKeyOf slotsHeldBy
  match a.queue[at']? with
  | none => (a, none)
  | some id =>
    ({ a with queue := a.queue.eraseIdx at', queued := Function.update a.queued id false }, some id)

/-- The dependencies of a drain, but for the wake; a lookup is by id, and each may throw. -/
structure AdmissionDeps where
  getSession : String → Except String (Option Session)
  isRunning : Session → Except String Bool
  hasDueWork : Session → Except String Bool
  slotsHeldBy : String → ℕ
  getSession_id : ∀ {id : String} {s : Session}, getSession id = .ok (some s) → s.id = id

/-- The session of an entry, when it still needs a container. -/
def AdmissionDeps.candidate (deps : AdmissionDeps) (nextId : String) : Except String (Option Session) :=
  match deps.getSession nextId with
  | .error e => .error e
  | .ok none => .ok none
  | .ok (some next) =>
    if next.status ≠ .active then .ok none
    else match deps.isRunning next with
    | .error e => .error e
    | .ok true => .ok none
    | .ok false => match deps.hasDueWork next with
      | .error e => .error e
      | .ok due => .ok (if due then some next else none)

/-- What is known of a session that left the queue without a slot. -/
def Admission.forget (a : Admission) (id : String) : Admission :=
  { a with failCounts := Function.update a.failCounts id 0
           firstQueuedAt := Function.update a.firstQueuedAt id none
           fairnessKeyOf := Function.update a.fairnessKeyOf id none }

/-- The loop of a drain, at most `n` entries of it, and the session it admits. -/
def drainLoop (deps : AdmissionDeps) : ℕ → Admission → Admission × Option String
  | 0, a => (a, none)
  | n + 1, a => match pop a deps.slotsHeldBy with
    | (a, none) => (a, none)
    | (a, some nextId) =>
      if nextId = "" then (a, none)
      else match deps.candidate nextId with
      -- a probe that throws, or a stale entry: the slot is for the next one
      | .error _ | .ok none => drainLoop deps n (a.forget nextId)
      | .ok (some admitted) => (a, some admitted.id)

/-- Admit the next queued session into the slot that just freed. -/
def drainAdmissionSlot (deps : AdmissionDeps) (a : Admission) : Admission × Option String :=
  drainLoop deps a.queue.length a

/-- The wait of a session that got its slot is over. -/
def observeWait (a : Admission) (sessionId : String) : Admission :=
  match a.firstQueuedAt sessionId with
  | none => a
  | some _ => { a with firstQueuedAt := Function.update a.firstQueuedAt sessionId none
                       fairnessKeyOf := Function.update a.fairnessKeyOf sessionId none }

def Admission.recordFailure (a : Admission) (sessionId : String) : Admission :=
  let n := a.failCounts sessionId + 1
  if n = 1 then requeueFront { a with failCounts := Function.update a.failCounts sessionId n } sessionId
  else if n < maxAdmissionFailures then
    requeueTail { a with failCounts := Function.update a.failCounts sessionId n } sessionId
  else a.forget sessionId

def Admission.recordSuccess (a : Admission) (sessionId : String) : Admission :=
  observeWait { a with failCounts := Function.update a.failCounts sessionId 0 } sessionId

/-! ### Runs -/

/-- How a wake's promise ends. -/
inductive WakeOutcome where
  | resolved (ok : Bool) | rejected
  deriving DecidableEq

inductive AdmissionEvent where
  /-- Anyone wakes a session: the router, the sweep, or the drain that admitted it. -/
  | wake (session : Session) (view : WakeView) (now : ℕ)
  | drain (deps : AdmissionDeps)
  /-- The promise of the wake of an admitted session. -/
  | settle (sessionId : String) (outcome : WakeOutcome)

/-- The module, the admitted sessions whose wake has not come back, and the sessions evicted and not queued
again since (which no code reads). -/
structure AdmissionDesk where
  admission : Admission
  admitted : List String
  evicted : String → Bool

def AdmissionDesk.empty : AdmissionDesk := ⟨.empty, [], fun _ => false⟩

/-- The failure the next one would be is the last. -/
def Admission.lastFailure (a : Admission) (sessionId : String) : Bool :=
  decide (maxAdmissionFailures ≤ a.failCounts sessionId + 1)

def admissionStep (st : AdmissionDesk) : AdmissionEvent → Option AdmissionDesk
  | .wake session view now =>
    let a := wakeContainer st.admission session view now
    some { st with admission := a
                   evicted := if a.queue = st.admission.queue then st.evicted
                     else Function.update st.evicted session.id false }
  | .drain deps =>
    let (a, admitted) := drainAdmissionSlot deps st.admission
    some { st with admission := a, admitted := st.admitted ++ admitted.toList }
  | .settle id outcome =>
    if id ∈ st.admitted then
      let st := { st with admitted := st.admitted.erase id }
      if outcome = .resolved true then some { st with admission := st.admission.recordSuccess id }
      else some { st with admission := st.admission.recordFailure id
                          evicted := Function.update st.evicted id (st.admission.lastFailure id) }
    else none

/-- The queue has no duplicates and is what the set says; each queued session has its bucket and its time; no
evicted session is in it. -/
structure QueueIntegrity (st : AdmissionDesk) : Prop where
  nodup : st.admission.queue.Nodup
  queued : ∀ id, st.admission.queued id = true ↔ id ∈ st.admission.queue
  key : ∀ id ∈ st.admission.queue, (st.admission.fairnessKeyOf id).isSome = true
  time : ∀ id ∈ st.admission.queue, (st.admission.firstQueuedAt id).isSome = true
  evicted : ∀ id ∈ st.admission.queue, st.evicted id = false

/-- A session has its bucket and its time. -/
def Admission.Recorded (a : Admission) (id : String) : Prop :=
  (a.fairnessKeyOf id).isSome = true ∧ (a.firstQueuedAt id).isSome = true

/-- The event is not an admission that ends, by success or by its last failure, while its session is queued
again, nor one that is to be tried again without being queued or having kept its record. -/
def EndsUnqueued (st : AdmissionDesk) : AdmissionEvent → Prop
  | .settle id outcome =>
    if outcome = .resolved true ∨ st.admission.lastFailure id = true then id ∉ st.admission.queue
    else id ∈ st.admission.queue ∨ st.admission.Recorded id
  | _ => True

/-! ### Which entry is next -/

/-- `r` is the first position of a least loaded entry. -/
def FirstLeast (load : String → ℕ) (l : List String) (r : ℕ) : Prop :=
  ∃ id, l[r]? = some id ∧ ∀ j id', l[j]? = some id' → load id ≤ load id' ∧ (j < r → load id < load id')

theorem selectFrom_eq_scan (load : String → ℕ) (l : List String) (i r : ℕ) (best : Option ℕ) :
    selectFrom load l i r best = LeastIndex.scan load l i r best := by
  induction l generalizing i r best with
  | nil => rfl
  | cons id rest ih => simp only [selectFrom, LeastIndex.scan, ih]

/-- **The next entry is the first of the least loaded.** -/
theorem selectNextIndex_least {entries : List String} (hne : entries ≠ []) (keyOf : String → Option String)
    (slotsHeldBy : String → ℕ) :
    FirstLeast (slotsOf keyOf slotsHeldBy) entries (selectNextIndex entries keyOf slotsHeldBy) := by
  rw [selectNextIndex, selectFrom_eq_scan]
  exact LeastIndex.scan_first (fun _ => Nat.zero_le _) entries [] 0 none (fun _ => rfl) (fun _ hb => nomatch hb) hne

theorem pop_cases (a : Admission) (slotsHeldBy : String → ℕ) :
    (a.queue = [] ∧ pop a slotsHeldBy = (a, none)) ∨
    ∃ id i, a.queue[i]? = some id ∧ pop a slotsHeldBy =
      ({ a with queue := a.queue.eraseIdx i, queued := Function.update a.queued id false }, some id) := by
  by_cases hne : a.queue = []
  · exact .inl ⟨hne, by simp [pop, hne]⟩
  · obtain ⟨id, hid, -⟩ := selectNextIndex_least hne a.fairnessKeyOf slotsHeldBy
    exact .inr ⟨id, _, hid, by simp [pop, hid]⟩

/-- More turns than the queue has entries change nothing. -/
theorem drainLoop_stable (deps : AdmissionDeps) {n : ℕ} {a : Admission} (hn : a.queue.length ≤ n) :
    drainLoop deps n a = drainAdmissionSlot deps a := by
  unfold drainAdmissionSlot
  induction n using Nat.strongRecOn generalizing a with
  | ind n ih =>
    cases n with
    | zero => rw [Nat.le_zero.mp hn]
    | succ n =>
      rcases pop_cases a deps.slotsHeldBy with ⟨hq, hp⟩ | ⟨id, i, hi, hp⟩
      · rw [hq, List.length_nil, drainLoop, drainLoop, hp]
      · obtain ⟨hlt, -⟩ := List.getElem?_eq_some_iff.mp hi
        obtain ⟨k, hk⟩ := Nat.exists_eq_add_of_lt hlt
        have hlen : a.queue.length = i + k + 1 := hk
        have hshort : (a.queue.eraseIdx i).length = i + k := by
          rw [List.length_eraseIdx_of_lt hlt, hlen, Nat.add_sub_cancel]
        rw [hlen, drainLoop, drainLoop, hp]
        simp only
        split
        · rfl
        · split
          -- the entry is dropped, and the queue is shorter
          · rw [ih n (Nat.lt_succ_self n), ih (i + k) (by omega)]
            · exact hshort.le
            · exact hshort.trans_le (by omega)
          · rw [ih n (Nat.lt_succ_self n), ih (i + k) (by omega)]
            · exact hshort.le
            · exact hshort.trans_le (by omega)
          · rfl

/-! ### What keeps the queue in order -/

/-- The part of the invariant that is about the module and the evicted sessions. -/
structure Admission.Sound (a : Admission) (evicted : String → Bool) : Prop where
  nodup : a.queue.Nodup
  queued : ∀ id, a.queued id = true ↔ id ∈ a.queue
  recorded : ∀ id ∈ a.queue, a.Recorded id
  evicted : ∀ id ∈ a.queue, evicted id = false

theorem queueIntegrity_iff {st : AdmissionDesk} : QueueIntegrity st ↔ st.admission.Sound st.evicted :=
  ⟨fun h => ⟨h.nodup, h.queued, fun id hid => ⟨h.key id hid, h.time id hid⟩, h.evicted⟩,
    fun h => ⟨h.nodup, h.queued, fun id hid => (h.recorded id hid).1, fun id hid => (h.recorded id hid).2,
      h.evicted⟩⟩

variable {a a' : Admission} {evicted : String → Bool} {id : String}

theorem Admission.Sound.update (h : a.Sound evicted) (hid : id ∉ a.queue) (failCounts : String → ℕ)
    (time : Option ℕ) (key : Option String) (b : Bool) :
    { a with failCounts := failCounts
             firstQueuedAt := Function.update a.firstQueuedAt id time
             fairnessKeyOf := Function.update a.fairnessKeyOf id key }.Sound (Function.update evicted id b) := by
  have hne : ∀ x ∈ a.queue, x ≠ id := fun x hx he => hid (he ▸ hx)
  refine ⟨h.nodup, h.queued, fun x hx => ?_, fun x hx => ?_⟩
  · have hrec := h.recorded x hx
    unfold Admission.Recorded at hrec ⊢
    simpa only [Function.update_of_ne (hne x hx)] using hrec
  · rw [Function.update_of_ne (hne x hx)]
    exact h.evicted x hx

theorem Admission.Sound.pop (h : a.Sound evicted) {i : ℕ} (hi : a.queue[i]? = some id) :
    { a with queue := a.queue.eraseIdx i, queued := Function.update a.queued id false }.Sound evicted ∧
      id ∉ a.queue.eraseIdx i := by
  obtain ⟨hlt, hget⟩ := List.getElem?_eq_some_iff.mp hi
  have herase : a.queue.eraseIdx i = a.queue.erase id := by rw [← hget, h.nodup.erase_getElem]
  have hmem : ∀ x, x ∈ a.queue.eraseIdx i ↔ x ≠ id ∧ x ∈ a.queue := by
    intro x
    rw [herase, h.nodup.mem_erase_iff]
  refine ⟨⟨h.nodup.eraseIdx i, fun x => ?_, fun x hx => ?_, fun x hx => ?_⟩, fun hid => ((hmem id).mp hid).1 rfl⟩
  · show Function.update a.queued id false x = true ↔ x ∈ a.queue.eraseIdx i
    rw [hmem]
    by_cases hx : x = id
    · simp [hx]
    · rw [Function.update_of_ne hx, h.queued]
      simp [hx]
  · exact h.recorded x ((hmem x).mp hx).2
  · exact h.evicted x ((hmem x).mp hx).2

theorem Admission.Sound.enter (h : a.Sound evicted) (hnodup : a'.queue.Nodup)
    (hmem : ∀ x, x ∈ a'.queue ↔ x = id ∨ x ∈ a.queue) (hqueued : a'.queued = Function.update a.queued id true)
    (hrest : ∀ x, x ≠ id → a.Recorded x → a'.Recorded x) (hid : a'.Recorded id) :
    a'.Sound (Function.update evicted id false) := by
  refine ⟨hnodup, fun x => ?_, fun x hx => ?_, fun x hx => ?_⟩
  · rw [hqueued, hmem]
    by_cases hx : x = id
    · simp [hx]
    · rw [Function.update_of_ne hx, h.queued]
      simp [hx]
  · by_cases hxid : x = id
    · exact hxid ▸ hid
    · exact hrest x hxid (h.recorded x (((hmem x).mp hx).resolve_left hxid))
  · by_cases hxid : x = id
    · rw [hxid, Function.update_self]
    · rw [Function.update_of_ne hxid]
      exact h.evicted x (((hmem x).mp hx).resolve_left hxid)

theorem nodup_snoc {l : List String} (hl : l.Nodup) (hid : id ∉ l) : (l ++ [id]).Nodup := by
  rw [← List.concat_eq_append]
  exact hl.concat hid

theorem Admission.Sound.not_mem (h : a.Sound evicted) (hno : ¬ a.queued id = true) : id ∉ a.queue :=
  fun hmem => hno ((h.queued id).mpr hmem)

theorem Admission.Sound.of_mem (h : a.Sound evicted) (hid : id ∈ a.queue) :
    a.Sound (Function.update evicted id false) := by
  rw [← h.evicted id hid, Function.update_eq_self]
  exact h

theorem Admission.Sound.enqueue (h : a.Sound evicted) (key : String) (now : ℕ) :
    (enqueueAdmission a id key now).Sound
      (if (enqueueAdmission a id key now).queue = a.queue then evicted else Function.update evicted id false) := by
  by_cases hq : a.queued id = true
  · have hsame : enqueueAdmission a id key now = a := if_pos hq
    rw [hsame, if_pos rfl]
    exact h
  · have hmem := h.not_mem hq
    have hnew : (enqueueAdmission a id key now).queue = a.queue ++ [id] := by simp [enqueueAdmission, hq]
    rw [if_neg (by simp [hnew])]
    refine h.enter ?_ (fun x => ?_) ?_ (fun x hx hrec => ?_) ?_
    · rw [hnew]
      exact nodup_snoc h.nodup hmem
    · rw [hnew, List.mem_append, List.mem_singleton, or_comm]
    · simp [enqueueAdmission, hq]
    · unfold Admission.Recorded at hrec ⊢
      simpa [enqueueAdmission, hq, setNew, Function.update_of_ne hx] using hrec
    · simp [Admission.Recorded, enqueueAdmission, hq, setNew]

theorem Admission.Sound.requeueTail_iff (h : a.Sound evicted) :
    (requeueTail a id).Sound (Function.update evicted id false) ↔ id ∈ a.queue ∨ a.Recorded id := by
  by_cases hq : a.queued id = true
  · have hsame : requeueTail a id = a := if_pos hq
    have hid := (h.queued id).mp hq
    rw [hsame]
    exact ⟨fun _ => .inl hid, fun _ => h.of_mem hid⟩
  · have hmem := h.not_mem hq
    have hnew : requeueTail a id =
        { a with queued := Function.update a.queued id true, queue := a.queue ++ [id] } := if_neg hq
    rw [hnew]
    constructor
    · intro h'
      exact .inr (h'.recorded id (by simp))
    · intro hrec
      refine h.enter (nodup_snoc h.nodup hmem) (fun x => ?_) rfl (fun x _ hx => hx) (hrec.resolve_left hmem)
      rw [List.mem_append, List.mem_singleton, or_comm]

theorem Admission.Sound.requeueFront_iff (h : a.Sound evicted) :
    (requeueFront a id).Sound (Function.update evicted id false) ↔ id ∈ a.queue ∨ a.Recorded id := by
  constructor
  · intro h'
    exact .inr (h'.recorded id (.head _))
  · intro hrec
    have hid : a.Recorded id := hrec.elim (h.recorded id) fun hid => hid
    refine h.enter ?_ (fun x => ?_) rfl (fun x _ hx => hx) hid
    · exact List.nodup_cons.mpr ⟨h.nodup.not_mem_erase, h.nodup.erase id⟩
    · show x ∈ id :: a.queue.erase id ↔ _
      rw [List.mem_cons, h.nodup.mem_erase_iff]
      by_cases hx : x = id <;> simp [hx]

theorem Admission.Sound.forget (h : a.Sound evicted) (hid : id ∉ a.queue) (b : Bool) :
    (a.forget id).Sound (Function.update evicted id b) :=
  h.update hid _ none none b

theorem Admission.Sound.drainLoop (deps : AdmissionDeps) (n : ℕ) (h : a.Sound evicted) :
    (drainLoop deps n a).1.Sound evicted := by
  induction n generalizing a with
  | zero => exact h
  | succ n ih =>
    rcases pop_cases a deps.slotsHeldBy with ⟨-, hp⟩ | ⟨id, i, hi, hp⟩
    · rw [AgentDesk.drainLoop, hp]
      exact h
    · obtain ⟨hpop, hid⟩ := h.pop hi
      have hdrop := hpop.forget hid (evicted id)
      rw [Function.update_eq_self] at hdrop
      rw [AgentDesk.drainLoop, hp]
      simp only
      split
      · exact hpop
      · split
        · exact ih hdrop
        · exact ih hdrop
        · exact hpop

theorem recordFailure_retry (h : a.Sound evicted) (hlast : a.lastFailure id = false) :
    (a.recordFailure id).Sound (Function.update evicted id false) ↔ id ∈ a.queue ∨ a.Recorded id := by
  have hcount : ∀ f : String → ℕ, { a with failCounts := f }.Sound evicted := fun _ =>
    ⟨h.nodup, h.queued, h.recorded, h.evicted⟩
  have hlt : a.failCounts id + 1 < maxAdmissionFailures := by simpa [Admission.lastFailure] using hlast
  unfold Admission.recordFailure
  by_cases hfirst : a.failCounts id + 1 = 1
  · simp only [if_pos hfirst]
    exact (hcount _).requeueFront_iff
  · simp only [if_neg hfirst, if_pos hlt]
    exact (hcount _).requeueTail_iff

theorem recordFailure_last (h : a.Sound evicted) (hlast : a.lastFailure id = true) :
    (a.recordFailure id).Sound (Function.update evicted id true) ↔ id ∉ a.queue := by
  have hge : maxAdmissionFailures ≤ a.failCounts id + 1 := by simpa [Admission.lastFailure] using hlast
  have hthree : maxAdmissionFailures = 3 := rfl
  have hforget : a.recordFailure id = a.forget id := by
    unfold Admission.recordFailure
    simp only
    rw [if_neg (by omega), if_neg (by omega)]
  rw [hforget]
  constructor
  · intro h' hid
    have hev := h'.evicted id hid
    rw [Function.update_self] at hev
    cases hev
  · intro hid
    exact h.forget hid true

theorem recordSuccess_iff (h : a.Sound evicted) : (a.recordSuccess id).Sound evicted ↔ id ∉ a.queue := by
  have hcount : ∀ f : String → ℕ, { a with failCounts := f }.Sound evicted := fun _ =>
    ⟨h.nodup, h.queued, h.recorded, h.evicted⟩
  unfold Admission.recordSuccess observeWait
  simp only
  split
  · rename_i hnone
    refine ⟨fun _ hid => ?_, fun _ => hcount _⟩
    have htime := (h.recorded id hid).2
    rw [hnone] at htime
    cases htime
  · constructor
    · intro h' hid
      have htime := (h'.recorded id hid).2
      simp only [Function.update_self] at htime
      cases htime
    · intro hid
      have hupd := (hcount (Function.update a.failCounts id 0)).forget hid (evicted id)
      rw [Function.update_eq_self] at hupd
      exact ⟨hupd.nodup, hupd.queued, hupd.recorded, hupd.evicted⟩

theorem queueIntegrity_step (st : AdmissionDesk) (e : AdmissionEvent) (st' : AdmissionDesk) (hI : QueueIntegrity st)
    (hs : admissionStep st e = some st') : QueueIntegrity st' ↔ EndsUnqueued st e := by
  have h := queueIntegrity_iff.mp hI
  rw [queueIntegrity_iff]
  cases e with
  | wake session view now =>
    obtain rfl := Option.some.inj hs
    refine ⟨fun _ => trivial, fun _ => ?_⟩
    simp only [wakeContainer]
    split
    · rw [if_pos rfl]
      exact h
    · exact h.enqueue _ _
  | drain deps =>
    obtain rfl := Option.some.inj hs
    exact ⟨fun _ => trivial, fun _ => h.drainLoop deps _⟩
  | settle id outcome =>
    simp only [admissionStep] at hs
    split at hs
    · split at hs <;> rename_i hout
      · obtain rfl := Option.some.inj hs
        simp only [EndsUnqueued, hout, true_or, if_true]
        exact recordSuccess_iff h
      · obtain rfl := Option.some.inj hs
        simp only [EndsUnqueued, hout, false_or]
        split <;> rename_i hlast
        · rw [hlast]
          exact recordFailure_last h hlast
        · rw [Bool.eq_false_iff.mpr hlast]
          exact recordFailure_retry h (Bool.eq_false_iff.mpr hlast)
    · cases hs

/-! ### Runs -/

/-- **When the queue stays in order.** In every state of a run from the empty queue, it has no duplicates, is what
the set says, every session in it has its bucket and its time, and none was evicted, exactly when in every step
of the run an admission that ends does not find its session queued, and one that is to be tried again finds it
queued or recorded. -/
theorem queue_integrity_iff {es : List AdmissionEvent} {st : AdmissionDesk}
    (hrun : Trans.run admissionStep AdmissionDesk.empty es = some st) :
    Trans.Always admissionStep QueueIntegrity AdmissionDesk.empty es ↔
      Trans.Along admissionStep EndsUnqueued AdmissionDesk.empty es :=
  Trans.always_iff_along (I := fun _ => True) (fun _ _ _ _ _ => trivial)
    (fun st e st' _ => queueIntegrity_step st e st') trivial
    ⟨List.nodup_nil, fun _ => ⟨fun h => (nomatch h), fun h => (nomatch h)⟩, fun _ h => (nomatch h),
      fun _ h => (nomatch h), fun _ h => (nomatch h)⟩ hrun

/-! ### A session whose wakes find no slot -/

def waitingSession : Session :=
  { id := "s", agentGroupId := "ag", messagingGroupId := some "mg", threadId := none, ownerUserId := none,
    rootSessionId := none, conversationThreadId := none, status := .active, spawnDepth := 0, createdAt := 0 }

/-- The one session there is, with due work and no container. -/
def waitingDeps : AdmissionDeps where
  getSession id := .ok (if id = "s" then some waitingSession else none)
  isRunning _ := .ok false
  hasDueWork _ := .ok true
  slotsHeldBy _ := 0
  getSession_id := by
    intro id s h
    split at h
    · rename_i hid
      cases h
      exact hid.symm
    · cases h

/-- Every slot is taken. -/
def fullView : WakeView := ⟨false, false, 1, 0, 1⟩

/-- A slot is freed, but the wake of the admitted session finds it taken again. -/
def lostRace : List AdmissionEvent :=
  [.drain waitingDeps, .wake waitingSession fullView 1, .settle "s" (.resolved false)]

/-- A wake that is turned away, then admitted: the queue is in order all the way. -/
theorem queue_integrity_iff_sample :
    ∃ st, Trans.run admissionStep AdmissionDesk.empty
        [.wake waitingSession fullView 0, .drain waitingDeps, .settle "s" (.resolved true)] = some st ∧
      (Trans.Always admissionStep QueueIntegrity AdmissionDesk.empty
          [.wake waitingSession fullView 0, .drain waitingDeps, .settle "s" (.resolved true)] ↔
        Trans.Along admissionStep EndsUnqueued AdmissionDesk.empty
          [.wake waitingSession fullView 0, .drain waitingDeps, .settle "s" (.resolved true)]) := by
  have hrun : Trans.run admissionStep AdmissionDesk.empty
      [.wake waitingSession fullView 0, .drain waitingDeps, .settle "s" (.resolved true)] = some _ := rfl
  exact ⟨_, hrun, queue_integrity_iff hrun⟩

/-- Three lost races: the session is evicted and in the queue, without a bucket and without a time. -/
theorem evicted_in_queue :
    ∃ st, Trans.run admissionStep AdmissionDesk.empty
        (.wake waitingSession fullView 0 :: (lostRace ++ (lostRace ++ lostRace))) = some st ∧
      st.admission.queue = ["s"] ∧ st.evicted "s" = true ∧ st.admission.fairnessKeyOf "s" = none ∧
      st.admission.firstQueuedAt "s" = none := by
  have hrun : Trans.run admissionStep AdmissionDesk.empty
      (.wake waitingSession fullView 0 :: (lostRace ++ (lostRace ++ lostRace))) = some _ := rfl
  exact ⟨_, hrun, by decide, by decide, by decide, by decide⟩

end AgentDesk
