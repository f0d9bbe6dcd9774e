/-
# Fair admission

`src/admission-queue.ts`: `selectNextIndex` reads any entries, buckets and loads, and `pop` takes the entry it
names out of the queue, the first one where it is given no loads.

For loads that are not negative it names the first entry of the least loaded bucket, where an entry without a
bucket counts as unloaded. So with equal loads the queue is first in, first out; and the other entries keep their
order.

* `selectNextIndex_eq`: the selection of the drain is this one, at the numbers of slots.
* `fair_admission`: the claim over all entries, buckets and loads.
-/
import AgentDesk.AdmissionQueue

namespace AgentDesk.FairAdmission

variable {L : Type*} [LinearOrder L] [Zero L]

/-- What an entry's bucket holds; an entry without one is unloaded. -/
def slotsOf (keyOf : String → Option String) (slotsHeldBy : String → L) (id : String) : L :=
  ((keyOf id).map slotsHeldBy).getD 0

def selectNextIndex (entries : List String) (keyOf : String → Option String) (slotsHeldBy : String → L) : ℕ :=
  LeastIndex.scan (slotsOf keyOf slotsHeldBy) entries 0 0 none

/-- The loads are an argument that may be left out. -/
def pop (a : Admission) (slotsHeldBy : Option (String → L)) : Admission × Option String :=
  let at' := match slotsHeldBy with
    | some held => selectNextIndex a.queue a.fairnessKeyOf held
    | none => 0
  match a.queue[at']? with
  | none => (a, none)
  | some id => ({ a with queue := a.queue.eraseIdx at', queued := Function.update a.queued id false }, some id)

/-! ### The selection of the drain -/

/-- Where loads are numbers of slots, this is the selection the runs of the queue go by. -/
theorem selectNextIndex_eq (entries : List String) (keyOf : String → Option String) (slotsHeldBy : String → ℕ) :
    AgentDesk.selectNextIndex entries keyOf slotsHeldBy = selectNextIndex entries keyOf slotsHeldBy :=
  selectFrom_eq_scan _ _ _ _ _

theorem pop_eq (a : Admission) (slotsHeldBy : String → ℕ) :
    AgentDesk.pop a slotsHeldBy = pop a (some slotsHeldBy) := by
  rw [AgentDesk.pop, selectNextIndex_eq]
  rfl

/-! ### The least loaded, and the rest in order -/

theorem slotsOf_nonneg (keyOf : String → Option String) {slotsHeldBy : String → L} (h : ∀ key, 0 ≤ slotsHeldBy key)
    (id : String) : 0 ≤ slotsOf keyOf slotsHeldBy id := by
  unfold slotsOf
  cases keyOf id with
  | none => exact le_rfl
  | some key => exact h key

theorem selectNextIndex_first {entries : List String} (hne : entries ≠ []) (keyOf : String → Option String)
    {slotsHeldBy : String → L} (h : ∀ key, 0 ≤ slotsHeldBy key) :
    LeastIndex.First (slotsOf keyOf slotsHeldBy) entries (selectNextIndex entries keyOf slotsHeldBy) :=
  LeastIndex.scan_first (slotsOf_nonneg keyOf h) entries [] 0 none (fun _ => rfl) (fun _ hb => nomatch hb) hne

theorem pop_spec (a : Admission) (slotsHeldBy : String → L) {id : String}
    (hid : a.queue[selectNextIndex a.queue a.fairnessKeyOf slotsHeldBy]? = some id) :
    ∃ before after, a.queue = before ++ id :: after ∧
      before.length = selectNextIndex a.queue a.fairnessKeyOf slotsHeldBy ∧
      pop a (some slotsHeldBy) =
        ({ a with queue := before ++ after, queued := Function.update a.queued id false }, some id) := by
  set r := selectNextIndex a.queue a.fairnessKeyOf slotsHeldBy with hr
  obtain ⟨hlt, hget⟩ := List.getElem?_eq_some_iff.mp hid
  have hsplit : a.queue = a.queue.take r ++ id :: a.queue.drop (r + 1) := by
    rw [← hget, ← List.drop_eq_getElem_cons hlt, List.take_append_drop]
  have hlen : (a.queue.take r).length = r := by
    rw [List.length_take]
    omega
  have hpop : pop a (some slotsHeldBy) =
      ({ a with queue := a.queue.eraseIdx r, queued := Function.update a.queued id false }, some id) := by
    simp only [pop, ← hr, hid]
  rw [List.eraseIdx_eq_take_drop_succ] at hpop
  exact ⟨_, _, hsplit, hlen, hpop⟩

/-- **Fair admission.** For every non-empty list of entries, buckets and loads that are not negative, the position
selected is the first of a least load, so the front when all loads are equal; and in every state with these entries
and buckets `pop` takes exactly that entry out of the queue and the set, and the others keep their order. -/
theorem fair_admission {entries : List String} (hne : entries ≠ []) (keyOf : String → Option String)
    {slotsHeldBy : String → L} (hnonneg : ∀ key, 0 ≤ slotsHeldBy key) :
    LeastIndex.First (slotsOf keyOf slotsHeldBy) entries (selectNextIndex entries keyOf slotsHeldBy) ∧
    ((∀ x ∈ entries, ∀ y ∈ entries, slotsOf keyOf slotsHeldBy x = slotsOf keyOf slotsHeldBy y) →
      selectNextIndex entries keyOf slotsHeldBy = 0) ∧
    ∀ a : Admission, a.queue = entries → a.fairnessKeyOf = keyOf →
      ∃ before id after, entries = before ++ id :: after ∧
        before.length = selectNextIndex entries keyOf slotsHeldBy ∧
        pop a (some slotsHeldBy) =
          ({ a with queue := before ++ after, queued := Function.update a.queued id false }, some id) := by
  have hfirst := selectNextIndex_first hne keyOf hnonneg
  refine ⟨hfirst, hfirst.eq_zero, fun a hq hk => ?_⟩
  subst hq hk
  obtain ⟨id, hid, -⟩ := hfirst
  obtain ⟨before, after, h⟩ := pop_spec a slotsHeldBy hid
  exact ⟨before, id, after, h⟩

/-- The buckets of three entries, the last of them unknown. -/
def sampleKeys : String → Option String := fun id =>
  if id = "a" then some "user:u" else if id = "b" then some "user:v" else none

/-- Two loaded buckets, and an entry without one behind them. -/
theorem fair_admission_unknown :
    selectNextIndex ["a", "b", "c"] sampleKeys (fun _ => (1 : ℤ)) = 2 ∧
    LeastIndex.First (slotsOf sampleKeys fun _ => (1 : ℤ)) ["a", "b", "c"] 2 :=
  have hat : selectNextIndex ["a", "b", "c"] sampleKeys (fun _ => (1 : ℤ)) = 2 := by decide
  have hne : ["a", "b", "c"] ≠ [] := by simp
  ⟨hat, hat ▸ (fair_admission hne sampleKeys fun _ => Int.one_nonneg).1⟩

end AgentDesk.FairAdmission
