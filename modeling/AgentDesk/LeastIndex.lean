/-
# The first of the least

A loop over a list keeps the least value so far and where it was, starts with infinity, and stops at zero. Where no
value is below zero it ends at the first position of a least value.

* `First`: the first position of a least value.
* `scan_first`: the loop finds it; the invariant is that it has found it for what it has seen.
-/
import Mathlib.Order.Lattice
import Mathlib.Data.List.Basic

namespace LeastIndex

variable {α L : Type*} [LinearOrder L] {value : α → L}

/-- `r` is the first position of a least value. -/
def First (value : α → L) (l : List α) (r : ℕ) : Prop :=
  ∃ x, l[r]? = some x ∧ ∀ j y, l[j]? = some y → value x ≤ value y ∧ (j < r → value x < value y)

/-- The loop from position `i`, with the best so far; `best` is none for infinity. -/
def scan [Zero L] (value : α → L) : List α → (i at' : ℕ) → (best : Option L) → ℕ
  | [], _, at', _ => at'
  | x :: rest, i, at', best =>
    if best.all (value x < ·) then
      if value x = 0 then i else scan value rest (i + 1) i (some (value x))
    else scan value rest (i + 1) at' best

theorem First.intro {seen rest : List α} {x : α} (hseen : ∀ y ∈ seen, value x < value y)
    (hrest : ∀ y ∈ rest, value x ≤ value y) : First value (seen ++ x :: rest) seen.length := by
  refine ⟨x, by simp, fun j y hj => ?_⟩
  rcases Nat.lt_trichotomy j seen.length with hlt | rfl | hgt
  · rw [List.getElem?_append_left hlt] at hj
    have hy := hseen y (List.mem_of_getElem? hj)
    exact ⟨hy.le, fun _ => hy⟩
  · have hy : x = y := by simpa using hj
    exact ⟨hy ▸ le_rfl, fun h => absurd h (Nat.lt_irrefl _)⟩
  · rw [List.getElem?_append_right (Nat.le_of_lt hgt), List.getElem?_cons, if_neg (by omega)] at hj
    exact ⟨hrest y (List.mem_of_getElem? hj), fun h => by omega⟩

theorem First.snoc {seen : List α} {r : ℕ} {x y : α} (h : First value seen r) (hr : seen[r]? = some x)
    (hxy : value x ≤ value y) : First value (seen ++ [y]) r := by
  obtain ⟨x₀, h₀, hleast⟩ := h
  obtain rfl : x₀ = x := Option.some.inj (h₀.symm.trans hr)
  have hlt : r < seen.length := (List.getElem?_eq_some_iff.mp hr).1
  refine ⟨x₀, by rw [List.getElem?_append_left hlt, hr], fun j z hj => ?_⟩
  rcases Nat.lt_or_ge j seen.length with hj' | hj'
  · rw [List.getElem?_append_left hj'] at hj
    exact hleast j z hj
  · have hz : z = y := by
      rw [List.getElem?_append_right hj'] at hj
      exact List.mem_singleton.mp (List.mem_of_getElem? hj)
    exact ⟨hz ▸ hxy, fun h => by omega⟩

/-- Where all values are the same the first position is the first of all. -/
theorem First.eq_zero {l : List α} {r : ℕ} (h : First value l r) (hsame : ∀ x ∈ l, ∀ y ∈ l, value x = value y) :
    r = 0 := by
  obtain ⟨x, hx, hleast⟩ := h
  by_contra hr
  have hlt : r < l.length := (List.getElem?_eq_some_iff.mp hx).1
  obtain ⟨y, hfirst⟩ : ∃ y, l[0]? = some y := ⟨_, List.getElem?_eq_getElem (by omega)⟩
  have hless := (hleast 0 y hfirst).2 (Nat.pos_of_ne_zero hr)
  exact absurd (hsame x (List.mem_of_getElem? hx) y (List.mem_of_getElem? hfirst)) hless.ne

/-- The loop, with what it has seen: its best so far is the first least of that. -/
theorem scan_first [Zero L] (hnonneg : ∀ x, 0 ≤ value x) (rest seen : List α) (r : ℕ) (best : Option L)
    (hnone : best = none → seen = [])
    (hsome : ∀ b, best = some b → First value seen r ∧ ∃ x, seen[r]? = some x ∧ value x = b)
    (hne : seen ++ rest ≠ []) : First value (seen ++ rest) (scan value rest seen.length r best) := by
  induction rest generalizing seen r best with
  | nil =>
    rw [List.append_nil] at hne ⊢
    cases best with
    | none => exact (hne (hnone rfl)).elim
    | some b => exact (hsome b rfl).1
  | cons x rest ih =>
    have hshift : seen ++ x :: rest = (seen ++ [x]) ++ rest := by simp
    have hlen : (seen ++ [x]).length = seen.length + 1 := by simp
    unfold scan
    split
    · rename_i hbetter
      have hseen : ∀ y ∈ seen, value x < value y := by
        intro y hy
        cases best with
        | none =>
          rw [hnone rfl] at hy
          cases hy
        | some b =>
          obtain ⟨⟨x₀, h₀, hleast⟩, x₁, h₁, rfl⟩ := hsome b rfl
          obtain rfl : x₀ = x₁ := Option.some.inj (h₀.symm.trans h₁)
          obtain ⟨j, hj⟩ := List.getElem?_of_mem hy
          have hb : value x < value x₀ := by simpa using hbetter
          exact lt_of_lt_of_le hb (hleast j y hj).1
      split
      · rename_i hzero
        exact First.intro hseen fun y _ => hzero ▸ hnonneg y
      · rw [hshift, ← hlen]
        refine ih _ _ _ (fun h => by cases h) (fun b hb => ?_) (by simp)
        obtain rfl : value x = b := Option.some.inj hb
        have hleast : First value (seen ++ [x]) seen.length := First.intro hseen fun y hy => (nomatch hy)
        exact ⟨hleast, x, by simp, rfl⟩
    · rename_i hworse
      rw [hshift, ← hlen]
      refine ih _ _ _ (fun h => ?_) (fun b hb => ?_) (by simp)
      · subst h
        exact (hworse rfl).elim
      · obtain ⟨hleast, x₁, h₁, rfl⟩ := hsome b hb
        have hle : value x₁ ≤ value x := by simpa [hb] using hworse
        have hlt : r < seen.length := (List.getElem?_eq_some_iff.mp h₁).1
        exact ⟨hleast.snoc h₁ hle, x₁, by rw [List.getElem?_append_left hlt, h₁], rfl⟩

end LeastIndex
