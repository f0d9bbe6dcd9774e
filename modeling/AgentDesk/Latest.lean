/-
# The newest rows of a table

`SELECT … ORDER BY key DESC LIMIT n`: the `n` rows with the greatest keys. Where no two rows share a
key, a row is among them exactly when fewer than `n` rows have a greater one.

Key theorems: `Latest.mem_latest_iff`.
-/
import Mathlib.Data.List.Sort

namespace Latest

variable {α : Type*} (key : α → ℕ)

/-- The rows of `l` in the order of their keys, greatest first, cut after `n`. -/
def latest (n : ℕ) (l : List α) : List α := (l.insertionSort fun a b => key b ≤ key a).take n

/-- How many rows of `l` have a greater key than `a`. -/
def newer (l : List α) (a : α) : ℕ := l.countP fun b => key a < key b

variable {key}

theorem mem_take_iff : ∀ {l : List α} {n : ℕ} {a : α}, l.Pairwise (fun x y => key y < key x) →
    (a ∈ l.take n ↔ a ∈ l ∧ newer key l a < n)
  | [], n, a, _ => by simp
  | b :: l, 0, a, _ => by simp
  | b :: l, n + 1, a, hsorted => by
    obtain ⟨hhead, htail⟩ := List.pairwise_cons.mp hsorted
    have ih := mem_take_iff (n := n) (a := a) htail
    unfold newer at ih ⊢
    rw [List.take_succ_cons, List.mem_cons, List.mem_cons, ih]
    by_cases hab : a = b
    · subst hab
      have hnone : List.countP (fun x => decide (key a < key x)) (a :: l) = 0 := by
        rw [List.countP_eq_zero]
        intro x hx
        rcases List.mem_cons.mp hx with rfl | hx
        · simp
        · have := hhead x hx
          simp only [decide_eq_true_eq]
          omega
      simp [hnone]
    · by_cases ha : a ∈ l
      · have hlt : key a < key b := hhead a ha
        rw [List.countP_cons_of_pos (by simpa using hlt)]
        simp only [hab, ha, false_or, true_and]
        omega
      · simp [hab, ha]

/-- With distinct keys, a row is among the newest `n` exactly when fewer than `n` are newer. -/
theorem mem_latest_iff {l : List α} (hnd : (l.map key).Nodup) {n : ℕ} {a : α} :
    a ∈ latest key n l ↔ a ∈ l ∧ newer key l a < n := by
  have hperm : (l.insertionSort fun a b => key b ≤ key a).Perm l := List.perm_insertionSort _ l
  have hfalling : (l.insertionSort fun a b => key b ≤ key a).Pairwise fun x y => key y < key x := by
    have hle : (l.insertionSort fun a b => key b ≤ key a).Pairwise fun x y => key y ≤ key x := by
      have htotal : Std.Total fun a b : α => key b ≤ key a := ⟨fun a b => Nat.le_total (key b) (key a)⟩
      have htrans : IsTrans α fun a b => key b ≤ key a := ⟨fun a b c hab hbc => hbc.trans hab⟩
      exact List.pairwise_insertionSort _ l
    have hne : (l.insertionSort fun a b => key b ≤ key a).Pairwise fun x y => key x ≠ key y :=
      List.pairwise_map.mp ((hperm.map key).nodup_iff.mpr hnd)
    exact (hle.and hne).imp fun h => lt_of_le_of_ne h.1 h.2.symm
  unfold latest
  rw [mem_take_iff hfalling, hperm.mem_iff]
  have hcount : newer key (l.insertionSort fun a b => key b ≤ key a) a = newer key l a :=
    hperm.countP_eq _
  rw [hcount]

end Latest
