/-
# The search for a name that is not taken

A loop goes from state to state until the name of a state is not among those taken. When the names it goes through
differ it ends after as many turns as there are names taken, and one more. Names are made different by a number
behind a separator, for one.

* `search_spec`: what the loop returns is not taken, and all it went through is.
* `search_of_differ`: it returns when one name more than there are taken differ.
* `append_sep_inj`: what stands behind the last separator.
-/
import Mathlib.Data.List.Nodup
import Mathlib.Data.List.Perm.Subperm
import Mathlib.Logic.Function.Iterate

namespace FreshNames

/-! ### Separators -/

/-- Two lists with what stands behind their last separator. -/
theorem append_sep_inj {α : Type*} {a : α} {l l' r r' : List α} (hr : a ∉ r) (hr' : a ∉ r')
    (h : l ++ a :: r = l' ++ a :: r') : l = l' ∧ r = r' := by
  rcases List.append_eq_append_iff.mp h with ⟨m, hl, hm⟩ | ⟨m, hl, hm⟩
  · cases m with
    | nil => exact ⟨by simpa using hl.symm, by simpa using hm⟩
    | cons b m =>
      obtain ⟨-, rfl⟩ := List.cons.inj hm
      exact absurd (List.mem_append_right _ (.head _)) hr
  · cases m with
    | nil => exact ⟨by simpa using hl, by simpa using hm.symm⟩
    | cons b m =>
      obtain ⟨-, rfl⟩ := List.cons.inj hm
      exact absurd (List.mem_append_right _ (.head _)) hr'

/-! ### The search -/

variable {σ α : Type*} [DecidableEq α] {next : σ → σ} {name : σ → α} {taken : List α}

/-- The loop from a state, at most `fuel` turns of it. -/
def search (next : σ → σ) (name : σ → α) (taken : List α) : (fuel : ℕ) → σ → Option σ
  | 0, _ => none
  | fuel + 1, s => if name s ∈ taken then search next name taken fuel (next s) else some s

theorem search_spec {fuel : ℕ} {s s' : σ} (h : search next name taken fuel s = some s') :
    name s' ∉ taken ∧ ∃ i < fuel, s' = next^[i] s ∧ ∀ j < i, name (next^[j] s) ∈ taken := by
  induction fuel generalizing s with
  | zero => cases h
  | succ fuel ih =>
    unfold search at h
    split at h
    · rename_i htaken
      obtain ⟨hfree, i, hi, hat, hbefore⟩ := ih h
      refine ⟨hfree, i + 1, by omega, hat, fun j hj => ?_⟩
      cases j with
      | zero => exact htaken
      | succ j => exact hbefore j (by omega)
    · rename_i hfree
      obtain rfl := Option.some.inj h
      exact ⟨hfree, 0, by omega, rfl, fun j hj => by omega⟩

theorem search_of_fresh {fuel i : ℕ} {s : σ} (hi : i < fuel) (hfree : name (next^[i] s) ∉ taken) :
    ∃ s', search next name taken fuel s = some s' := by
  induction fuel generalizing s i with
  | zero => omega
  | succ fuel ih =>
    unfold search
    split
    · rename_i htaken
      cases i with
      | zero => exact absurd htaken hfree
      | succ i => exact ih (by omega) hfree
    · exact ⟨s, rfl⟩

theorem search_mono {fuel more : ℕ} {s s' : σ} (h : search next name taken fuel s = some s') (hle : fuel ≤ more) :
    search next name taken more s = some s' := by
  induction fuel generalizing s more with
  | zero => cases h
  | succ fuel ih =>
    obtain ⟨more, rfl⟩ : ∃ m, more = m + 1 := ⟨more - 1, by omega⟩
    unfold search at h ⊢
    split at h
    · rename_i htaken
      rw [if_pos htaken]
      exact ih h (by omega)
    · rename_i hfree
      rw [if_neg hfree]
      exact h

theorem exists_fresh (f : ℕ → α) (hdiffer : ∀ i ≤ taken.length, ∀ j ≤ taken.length, f i = f j → i = j) :
    ∃ i ≤ taken.length, f i ∉ taken := by
  by_contra hall
  have hsub : (List.range (taken.length + 1)).map f ⊆ taken := by
    intro a ha
    obtain ⟨i, hi, rfl⟩ := List.mem_map.mp ha
    by_contra hfree
    exact hall ⟨i, by rw [List.mem_range] at hi; omega, hfree⟩
  have hnodup : ((List.range (taken.length + 1)).map f).Nodup := by
    refine List.Nodup.map_on (fun i hi j hj hij => ?_) List.nodup_range
    rw [List.mem_range] at hi hj
    exact hdiffer i (by omega) j (by omega) hij
  have hle := (List.subperm_of_subset hnodup hsub).length_le
  rw [List.length_map, List.length_range] at hle
  omega

variable (next name taken) in
/-- **The loop ends** when from its `a`-th turn on the names differ. -/
theorem search_of_differ (s : σ) (a : ℕ)
    (hdiffer : ∀ i ≤ taken.length, ∀ j ≤ taken.length, name (next^[a + i] s) = name (next^[a + j] s) → i = j) :
    ∃ s', ∀ fuel, a + taken.length < fuel → search next name taken fuel s = some s' := by
  obtain ⟨i, hi, hfree⟩ := exists_fresh (fun i => name (next^[a + i] s)) hdiffer
  obtain ⟨s', hs'⟩ := search_of_fresh (show a + i < a + taken.length + 1 by omega) hfree
  exact ⟨s', fun fuel hfuel => search_mono hs' hfuel⟩

end FreshNames
