/-
# Search and replace

`text.replace(/p/g, new)` for an expression that takes a text in one way only: at each place from the left the
expression is tried, what it takes is replaced, and the search goes on behind it.

* `Replaced`: the same as a relation, one rule for a unit that is kept and one for a match.
* `replaceAll_replaced`: the loop is in that relation to the text, with any fuel that is enough.
* `Replaced.front`: what stands in the result before any replacement stood in the text, and at the same place.
* `suffix_append`: a suffix of `a ++ b` begins in `a` or in `b`.
-/
import Mathlib.Data.List.Basic

namespace Search

variable {α : Type*}

/-- An expression at the start of a text: what follows it. -/
abbrev Pattern (α : Type*) := List α → Option (List α)

/-- `text.replace(/p/g, new)`, with the length of the text for fuel. -/
def replaceAll (p : Pattern α) (new : List α) : ℕ → List α → List α
  | 0, text => text
  | _, [] => []
  | n + 1, c :: text =>
    match p (c :: text) with
    | some rest => new ++ replaceAll p new n rest
    | none => c :: replaceAll p new n text

/-- Where it matches, it takes something. -/
def Pattern.Proper (p : Pattern α) : Prop := ∀ text rest, p text = some rest → ∃ m, m ≠ [] ∧ text = m ++ rest

/-- A text, and what becomes of it. -/
inductive Replaced (p : Pattern α) (new : List α) : List α → List α → Prop
  | nil : Replaced p new [] []
  | keep {c : α} {text out : List α} (h : p (c :: text) = none) (hrest : Replaced p new text out) :
      Replaced p new (c :: text) (c :: out)
  | take {text rest out : List α} (h : p text = some rest) (hrest : Replaced p new rest out) :
      Replaced p new text (new ++ out)

variable {p : Pattern α} {new : List α}

theorem replaceAll_replaced (hp : p.Proper) (n : ℕ) (text : List α) (h : text.length ≤ n) :
    Replaced p new text (replaceAll p new n text) := by
  induction n generalizing text with
  | zero =>
    rw [List.length_eq_zero_iff.mp (Nat.le_zero.mp h)]
    exact .nil
  | succ n ih =>
    cases text with
    | nil => exact .nil
    | cons c text =>
      rw [replaceAll]
      cases hmatch : p (c :: text) with
      | none => exact .keep hmatch (ih text (Nat.le_of_succ_le_succ h))
      | some rest =>
        obtain ⟨m, hm, hsplit⟩ := hp _ _ hmatch
        refine .take hmatch (ih rest ?_)
        have hlength : text.length + 1 = m.length + rest.length := by
          rw [← List.length_append, ← hsplit, List.length_cons]
        have hpos := List.length_pos_iff.mpr hm
        simp only [List.length_cons] at h
        omega

/-- What stands before any replacement is kept from the text. -/
theorem Replaced.front {x : α} {u text out : List α} (hu : x ∉ u) (h : Replaced p (x :: new) text (u ++ out)) :
    ∃ rest, text = u ++ rest ∧ Replaced p (x :: new) rest out := by
  induction u generalizing text with
  | nil => exact ⟨text, rfl, h⟩
  | cons c u ih =>
    rw [List.cons_append] at h
    generalize hout : c :: (u ++ out) = whole at h
    cases h with
    | nil => cases hout
    | keep hnone hrest =>
      obtain ⟨rfl, rfl⟩ := List.cons.inj hout
      obtain ⟨rest, rfl, hreplaced⟩ := ih (fun hx => hu (List.mem_cons_of_mem _ hx)) hrest
      exact ⟨rest, rfl, hreplaced⟩
    | take hmatch hrest =>
      rw [List.cons_append] at hout
      exact absurd (List.cons.inj hout).1.symm fun hx => hu (hx ▸ List.mem_cons_self)

/-- A suffix of two lists begins in the first or in the second. -/
theorem suffix_append {a b pre s : List α} (h : a ++ b = pre ++ s) :
    (∃ x, x ≠ [] ∧ a = pre ++ x ∧ s = x ++ b) ∨ ∃ y, pre = a ++ y ∧ b = y ++ s := by
  rcases List.append_eq_append_iff.mp h with ⟨y, hpre, hb⟩ | ⟨x, ha, hs⟩
  · exact .inr ⟨y, hpre, hb⟩
  · cases x with
    | nil => exact .inr ⟨[], by simpa using ha.symm, by simpa using hs.symm⟩
    | cons c x => exact .inl ⟨c :: x, List.cons_ne_nil c x, ha, hs⟩

end Search
