/-
# Journals

A process that may be killed at any moment leaves a prefix of the writes it
would have made. So what must hold at every crash point is a property of every
prefix: `Sound ok log` says that each entry is admissible after the entries
before it, whatever comes later.

* `sound_iff`: the same, in terms of where an entry stands.
* `sound_append`, `sound_snoc`: a longer journal is sound exactly when the old
  one is and the new entries are admissible after it.
* `Sound.take`: what a crash leaves of a sound journal is sound.
-/
import Mathlib.Data.List.Induction

namespace Journal

variable {α : Type*} {ok : List α → α → Prop}

/-- The entries `new` are admissible one after the other, after the entries `log`. -/
def From (ok : List α → α → Prop) : List α → List α → Prop
  | _, [] => True
  | log, a :: new => ok log a ∧ From ok (log ++ [a]) new

/-- Every entry is admissible after the entries before it. -/
def Sound (ok : List α → α → Prop) (log : List α) : Prop := From ok [] log

theorem sound_nil : Sound ok [] := trivial

theorem from_append {log new₁ new₂ : List α} :
    From ok log (new₁ ++ new₂) ↔ From ok log new₁ ∧ From ok (log ++ new₁) new₂ := by
  induction new₁ generalizing log with
  | nil => simp [From]
  | cons a new₁ ih =>
    rw [List.cons_append]
    simp only [From, ih, List.append_assoc, List.singleton_append, and_assoc]

theorem sound_append {log new : List α} : Sound ok (log ++ new) ↔ Sound ok log ∧ From ok log new := by
  exact from_append

theorem sound_snoc {log : List α} {a : α} : Sound ok (log ++ [a]) ↔ Sound ok log ∧ ok log a := by
  simp [sound_append, From]

theorem sound_iff {log : List α} : Sound ok log ↔ ∀ pre a post, log = pre ++ a :: post → ok pre a := by
  constructor
  · rintro h pre a post rfl
    exact (sound_append.mp h).2.1
  · intro h
    induction log using List.reverseRecOn with
    | nil => exact sound_nil
    | append_singleton log a ih =>
      refine sound_snoc.mpr ⟨ih fun pre b post he => ?_, h log a [] rfl⟩
      exact h pre b (post ++ [a]) (by rw [he, List.append_assoc, List.cons_append])

/-- What a crash leaves of a sound journal is sound. -/
theorem Sound.take {log : List α} (h : Sound ok log) (n : ℕ) : Sound ok (log.take n) := by
  rw [← List.take_append_drop n log, sound_append] at h
  exact h.1

end Journal
