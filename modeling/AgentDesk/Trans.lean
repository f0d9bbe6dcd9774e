/-
# Runs of a step function

A component is a step function `step : σ → ε → Option σ`: the state after an
event, or `none` when the event cannot happen there. Everything outside the
component (which call comes next, what the clock or a random draw gives, which
I/O fails) is part of the event, so "for every interleaving" is "for every
list of events".

* `run step s es`: the state after the events `es` from `s`.
* `Along step C s es`: every step of that run meets the condition `C` on the
  state before it and the event.
* `run_inv`: what one step preserves, a run preserves.
* `Always step P s es`: `P` holds in every state of that run.
* `always_of_along`: what the steps that meet `C` preserve holds throughout a
  run along `C`.
* `always_iff_along`, `always_iff_along_of`: where a step keeps `P` exactly when
  it meets `C`, a run keeps `P` exactly when it goes along `C`.
  `always_iff_along_given`: the same for the runs along some other condition.
* `along_iff_along`: the same for a property of the steps.
* `exists_crossing`: a run that gets to `P` has a step that gets there.
-/
import Mathlib.Data.List.Basic

namespace Trans

variable {σ ε : Type*} {step : σ → ε → Option σ}

/-- The state after the events, in order; `none` when one of them cannot happen. -/
def run (step : σ → ε → Option σ) : σ → List ε → Option σ
  | s, [] => some s
  | s, e :: es => (step s e).bind fun s' => run step s' es

/-- Every step of the run of `es` from `s` meets `C`. -/
def Along (step : σ → ε → Option σ) (C : σ → ε → Prop) : σ → List ε → Prop
  | _, [] => True
  | s, e :: es => C s e ∧ ∀ s', step s e = some s' → Along step C s' es

/-- `P` holds in every state of the run of `es` from `s`. -/
def Always (step : σ → ε → Option σ) (P : σ → Prop) (s : σ) (es : List ε) : Prop :=
  ∀ es₁ es₂ s₁, es = es₁ ++ es₂ → run step s es₁ = some s₁ → P s₁

theorem run_nil {s s' : σ} : run step s [] = some s' ↔ s = s' := Option.some_inj

theorem run_cons {s s'' : σ} {e : ε} {es : List ε} :
    run step s (e :: es) = some s'' ↔ ∃ s', step s e = some s' ∧ run step s' es = some s'' := Option.bind_eq_some_iff

theorem run_snoc {s s' s'' : σ} {e : ε} {es : List ε} (h : run step s es = some s') (hs : step s' e = some s'') :
    run step s (es ++ [e]) = some s'' := by
  induction es generalizing s with
  | nil =>
    obtain rfl := run_nil.mp h
    exact run_cons.mpr ⟨s'', hs, rfl⟩
  | cons e₁ es ih =>
    obtain ⟨s₁, h₁, hrest⟩ := run_cons.mp h
    exact run_cons.mpr ⟨s₁, h₁, ih hrest⟩

theorem run_append {s s₂ : σ} {es₁ es₂ : List ε} (h : run step s (es₁ ++ es₂) = some s₂) :
    ∃ s₁, run step s es₁ = some s₁ ∧ run step s₁ es₂ = some s₂ := by
  induction es₁ generalizing s with
  | nil => exact ⟨s, rfl, h⟩
  | cons e es₁ ih =>
    obtain ⟨s', hs', hrest⟩ := run_cons.mp h
    obtain ⟨s₁, h₁, h₂⟩ := ih hrest
    exact ⟨s₁, run_cons.mpr ⟨s', hs', h₁⟩, h₂⟩

/-- What every step preserves, every run preserves. -/
theorem run_inv {I : σ → Prop} (hstep : ∀ s e s', I s → step s e = some s' → I s') {es : List ε}
    {s s' : σ} (hs : I s) (h : run step s es = some s') : I s' := by
  induction es generalizing s with
  | nil =>
    obtain rfl := run_nil.mp h
    exact hs
  | cons e es ih =>
    obtain ⟨s₁, h₁, h₂⟩ := run_cons.mp h
    have hs₁ := hstep s e s₁ hs h₁
    exact ih hs₁ h₂

theorem always_of_inv {I : σ → Prop} (hstep : ∀ s e s', I s → step s e = some s' → I s') {es : List ε} {s : σ}
    (hs : I s) : Always step I s es :=
  fun _ _ _ _ h => run_inv hstep hs h

/-- A run that ends with `P` and does not start with it has a step that brings it about. -/
theorem exists_crossing {P : σ → Prop} {es : List ε} {s s' : σ} (h : run step s es = some s') (hs : ¬ P s)
    (hs' : P s') :
    ∃ es₁ e es₂ s₁ s₂, es = es₁ ++ e :: es₂ ∧ run step s es₁ = some s₁ ∧ step s₁ e = some s₂ ∧ ¬ P s₁ ∧ P s₂ := by
  induction es generalizing s with
  | nil =>
    obtain rfl := run_nil.mp h
    exact absurd hs' hs
  | cons e es ih =>
    obtain ⟨s₁, h₁, h₂⟩ := run_cons.mp h
    by_cases hP : P s₁
    · exact ⟨[], e, es, s, s₁, rfl, rfl, h₁, hs, hP⟩
    · obtain ⟨es₁, e', es₂, s₂, s₃, rfl, hrun, hstep, hbefore, hafter⟩ := ih h₂ hP
      exact ⟨e :: es₁, e', es₂, s₂, s₃, rfl, run_cons.mpr ⟨s₁, h₁, hrun⟩, hstep, hbefore, hafter⟩

theorem always_cons {P : σ → Prop} {s : σ} {e : ε} {es : List ε} :
    Always step P s (e :: es) ↔ P s ∧ ∀ s', step s e = some s' → Always step P s' es := by
  constructor
  · intro h
    refine ⟨h [] (e :: es) s rfl rfl, fun s' hs' es₁ es₂ s₁ he h₁ => ?_⟩
    exact h (e :: es₁) es₂ s₁ (by rw [he]; rfl) (run_cons.mpr ⟨s', hs', h₁⟩)
  · rintro ⟨hP, h⟩ es₁ es₂ s₁ he h₁
    cases es₁ with
    | nil =>
      obtain rfl := run_nil.mp h₁
      exact hP
    | cons e₁ es₁ =>
      obtain ⟨rfl, rfl⟩ := List.cons.inj he
      obtain ⟨s', hs', h₂⟩ := run_cons.mp h₁
      exact h s' hs' es₁ es₂ s₁ rfl h₂

theorem along_of_forall {C : σ → ε → Prop} {es : List ε} (h : ∀ e ∈ es, ∀ s, C s e) {s : σ} : Along step C s es := by
  induction es generalizing s with
  | nil => trivial
  | cons e es ih => exact ⟨h e (.head _) s, fun _ _ => ih fun e' he' => h e' (.tail _ he')⟩

theorem Along.and {C D : σ → ε → Prop} {es : List ε} {s : σ} (hC : Along step C s es)
    (hD : Along step D s es) : Along step (fun s e => C s e ∧ D s e) s es := by
  induction es generalizing s with
  | nil => trivial
  | cons e es ih => exact ⟨⟨hC.1, hD.1⟩, fun s' h => ih (hC.2 s' h) (hD.2 s' h)⟩

theorem along_append {C : σ → ε → Prop} {es₁ es₂ : List ε} {s : σ} :
    Along step C s (es₁ ++ es₂) ↔ Along step C s es₁ ∧ ∀ s₁, run step s es₁ = some s₁ → Along step C s₁ es₂ := by
  induction es₁ generalizing s with
  | nil => simp [Along, run]
  | cons e es₁ ih =>
    constructor
    · rintro ⟨hC, hrest⟩
      refine ⟨⟨hC, fun s' hs' => (ih.mp (hrest s' hs')).1⟩, fun s₁ h₁ => ?_⟩
      obtain ⟨s', hs', h₂⟩ := run_cons.mp h₁
      exact (ih.mp (hrest s' hs')).2 s₁ h₂
    · rintro ⟨⟨hC, hfront⟩, hback⟩
      exact ⟨hC, fun s' hs' => ih.mpr ⟨hfront s' hs', fun s₁ h₁ => hback s₁ (run_cons.mpr ⟨s', hs', h₁⟩)⟩⟩

theorem Along.at_step {C : σ → ε → Prop} {e : ε} {es₁ es₂ : List ε} {s s₁ : σ}
    (h : Along step C s (es₁ ++ e :: es₂)) (h₁ : run step s es₁ = some s₁) : C s₁ e :=
  ((along_append.mp h).2 s₁ h₁).1

/-- Along `C`, what the steps that meet `C` preserve holds in every state. -/
theorem always_of_along {J P : σ → Prop} {C : σ → ε → Prop} (hJP : ∀ s, J s → P s)
    (hkeep : ∀ s e s', J s → step s e = some s' → C s e → J s') {es : List ε} {s : σ} (hs : J s)
    (h : Along step C s es) : Always step P s es := by
  induction es generalizing s with
  | nil =>
    intro es₁ es₂ s₁ he h₁
    obtain ⟨rfl, -⟩ := List.append_eq_nil_iff.mp he.symm
    obtain rfl := run_nil.mp h₁
    exact hJP s hs
  | cons e es ih =>
    obtain ⟨hC, hrest⟩ := h
    rw [always_cons]
    exact ⟨hJP s hs, fun s' hs' => ih (hkeep s e s' hs hs' hC) (hrest s' hs')⟩

/-- Where, from the states of an invariant `J` of the steps that meet `C`, a step meets `D` exactly when it
meets `C`, a run goes along `D` exactly when it goes along `C`. -/
theorem along_iff_along {J : σ → Prop} {C D : σ → ε → Prop}
    (hkeep : ∀ s e s', J s → step s e = some s' → C s e → J s')
    (hiff : ∀ s e s', J s → step s e = some s' → (D s e ↔ C s e)) {es : List ε} {s s' : σ} (hs : J s)
    (h : run step s es = some s') : Along step D s es ↔ Along step C s es := by
  induction es generalizing s with
  | nil => exact Iff.rfl
  | cons e es ih =>
    obtain ⟨s₁, h₁, h₂⟩ := run_cons.mp h
    have hrest : C s e → ((∀ s', step s e = some s' → Along step D s' es) ↔
        ∀ s', step s e = some s' → Along step C s' es) := by
      intro hC
      have hJ := hkeep s e s₁ hs h₁ hC
      constructor
      · intro hD s₂ h'
        obtain rfl : s₁ = s₂ := Option.some.inj (h₁.symm.trans h')
        exact (ih hJ h₂).mp (hD s₁ h₁)
      · intro hC' s₂ h'
        obtain rfl : s₁ = s₂ := Option.some.inj (h₁.symm.trans h')
        exact (ih hJ h₂).mpr (hC' s₁ h₁)
    show (D s e ∧ _) ↔ (C s e ∧ _)
    rw [hiff s e s₁ hs h₁]
    exact and_congr_right hrest

/-- Let `J` be an invariant of the steps that meet `D` and `C`, strong enough for `P`, and let every step
from `J` that meets `D` and ends in `P` meet `C`. Then a run along `D` keeps `P` exactly when every step
of it meets `C`. -/
theorem always_iff_along_given {J P : σ → Prop} {D C : σ → ε → Prop} (hJP : ∀ s, J s → P s)
    (hkeep : ∀ s e s', J s → step s e = some s' → D s e → C s e → J s')
    (hneed : ∀ s e s', J s → step s e = some s' → D s e → P s' → C s e) {es : List ε} {s s' : σ}
    (hs : J s) (h : run step s es = some s') (hD : Along step D s es) :
    Always step P s es ↔ Along step C s es := by
  constructor
  · intro halways
    induction es generalizing s with
    | nil => trivial
    | cons e es ih =>
      obtain ⟨s₁, h₁, h₂⟩ := run_cons.mp h
      have hrest := (always_cons.mp halways).2 s₁ h₁
      have hC : C s e := hneed s e s₁ hs h₁ hD.1 (hrest [] es s₁ rfl rfl)
      refine ⟨hC, fun s₂ hs₂ => ?_⟩
      obtain rfl : s₁ = s₂ := Option.some.inj (h₁.symm.trans hs₂)
      exact ih (hkeep s e s₁ hs h₁ hD.1 hC) h₂ (hD.2 s₁ h₁) hrest
  · intro halong
    have hboth : Along step (fun s e => D s e ∧ C s e) s es := hD.and halong
    exact always_of_along hJP (fun s e s' hJ h hDC => hkeep s e s' hJ h hDC.1 hDC.2) hs hboth

/-- The same for all runs. -/
theorem always_iff_along_of {J P : σ → Prop} {C : σ → ε → Prop} (hJP : ∀ s, J s → P s)
    (hkeep : ∀ s e s', J s → step s e = some s' → C s e → J s')
    (hneed : ∀ s e s', J s → step s e = some s' → P s' → C s e) {es : List ε} {s s' : σ}
    (hs : J s) (h : run step s es = some s') : Always step P s es ↔ Along step C s es :=
  always_iff_along_given (D := fun _ _ => True) hJP (fun s e s' hJ h _ => hkeep s e s' hJ h)
    (fun s e s' hJ h _ => hneed s e s' hJ h) hs h (along_of_forall fun _ _ _ => trivial)

/-- Where, among the states the invariant `I` allows, a step from a state with `P` keeps `P`
exactly when it meets `C`, a run keeps `P` exactly when every step of it meets `C`. -/
theorem always_iff_along {I P : σ → Prop} {C : σ → ε → Prop}
    (hI : ∀ s e s', I s → step s e = some s' → I s')
    (hP : ∀ s e s', I s → P s → step s e = some s' → (P s' ↔ C s e)) {es : List ε} {s s' : σ}
    (hi : I s) (hp : P s) (h : run step s es = some s') : Always step P s es ↔ Along step C s es := by
  refine always_iff_along_of (J := fun s => I s ∧ P s) (fun _ hJ => hJ.2) ?_ ?_ ⟨hi, hp⟩ h
  · intro s e s₁ hJ h₁ hC
    exact ⟨hI s e s₁ hJ.1 h₁, (hP s e s₁ hJ.1 hJ.2 h₁).mpr hC⟩
  · intro s e s₁ hJ h₁ hp₁
    exact (hP s e s₁ hJ.1 hJ.2 h₁).mp hp₁

end Trans
