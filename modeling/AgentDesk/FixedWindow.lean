/-
# Fixed windows

A counter lets a limited number of calls through in each window of time. The first call opens a window, and so does
the first one that comes a whole span after the window was opened; there is one counter, and it never forgets.

* `Windows span times ws`: the times, cut at the calls that open a window.
* `verdicts_eq_windows`: in each window the first `limit` calls pass and the others do not.
-/
import Mathlib.Algebra.Order.Group.Defs
import Mathlib.Algebra.Order.Sub.Basic
import Mathlib.Data.List.Range
import Mathlib.Data.List.TakeWhile

namespace FixedWindow

variable {T : Type*} [AddCommGroup T] [LinearOrder T]

/-- An open window, and how many calls it has let through. -/
structure Window (T : Type*) where
  start : T
  count : ℕ
  deriving DecidableEq, Repr

/-- The window is over at the time. -/
def elapsed (span now : T) (w : Window T) : Bool := span ≤ now - w.start

/-- One call. -/
def step (limit : ℕ) (span : T) (state : Option (Window T)) (now : T) : Option (Window T) × Bool :=
  match state with
  | none => (some ⟨now, 1⟩, true)
  | some w =>
    if elapsed span now w then (some ⟨now, 1⟩, true)
    else if limit ≤ w.count then (some w, false)
    else (some ⟨w.start, w.count + 1⟩, true)

/-- The answers to calls at these times. -/
def verdicts (limit : ℕ) (span : T) : Option (Window T) → List T → List Bool
  | _, [] => []
  | state, now :: times => (step limit span state now).2 :: verdicts limit span (step limit span state now).1 times

/-- The times, cut into windows: the calls of a window are less than the span behind its first, and the one that
opens the next is not. -/
inductive Windows (span : T) : List T → List (List T) → Prop where
  | nil : Windows span [] []
  | cons (start : T) {inside rest : List T} {ws : List (List T)} (hinside : ∀ t ∈ inside, t - start < span)
      (hrest : ∀ t ∈ rest.head?, span ≤ t - start) (h : Windows span rest ws) :
      Windows span (start :: (inside ++ rest)) ((start :: inside) :: ws)

/-- The answers in a window of `n` calls. -/
def windowVerdicts (limit n : ℕ) : List Bool := (List.range n).map (· < limit)

/-! ### The windows -/

theorem exists_windows (span : T) : ∀ (n : ℕ) (times : List T), times.length ≤ n → ∃ ws, Windows span times ws
  | _, [], _ => ⟨[], .nil⟩
  | n + 1, start :: times, hn => by
    have hsplit := List.takeWhile_append_dropWhile (p := fun t => decide (t - start < span)) (l := times)
    set inside := times.takeWhile fun t => decide (t - start < span) with hi
    set rest := times.dropWhile fun t => decide (t - start < span) with hr
    have hlen : rest.length ≤ n := by
      have := congrArg List.length hsplit
      simp only [List.length_append, List.length_cons] at this hn
      omega
    obtain ⟨ws, hws⟩ := exists_windows span n rest hlen
    have hinside : ∀ t ∈ inside, t - start < span := fun t ht =>
      of_decide_eq_true (List.mem_takeWhile_imp (p := fun t => decide (t - start < span)) ht)
    have hhead : ∀ t ∈ rest.head?, span ≤ t - start := fun t ht => by
      have := List.head?_dropWhile_not (fun t => decide (t - start < span)) times
      rw [← hr, Option.mem_def.mp ht] at this
      simpa using this
    rw [← hsplit]
    exact ⟨_, .cons start hinside hhead hws⟩

theorem windowVerdicts_succ (limit n : ℕ) :
    windowVerdicts limit (n + 1) = windowVerdicts limit n ++ [decide (n < limit)] := by
  simp [windowVerdicts, List.range_succ]

theorem count_windowVerdicts (limit n : ℕ) : (windowVerdicts limit n).count true ≤ limit := by
  have hcount : (windowVerdicts limit n).count true = min n limit := by
    induction n with
    | zero => simp [windowVerdicts]
    | succ n ih =>
      rw [windowVerdicts_succ, List.count_append, ih, List.count_singleton]
      by_cases hn : n < limit
      · simp [hn]
        omega
      · simp [hn]
        omega
  omega

/-! ### The counter -/

variable {limit : ℕ} {span : T}

theorem elapsed_mono [IsOrderedAddMonoid T] {now later : T} {w : Window T} (hle : now ≤ later)
    (h : elapsed span now w = true) : elapsed span later w = true := by
  have hover : span ≤ now - w.start := of_decide_eq_true h
  exact decide_eq_true (hover.trans (sub_le_sub_right hle _))

theorem step_open {state : Option (Window T)} {now : T} (h : ∀ w ∈ state, elapsed span now w = true) :
    step limit span state now = (some ⟨now, 1⟩, true) := by
  cases state with
  | none => rfl
  | some w => simp only [step, h w rfl, if_true]

theorem verdicts_inside (limit : ℕ) (start : T) {inside : List T} (hinside : ∀ t ∈ inside, t - start < span) (n : ℕ)
    (rest : List T) :
    windowVerdicts limit n ++ verdicts limit span (some ⟨start, min n limit⟩) (inside ++ rest) =
      windowVerdicts limit (n + inside.length) ++
        verdicts limit span (some ⟨start, min (n + inside.length) limit⟩) rest := by
  induction inside generalizing n with
  | nil => rfl
  | cons t inside ih =>
    have hopen : ∀ c, elapsed span t ⟨start, c⟩ = false := fun _ =>
      decide_eq_false (not_le.mpr (hinside t (.head _)))
    have hstep : step limit span (some ⟨start, min n limit⟩) t =
        (some ⟨start, min (n + 1) limit⟩, decide (n < limit)) := by
      by_cases hn : n < limit
      · have hcount : min n limit = n ∧ min (n + 1) limit = n + 1 := by omega
        simp [step, hopen, hcount, hn]
      · have hcount : min n limit = limit ∧ min (n + 1) limit = limit := by omega
        simp [step, hopen, hcount, hn]
    have hnext := ih (fun t ht => hinside t (.tail _ ht)) (n + 1)
    have hlen : n + 1 + inside.length = n + (t :: inside).length := by
      rw [List.length_cons]
      omega
    rw [windowVerdicts_succ, List.append_assoc, hlen] at hnext
    rw [List.cons_append, verdicts, hstep]
    exact hnext

theorem verdicts_restart {w : Window T} {rest : List T} (hrest : ∀ t ∈ rest.head?, span ≤ t - w.start) :
    verdicts limit span (some w) rest = verdicts limit span none rest := by
  cases rest with
  | nil => rfl
  | cons t rest =>
    have hover : ∀ w' ∈ some w, elapsed span t w' = true := fun w' hw' => by
      obtain rfl := Option.some.inj hw'
      exact decide_eq_true (hrest t rfl)
    rw [verdicts, verdicts, step_open hover, step_open (by simp)]

/-- **The first calls of each window pass.** -/
theorem verdicts_eq_windows (hlimit : 1 ≤ limit) {times : List T} {ws : List (List T)} (h : Windows span times ws) :
    verdicts limit span none times = ws.flatMap fun w => windowVerdicts limit w.length := by
  induction h with
  | nil => rfl
  | @cons start inside rest ws hinside hrest _ ih =>
    have hpos : 0 < limit := hlimit
    have hfirst : windowVerdicts limit 1 = [true] := by simp [windowVerdicts, hpos]
    have hcount : min 1 limit = 1 := by omega
    have hrun := verdicts_inside limit start hinside 1 rest
    rw [hcount, hfirst, verdicts_restart (fun t ht => hrest t ht), ih, Nat.add_comm] at hrun
    rw [List.flatMap_cons, List.length_cons, ← hrun, verdicts, step_open (by simp)]
    rfl

end FixedWindow
