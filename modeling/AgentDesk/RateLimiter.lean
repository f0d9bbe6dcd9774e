/-
# The rate limiter of the gateway proxy

`makeRateLimiter` of `src/gateway-signing-proxy.ts` keeps one map for all tokens: the window each has open and how
many calls it let through. A call that opens a window when the map is large deletes the windows that are over, of all
tokens.

A window that is over opens anew at its token's next call, whether it is still in the map or not, and at no later
time is it open again. So each token's answers are those of a counter of its own that forgets nothing.

* `Agree.makeRateLimiter`: one call, next to the counters.
* `rate_limiter_refines`: over every sequence of calls whose times do not decrease.
-/
import AgentDesk.FixedWindow
import AgentDesk.Table
import Mathlib.Algebra.Order.Ring.Int
import Mathlib.Logic.Function.Basic

namespace AgentDesk.RateLimiter

variable {T : Type*} [AddCommGroup T] [LinearOrder T]

structure RateState (T : Type*) where
  windowStart : T
  count : ℕ

/-- `buckets`, in the order of the map. -/
abbrev Buckets (T : Type*) := List (String × RateState T)

/-- A map above this size is swept. -/
def sweepSize : ℕ := 4096

/-- `now - b.windowStart >= windowMs`. -/
def elapsed (windowMs now : T) (b : RateState T) : Bool := windowMs ≤ now - b.windowStart

def sweep (windowMs now : T) (buckets : Buckets T) : Buckets T := buckets.filter fun r => !elapsed windowMs now r.2

/-- A new window of the token, and the sweep. -/
def openWindow (windowMs : T) (buckets : Buckets T) (jti : String) (now : T) : Buckets T :=
  let buckets := Table.upsert Prod.fst buckets (jti, ⟨now, 1⟩) fun r => (r.1, ⟨now, 1⟩)
  if sweepSize < buckets.length then sweep windowMs now buckets else buckets

/-- The limiter that `makeRateLimiter` returns: one call of it. -/
def makeRateLimiter (limit : ℕ) (windowMs : T) (buckets : Buckets T) (jti : String) (now : T) : Buckets T × Bool :=
  match Table.find Prod.fst buckets jti with
  | none => (openWindow windowMs buckets jti now, true)
  | some (_, b) =>
    if elapsed windowMs now b then (openWindow windowMs buckets jti now, true)
    else if limit ≤ b.count then (buckets, false)
    else (Table.update Prod.fst buckets jti fun r => (r.1, ⟨r.2.windowStart, r.2.count + 1⟩), true)

/-- The answers to the calls, in order. -/
def answers (limit : ℕ) (windowMs : T) : Buckets T → List (String × T) → List Bool
  | _, [] => []
  | buckets, (jti, now) :: calls =>
    (makeRateLimiter limit windowMs buckets jti now).2 ::
      answers limit windowMs (makeRateLimiter limit windowMs buckets jti now).1 calls

/-- The times of a token's calls. -/
def timesOf (jti : String) (calls : List (String × T)) : List T :=
  (calls.filter fun c => c.1 = jti).map Prod.snd

/-- The answers to a token's calls. -/
def answersTo (jti : String) (calls : List (String × T)) (verdicts : List Bool) : List Bool :=
  ((calls.zip verdicts).filter fun c => c.1.1 = jti).map Prod.snd

/-! ### The map next to the counters -/

def RateState.window (b : RateState T) : FixedWindow.Window T := ⟨b.windowStart, b.count⟩

/-- The window that the map has for a token. -/
def windowOf (buckets : Buckets T) (jti : String) : Option (FixedWindow.Window T) :=
  (Table.find Prod.fst buckets jti).map fun r => r.2.window

/-- The map has each token's counter, or it has lost one that is over. -/
structure Agree (windowMs now : T) (buckets : Buckets T) (counters : String → Option (FixedWindow.Window T)) :
    Prop where
  nodup : (buckets.map Prod.fst).Nodup
  counter : ∀ jti, windowOf buckets jti = counters jti ∨
    (windowOf buckets jti = none ∧ ∀ w ∈ counters jti, FixedWindow.elapsed windowMs now w = true)

variable {windowMs now : T} {buckets : Buckets T} {counters : String → Option (FixedWindow.Window T)}

theorem Agree.empty : Agree windowMs now [] fun _ => none := ⟨List.nodup_nil, fun _ => .inl rfl⟩

theorem Agree.later [IsOrderedAddMonoid T] (h : Agree windowMs now buckets counters) {later : T} (hle : now ≤ later) :
    Agree windowMs later buckets counters := by
  refine ⟨h.nodup, fun jti => ?_⟩
  rcases h.counter jti with hsame | ⟨hlost, hover⟩
  · exact .inl hsame
  · exact .inr ⟨hlost, fun w hw => FixedWindow.elapsed_mono hle (hover w hw)⟩

theorem windowOf_sweep (hnd : (buckets.map Prod.fst).Nodup) (jti : String) :
    windowOf (sweep windowMs now buckets) jti =
      (windowOf buckets jti).filter fun w => !FixedWindow.elapsed windowMs now w := by
  unfold windowOf sweep
  rw [Table.find_filter hnd]
  cases Table.find Prod.fst buckets jti with
  | none => rfl
  | some r =>
    have hsame : FixedWindow.elapsed windowMs now r.2.window = elapsed windowMs now r.2 := rfl
    by_cases hover : elapsed windowMs now r.2 = true
    · simp [Option.filter, hsame, hover]
    · simp [Option.filter, hsame, hover]

/-- **A sweep changes nothing**: what it deletes is over. -/
theorem Agree.sweep (h : Agree windowMs now buckets counters) :
    Agree windowMs now (sweep windowMs now buckets) counters := by
  refine ⟨h.nodup.sublist (List.filter_sublist.map Prod.fst), fun jti => ?_⟩
  rw [windowOf_sweep h.nodup]
  rcases h.counter jti with hsame | ⟨hlost, hover⟩
  · rw [hsame]
    cases hw : counters jti with
    | none => exact .inl rfl
    | some w =>
      by_cases hover : FixedWindow.elapsed windowMs now w = true
      · refine .inr ⟨by simp [hover], fun w' hw' => ?_⟩
        obtain rfl := Option.some.inj hw'
        exact hover
      · exact .inl (by simp [hover])
  · exact .inr ⟨by simp [hlost], hover⟩

theorem Agree.write (h : Agree windowMs now buckets counters) {buckets' : Buckets T} (jti : String)
    {w : FixedWindow.Window T} (hnd : (buckets'.map Prod.fst).Nodup)
    (hw : windowOf buckets' = Function.update (windowOf buckets) jti (some w)) :
    Agree windowMs now buckets' (Function.update counters jti (some w)) := by
  refine ⟨hnd, fun jti' => ?_⟩
  rw [hw]
  by_cases hj : jti' = jti
  · subst hj
    exact .inl (by simp)
  · rw [Function.update_of_ne hj, Function.update_of_ne hj]
    exact h.counter jti'

theorem Agree.openWindow (h : Agree windowMs now buckets counters) (jti : String) :
    Agree windowMs now (openWindow windowMs buckets jti now) (Function.update counters jti (some ⟨now, 1⟩)) := by
  have hwrite : Agree windowMs now (Table.upsert Prod.fst buckets (jti, ⟨now, 1⟩) fun r => (r.1, ⟨now, 1⟩))
      (Function.update counters jti (some ⟨now, 1⟩)) := by
    have hkeys : ∀ r : String × RateState T, (r.1, (⟨now, 1⟩ : RateState T)).1 = r.1 := fun _ => rfl
    refine h.write jti (Table.nodup_upsert hkeys h.nodup _) (funext fun jti' => ?_)
    unfold windowOf
    rw [Table.find_upsert hkeys]
    by_cases hj : jti' = jti
    · subst hj
      cases Table.find Prod.fst buckets jti' with
      | none => simp [RateState.window]
      | some r => simp [RateState.window]
    · simp [hj]
  unfold RateLimiter.openWindow
  simp only
  split
  · exact hwrite.sweep
  · exact hwrite

/-- **One call**: the answer is that of the token's own counter, and the map agrees with the counters again. -/
theorem Agree.makeRateLimiter (h : Agree windowMs now buckets counters) (limit : ℕ) (jti : String) :
    (makeRateLimiter limit windowMs buckets jti now).2 = (FixedWindow.step limit windowMs (counters jti) now).2 ∧
    Agree windowMs now (makeRateLimiter limit windowMs buckets jti now).1
      (Function.update counters jti (FixedWindow.step limit windowMs (counters jti) now).1) := by
  have hopen (hover : ∀ w ∈ counters jti, FixedWindow.elapsed windowMs now w = true) :
      true = (FixedWindow.step limit windowMs (counters jti) now).2 ∧
      Agree windowMs now (RateLimiter.openWindow windowMs buckets jti now)
        (Function.update counters jti (FixedWindow.step limit windowMs (counters jti) now).1) := by
    rw [FixedWindow.step_open hover]
    exact ⟨rfl, h.openWindow jti⟩
  have hjti := h.counter jti
  unfold RateLimiter.makeRateLimiter
  cases hfind : Table.find Prod.fst buckets jti with
  | none =>
    have hover : ∀ w ∈ counters jti, FixedWindow.elapsed windowMs now w = true := by
      rcases hjti with hsame | ⟨-, hover⟩
      · rw [← hsame, windowOf, hfind]
        simp
      · exact hover
    exact hopen hover
  | some r =>
    obtain ⟨-, rfl⟩ := Table.find_spec hfind
    have hcounter : counters r.1 = some r.2.window := by
      rcases hjti with hsame | ⟨hlost, -⟩
      · rw [← hsame, windowOf, hfind]
        rfl
      · rw [windowOf, hfind] at hlost
        cases hlost
    by_cases hover : elapsed windowMs now r.2 = true
    · simp only [hover, if_true]
      refine hopen fun w hw => ?_
      rw [hcounter] at hw
      obtain rfl := Option.some.inj hw
      exact hover
    · have hstep : FixedWindow.elapsed windowMs now r.2.window = false := Bool.eq_false_iff.mpr hover
      simp only [hover, if_false, hcounter, FixedWindow.step, hstep, Bool.false_eq_true]
      by_cases hfull : limit ≤ r.2.count
      · have hfull' : limit ≤ r.2.window.count := hfull
        simp only [hfull, hfull', if_true, true_and]
        rw [← hcounter, Function.update_eq_self]
        exact h
      · have hfull' : ¬ limit ≤ r.2.window.count := hfull
        simp only [hfull, hfull', if_false, true_and]
        have hkeys : ∀ r : String × RateState T, (r.1, (⟨r.2.windowStart, r.2.count + 1⟩ : RateState T)).1 = r.1 :=
          fun _ => rfl
        refine h.write r.1 ?_ (funext fun jti' => ?_)
        · rw [Table.keys_update hkeys]
          exact h.nodup
        · unfold windowOf
          rw [Table.find_update hkeys, hfind]
          by_cases hj : jti' = r.1
          · subst hj
            simp [RateState.window]
          · simp [hj]

/-! ### Sequences of calls -/

theorem answersTo_eq [IsOrderedAddMonoid T] (limit : ℕ) (jti : String) {calls : List (String × T)}
    (h : Agree windowMs now buckets counters) (hnow : ∀ c ∈ calls, now ≤ c.2)
    (hsorted : calls.Pairwise fun a b => a.2 ≤ b.2) :
    answersTo jti calls (answers limit windowMs buckets calls) =
      FixedWindow.verdicts limit windowMs (counters jti) (timesOf jti calls) := by
  induction calls generalizing now buckets counters with
  | nil => rfl
  | cons c calls ih =>
    obtain ⟨jti', t⟩ := c
    obtain ⟨hlater, hrest⟩ := List.pairwise_cons.mp hsorted
    obtain ⟨hanswer, hagree⟩ := (h.later (hnow _ (.head _))).makeRateLimiter limit jti'
    have htail := ih hagree hlater hrest
    by_cases hj : jti' = jti
    · subst hj
      rw [Function.update_self] at htail
      simp only [answersTo, answers, timesOf, List.zip_cons_cons, decide_true, List.filter_cons_of_pos, List.map_cons,
        FixedWindow.verdicts, hanswer]
      exact congrArg _ htail
    · rw [Function.update_of_ne (Ne.symm hj)] at htail
      have hskip : decide (jti' = jti) = false := decide_eq_false hj
      simpa only [answersTo, answers, timesOf, List.zip_cons_cons, List.filter_cons, hskip, Bool.false_eq_true,
        if_false] using htail

/-- **The sweep changes no verdict.** For every sequence of calls whose times do not decrease, any window and any
limit from 1 on, a token's answers are those of a fixed-window counter that sees this token's calls alone and never
forgets; and in each of its windows the first `limit` calls pass, so no more than `limit`. -/
theorem rate_limiter_refines [IsOrderedAddMonoid T] {limit : ℕ} (hlimit : 1 ≤ limit) (windowMs : T)
    {calls : List (String × T)} (hsorted : calls.Pairwise fun a b => a.2 ≤ b.2) (jti : String) :
    answersTo jti calls (answers limit windowMs [] calls) =
      FixedWindow.verdicts limit windowMs none (timesOf jti calls) ∧
    ∃ ws, FixedWindow.Windows windowMs (timesOf jti calls) ws ∧
      answersTo jti calls (answers limit windowMs [] calls) =
        (ws.flatMap fun w => FixedWindow.windowVerdicts limit w.length) ∧
      ∀ w ∈ ws, (FixedWindow.windowVerdicts limit w.length).count true ≤ limit := by
  have hsame : answersTo jti calls (answers limit windowMs [] calls) =
      FixedWindow.verdicts limit windowMs none (timesOf jti calls) := by
    cases calls with
    | nil => rfl
    | cons c calls =>
      have hnow : ∀ c' ∈ c :: calls, c.2 ≤ c'.2 := by
        intro c' hc'
        rcases List.mem_cons.mp hc' with rfl | htail
        · exact le_rfl
        · exact (List.pairwise_cons.mp hsorted).1 c' htail
      exact answersTo_eq limit jti Agree.empty hnow hsorted
  obtain ⟨ws, hws⟩ := FixedWindow.exists_windows windowMs _ (timesOf jti calls) le_rfl
  refine ⟨hsame, ws, hws, ?_, fun w _ => FixedWindow.count_windowVerdicts limit w.length⟩
  rw [hsame]
  exact FixedWindow.verdicts_eq_windows hlimit hws

def sampleCalls : List (String × ℤ) := [("a", 0), ("b", 1), ("a", 2), ("a", 10)]

/-- The second call of `a` comes in its first window, the third opens another. -/
theorem rate_limiter_refines_sample :
    answersTo "a" sampleCalls (answers 1 10 [] sampleCalls) = [true, false, true] := by
  have hsorted : sampleCalls.Pairwise fun a b => a.2 ≤ b.2 := by simp [sampleCalls]
  rw [(rate_limiter_refines le_rfl 10 hsorted "a").1]
  decide

end AgentDesk.RateLimiter
