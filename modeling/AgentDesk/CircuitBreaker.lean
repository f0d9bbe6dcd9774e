/-
# How often a host that crashes is started

`src/circuit-breaker.ts`: at its start the host reads how often it was started
before without a clean shutdown, each time within an hour of the time before,
counts on, and waits: not for the first two, then for longer and longer. A
clean shutdown removes the file.

* `crash_loop_rate`: whatever the file says and however long the host runs
  before it crashes, from a start to the tenth after it is an hour at least.

A time is in milliseconds, as the clock of the host gives it. `none` is a file
that is not there or not JSON.
-/
import Mathlib.Data.Int.Notation
import Mathlib.Data.List.Basic

namespace AgentDesk.CircuitBreaker

def RESET_WINDOW_MS : ℤ := 60 * 60 * 1000

/-- In seconds, by the number of crashes. -/
def BACKOFF_SCHEDULE_S : List ℕ := [0, 0, 10, 30, 120, 300, 900]

structure CircuitBreakerState where
  attempt : ℕ
  timestamp : ℤ
  deriving DecidableEq, Repr

def getDelay (attempt : ℕ) : ℕ := BACKOFF_SCHEDULE_S.getD (min (attempt - 1) (BACKOFF_SCHEDULE_S.length - 1)) 0

/-- The file that a start writes, and the seconds it waits. -/
def enforceStartupBackoff (prev : Option CircuitBreakerState) (now : ℤ) : CircuitBreakerState × ℕ :=
  let attempt := match prev with
    | none => 1
    | some prev => if now - prev.timestamp < RESET_WINDOW_MS then prev.attempt + 1 else 1
  (⟨attempt, now⟩, getDelay attempt)

/-- When a host that ran for so many milliseconds before it crashed is started again. -/
def nextStart (prev : Option CircuitBreakerState) (now : ℤ) (uptime : ℕ) : ℤ :=
  now + 1000 * (enforceStartupBackoff prev now).2 + uptime

/-- The times of the starts of a host that crashes after each. -/
def starts (prev : Option CircuitBreakerState) (now : ℤ) : List ℕ → List ℤ
  | [] => [now]
  | uptime :: uptimes => now :: starts (some (enforceStartupBackoff prev now).1) (nextStart prev now uptime) uptimes

variable {prev : Option CircuitBreakerState} {now first last : ℤ} {uptimes : List ℕ}

theorem attempt_pos : 1 ≤ (enforceStartupBackoff prev now).1.attempt := by
  unfold enforceStartupBackoff
  dsimp only
  split
  · omega
  · split <;> omega

theorem attempt_next {uptime : ℕ} (h : nextStart prev now uptime - now < RESET_WINDOW_MS) :
    (enforceStartupBackoff (some (enforceStartupBackoff prev now).1) (nextStart prev now uptime)).1.attempt =
      (enforceStartupBackoff prev now).1.attempt + 1 :=
  if_pos h

theorem getDelay_mono {k n : ℕ} (h : k ≤ n) : getDelay k ≤ getDelay n := by
  have hsorted : ∀ j < 7, ∀ i ≤ j, BACKOFF_SCHEDULE_S.getD i 0 ≤ BACKOFF_SCHEDULE_S.getD j 0 := by decide
  apply hsorted
  · show min (n - 1) 6 < 7
    omega
  · show min (k - 1) 6 ≤ min (n - 1) 6
    omega

theorem starts_zero : (starts prev now uptimes)[0]? = some now := by cases uptimes <;> rfl

theorem le_starts {n : ℕ} (hlast : (starts prev now uptimes)[n]? = some last) : now ≤ last := by
  induction n generalizing prev now uptimes with
  | zero => exact Int.le_of_eq (Option.some.inj (starts_zero.symm.trans hlast))
  | succ n ih =>
    cases uptimes with
    | nil => cases hlast
    | cons uptime uptimes =>
      have hnext : nextStart prev now uptime ≤ last := ih hlast
      unfold nextStart at hnext
      omega

/-- The seconds waited by `n` starts, of which the first is the `k`-th attempt. -/
def waited (k : ℕ) : ℕ → ℕ
  | 0 => 0
  | n + 1 => getDelay k + waited (k + 1) n

theorem waited_le {n k : ℕ} (hk : k ≤ (enforceStartupBackoff prev now).1.attempt)
    (hlast : (starts prev now uptimes)[n]? = some last) (hwindow : last - now < RESET_WINDOW_MS) :
    now + 1000 * waited k n ≤ last := by
  induction n generalizing k prev now uptimes with
  | zero => simpa [waited] using le_starts hlast
  | succ n ih =>
    cases uptimes with
    | nil => cases hlast
    | cons uptime uptimes =>
      have hdelay : getDelay k ≤ (enforceStartupBackoff prev now).2 := getDelay_mono hk
      have hstep : now + 1000 * getDelay k ≤ nextStart prev now uptime := by
        unfold nextStart
        omega
      have hnext : nextStart prev now uptime ≤ last := @le_starts _ _ last uptimes n hlast
      have hattempt := @attempt_next prev now uptime (by omega)
      have hrest := ih (k := k + 1) (by omega) hlast (by omega)
      rw [waited]
      omega

/-- **A host that crashes and crashes is started ten times an hour at most**: whatever the file says, and however long
the host runs before each crash. -/
theorem crash_loop_rate (prev : Option CircuitBreakerState) (now : ℤ) (uptimes : List ℕ) {i : ℕ}
    (hfirst : (starts prev now uptimes)[i]? = some first) (hlast : (starts prev now uptimes)[i + 10]? = some last) :
    RESET_WINDOW_MS ≤ last - first := by
  induction i generalizing prev now uptimes with
  | zero =>
    obtain rfl := Option.some.inj (starts_zero.symm.trans hfirst)
    by_contra hwindow
    have hwaited := waited_le attempt_pos hlast (by omega)
    have htotal : waited 1 10 = 4060 := by decide
    rw [htotal] at hwaited
    unfold RESET_WINDOW_MS at hwindow
    omega
  | succ i ih =>
    cases uptimes with
    | nil => cases hfirst
    | cons uptime uptimes => exact ih _ _ uptimes hfirst hlast

/-- A host that crashes at once: the tenth start after the first is more than an hour later. -/
theorem crash_loop_rate_sample : RESET_WINDOW_MS ≤ 4060000 - 0 :=
  crash_loop_rate none 0 (List.replicate 10 0) (i := 0) rfl rfl

end AgentDesk.CircuitBreaker
