/-
# Binary64 numbers and decimals

A finite binary64 magnitude is a natural number of units of 2^-1074, the smallest
positive one: `n` units are representable when `n` is below the bound of the
exponents and has no bit set below its 53 leading ones. So reading a decimal is
rounding a quotient of naturals, and no rational arithmetic is needed.

* `round_exact`: a representable number is its own rounding.
* `round_representable`: what rounding gives is representable.
* `shortest_reads`: the shortest decimal that is written for a number reads back
  as it.

There is no NaN: no decimal reads as one.
-/
import Mathlib.Algebra.Ring.Nat
import Mathlib.Data.Nat.Log

namespace Binary64

/-! ### Rounding -/

/-- A unit is `2^-places`. -/
def places : ℕ := 1074

/-- Between the doubles next to `n` units lie `2 ^ step n` units. -/
def step (n : ℕ) : ℕ := Nat.log2 n - 52

/-- 2^1024, in units. -/
def bound : ℕ := 2 ^ (places + 1024)

theorem bound_pos : 0 < bound := Nat.two_pow_pos _

def Representable (n : ℕ) : Prop := n < bound ∧ 2 ^ step n ∣ n

instance (n : ℕ) : Decidable (Representable n) := inferInstanceAs (Decidable (_ ∧ _))

/-- The remainder is under half of the divisor, or half and the quotient even. -/
def roundsDown (a d : ℕ) : Bool := 2 * (a % d) < d || (2 * (a % d) = d && a / d % 2 = 0)

/-- The integer nearest to `a / d`, ties to even. -/
def roundDiv (a d : ℕ) : ℕ := if roundsDown a d then a / d else a / d + 1

/-- The double nearest to `a / d` units, ties to even; `none` where it would reach the bound. -/
def round (a d : ℕ) : Option ℕ :=
  let unit := 2 ^ step (a / d)
  let n := roundDiv a (d * unit) * unit
  if n < bound then some n else none

theorem roundDiv_exact {q d : ℕ} (hd : 0 < d) : roundDiv (q * d) d = q := by
  have hdown : roundsDown (q * d) d = true := by simp [roundsDown, hd]
  rw [roundDiv, if_pos hdown, Nat.mul_div_cancel q hd]

/-- A representable number is its own rounding. -/
theorem round_exact {n d : ℕ} (hn : Representable n) (hd : 0 < d) : round (n * d) d = some n := by
  obtain ⟨hbound, m, hm⟩ := hn
  unfold round
  rw [Nat.mul_div_cancel n hd]
  have hunit : 0 < d * 2 ^ step n := Nat.mul_pos hd (Nat.two_pow_pos _)
  have hexact : roundDiv (n * d) (d * 2 ^ step n) = m := by
    have hnd : n * d = m * (d * 2 ^ step n) := by
      rw [Nat.mul_comm d, ← Nat.mul_assoc, Nat.mul_comm m, ← hm]
    rw [hnd, roundDiv_exact hunit]
  dsimp only
  rw [hexact, Nat.mul_comm m, ← hm, if_pos hbound]

theorem roundDiv_le (a d : ℕ) : roundDiv a (d * 2 ^ step (a / d)) ≤ 2 ^ 53 := by
  have hlt : a / (d * 2 ^ step (a / d)) < 2 ^ 53 := by
    rw [← Nat.div_div_eq_div_mul]
    apply Nat.div_lt_of_lt_mul
    have hlog : a / d < 2 ^ ((a / d).log2 + 1) := Nat.lt_log2_self
    have hle : (a / d).log2 + 1 ≤ step (a / d) + 53 := by
      unfold step
      omega
    calc a / d < 2 ^ ((a / d).log2 + 1) := hlog
      _ ≤ 2 ^ (step (a / d) + 53) := Nat.pow_le_pow_right (by omega) hle
      _ = 2 ^ step (a / d) * 2 ^ 53 := Nat.pow_add ..
  unfold roundDiv
  split <;> omega

/-- What rounding gives is a double. -/
theorem round_representable {a d n : ℕ} (h : round a d = some n) : Representable n := by
  unfold round at h
  dsimp only at h
  split at h
  case isFalse => cases h
  case isTrue hbound =>
  obtain rfl := Option.some.inj h
  refine ⟨hbound, ?_⟩
  have hle := roundDiv_le a d
  generalize roundDiv a (d * 2 ^ step (a / d)) = m at hle
  generalize step (a / d) = p
  rcases Nat.lt_or_eq_of_le hle with hlt | rfl
  · -- the result has no more bits than the significand and the unit
    have hstep : step (m * 2 ^ p) ≤ p := by
      rcases Nat.eq_zero_or_pos m with rfl | hm
      · simp [step]
      have hunit : 0 < 2 ^ p := Nat.two_pow_pos p
      have hpos : m * 2 ^ p ≠ 0 := (Nat.mul_pos hm hunit).ne'
      have hlog : (m * 2 ^ p).log2 < 53 + p := by
        rw [Nat.log2_lt hpos, Nat.pow_add]
        exact Nat.mul_lt_mul_of_pos_right hlt hunit
      unfold step
      omega
    exact Nat.dvd_mul_left_of_dvd (Nat.pow_dvd_pow 2 hstep) m
  · have hstep : step (2 ^ (53 + p)) ≤ 53 + p := by
      unfold step
      rw [Nat.log2_two_pow]
      omega
    rw [← Nat.pow_add]
    exact Nat.pow_dvd_pow 2 hstep

/-! ### Numbers and decimals -/

/-- A binary64 number that is not NaN. -/
inductive Double where
  | finite (neg : Bool) (units : ℕ) (h : Representable units)
  | infinity (neg : Bool)
  deriving DecidableEq

/-- `± digits · 10^exponent`. -/
structure Decimal where
  neg : Bool
  digits : ℕ
  exponent : ℤ
  deriving DecidableEq, Repr

/-- The magnitude in units is `num / den`. -/
def Decimal.num (c : Decimal) : ℕ := c.digits * 10 ^ c.exponent.toNat * 2 ^ places

def Decimal.den (c : Decimal) : ℕ := 10 ^ (-c.exponent).toNat

def Decimal.round (c : Decimal) : Option ℕ := Binary64.round c.num c.den

/-- A number of units, where there is one. -/
def Double.ofUnits (neg : Bool) : (units : Option ℕ) → (∀ n, units = some n → Representable n) → Double
  | some n, h => .finite neg n (h n rfl)
  | none, _ => .infinity neg

/-- The number a decimal reads as. -/
def Double.ofDecimal (c : Decimal) : Double := .ofUnits c.neg c.round fun _ h => round_representable h

theorem Double.ofUnits_some {neg : Bool} {units : Option ℕ} {n : ℕ} (h : units = some n)
    (hn : Representable n) (hall : ∀ n, units = some n → Representable n) :
    Double.ofUnits neg units hall = .finite neg n hn := by
  subst h
  rfl

theorem Double.ofDecimal_finite {c : Decimal} {n : ℕ} (hn : Representable n) (h : c.round = some n) :
    Double.ofDecimal c = .finite c.neg n hn := Double.ofUnits_some h hn _

-- 2^53 + 1 is halfway and goes to the even one
example : Double.ofDecimal ⟨false, 9007199254740993, 0⟩ = .ofDecimal ⟨false, 9007199254740992, 0⟩ := by
  decide +kernel

-- the first decimal of these digits that is no finite number
example : Double.ofDecimal ⟨true, 17976931348623159, 292⟩ = .infinity true := by decide +kernel

/-! ### The shortest decimal -/

/-- The multiples of `10^p` on both sides of `n` units, the nearer first, and of two equally near the even one. -/
def nearest (n : ℕ) (p : ℤ) : List ℕ :=
  let a := n * 10 ^ (-p).toNat
  let d := 2 ^ places * 10 ^ p.toNat
  if roundsDown a d then [a / d, a / d + 1] else [a / d + 1, a / d]

/-- A decimal in whole `10^p` that reads as `n` units. -/
def shortestAt (n : ℕ) (p : ℤ) : Option Decimal :=
  ((nearest n p).map fun s => ⟨false, s, p⟩).find? fun c => c.round = some n

/-- The powers of ten a double can be written in, from the largest: the bound is below `10^309`. -/
def scales : List ℤ := (List.range (309 + places)).map fun i : ℕ => 308 - (i : ℤ)

/-- The decimal with the fewest digits that reads as `n` units, the nearest of them. -/
def shortest (n : ℕ) : Decimal := (scales.findSome? (shortestAt n)).getD ⟨false, 0, 0⟩

theorem shortestAt_reads {n : ℕ} {p : ℤ} {c : Decimal} (h : shortestAt n p = some c) : c.round = some n := by
  simpa using List.find?_some h

theorem shortestAt_exact {n : ℕ} (hn : Representable n) : (shortestAt n (-(places : ℤ))).isSome = true := by
  generalize hk : places = k
  have hneg : (-(-(k : ℤ))).toNat = k := by omega
  have hzero : (-(k : ℤ)).toNat = 0 := by omega
  have hmul : n * 10 ^ k = n * 5 ^ k * 2 ^ k := by
    rw [Nat.mul_assoc, ← Nat.mul_pow]
  have hfirst : n * 5 ^ k ∈ nearest n (-(k : ℤ)) := by
    unfold nearest
    rw [hneg, hzero, hk, Nat.pow_zero, Nat.mul_one, hmul]
    dsimp only
    rw [Nat.mul_div_cancel _ (Nat.two_pow_pos k)]
    split <;> simp
  have hround : Decimal.round ⟨false, n * 5 ^ k, -(k : ℤ)⟩ = some n := by
    have hnum : Decimal.num ⟨false, n * 5 ^ k, -(k : ℤ)⟩ = n * 10 ^ k := by
      unfold Decimal.num
      dsimp only
      rw [hzero, hk, Nat.pow_zero, Nat.mul_one, hmul]
    have hden : Decimal.den ⟨false, n * 5 ^ k, -(k : ℤ)⟩ = 10 ^ k := by
      unfold Decimal.den
      dsimp only
      rw [hneg]
    rw [Decimal.round, hnum, hden]
    exact round_exact hn (Nat.pow_pos (by omega))
  unfold shortestAt
  rw [List.find?_isSome]
  exact ⟨_, List.mem_map.mpr ⟨_, hfirst, rfl⟩, by simpa using hround⟩

/-- The decimal that is written for a number reads back as it. -/
theorem shortest_reads {n : ℕ} (hn : Representable n) : (shortest n).round = some n := by
  have hmem : -(places : ℤ) ∈ scales := by
    refine List.mem_map.mpr ⟨308 + places, ?_, ?_⟩
    · rw [List.mem_range]
      omega
    · rw [Int.natCast_add]
      omega
  obtain ⟨c, hc⟩ : ∃ c, scales.findSome? (shortestAt n) = some c := by
    rw [← Option.isSome_iff_exists, List.isSome_findSome?, List.any_eq_true]
    exact ⟨_, hmem, shortestAt_exact hn⟩
  obtain ⟨p, -, hp⟩ := List.exists_of_findSome?_eq_some hc
  rw [shortest, hc]
  exact shortestAt_reads hp

theorem shortest_pos {n : ℕ} (hn : Representable n) (hpos : 0 < n) : 0 < (shortest n).digits := by
  by_contra hzero
  have hreads := shortest_reads hn
  have hnum : (shortest n).num = 0 := by
    rw [Decimal.num, Nat.eq_zero_of_not_pos hzero, Nat.zero_mul, Nat.zero_mul]
  have hround : (shortest n).round = some 0 := by
    have hzero : Representable 0 := ⟨bound_pos, Nat.dvd_zero _⟩
    have hden : 0 < (shortest n).den := Nat.pow_pos (by omega)
    have hexact := round_exact hzero hden
    rw [Nat.zero_mul] at hexact
    rw [Decimal.round, hnum, hexact]
  have heq : (0 : ℕ) = n := Option.some.inj (hround.symm.trans hreads)
  rw [← heq] at hpos
  exact Nat.lt_irrefl 0 hpos

-- the double next to 10^23 is below it, and is written so all the same
example : ((Decimal.round ⟨false, 1, 23⟩).bind fun n => shortestAt n 23) = some ⟨false, 1, 23⟩ := by decide +kernel

end Binary64
