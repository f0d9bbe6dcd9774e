/-
# Binary64 arithmetic on whole numbers

Products, quotients and floors of `Binary64` numbers: each is the exact result, rounded. What they come to is stated
for whole numbers, which stay whole when they are rounded, and below 2^53 stay as they are.

* `whole_lt_round`, `round_lt_whole`: with a dividend below 2^53 a quotient never rounds to a whole number on either
  side of it.
* `mathFloor_div`: so the floor of the rounded quotient is the quotient of integers, rounded down.
* `mul_ofInt`: the product of two whole numbers that are doubles is their product, rounded.

A result that is no number is `none`.
-/
import AgentDesk.Binary64
import Mathlib.Algebra.Order.Ring.Nat
import Mathlib.Tactic.Linarith
import Mathlib.Tactic.Ring

namespace Binary64

/-! ### The size of an error -/

theorem roundDiv_near (a : ℕ) {d : ℕ} (hd : 0 < d) :
    2 * a ≤ 2 * (roundDiv a d * d) + d ∧ 2 * (roundDiv a d * d) ≤ 2 * a + d := by
  have hdiv := Nat.div_add_mod' a d
  have hmod := Nat.mod_lt a hd
  unfold roundDiv
  split
  · rename_i hdown
    simp only [roundsDown, Bool.or_eq_true, Bool.and_eq_true, decide_eq_true_eq] at hdown
    omega
  · rename_i hup
    simp only [roundsDown, Bool.or_eq_true, Bool.and_eq_true, decide_eq_true_eq] at hup
    have hsucc : (a / d + 1) * d = a / d * d + d := Nat.succ_mul _ _
    rw [hsucc]
    omega

theorem step_small (a d : ℕ) : step (a / d) = 0 ∨ d * 2 ^ step (a / d) * 2 ^ 52 ≤ a := by
  by_cases hzero : step (a / d) = 0
  · exact .inl hzero
  · right
    have hlog : 52 < (a / d).log2 := by
      unfold step at hzero
      omega
    have hne : a / d ≠ 0 := by
      intro h
      rw [h] at hlog
      simp at hlog
    have hexp : step (a / d) + 52 = (a / d).log2 := by
      unfold step
      omega
    calc d * 2 ^ step (a / d) * 2 ^ 52 = d * 2 ^ (a / d).log2 := by rw [Nat.mul_assoc, ← Nat.pow_add, hexp]
      _ ≤ d * (a / d) := Nat.mul_le_mul_left d (Nat.log2_self_le hne)
      _ ≤ a := Nat.mul_div_le a d

theorem round_scale (a d : ℕ) {c : ℕ} (hc : 0 < c) : round (a * c) (d * c) = round a d := by
  have hdown : ∀ u, roundsDown (a * c) (u * c) = roundsDown a u := by
    intro u
    have hmod : 2 * (a * c % (u * c)) = 2 * (a % u) * c := by rw [Nat.mul_mod_mul_right, Nat.mul_assoc]
    have hlt : 2 * (a % u) * c < u * c ↔ 2 * (a % u) < u := Nat.mul_lt_mul_right hc
    have heq : 2 * (a % u) * c = u * c ↔ 2 * (a % u) = u := Nat.mul_left_inj hc.ne'
    simp only [roundsDown, hmod, hlt, heq, Nat.mul_div_mul_right _ _ hc]
  have hdiv : ∀ u, roundDiv (a * c) (u * c) = roundDiv a u := by
    intro u
    rw [roundDiv, hdown, Nat.mul_div_mul_right _ _ hc, roundDiv]
  unfold round
  dsimp only
  rw [Nat.mul_div_mul_right _ _ hc, Nat.mul_right_comm d c, hdiv]

/-! ### Whole numbers -/

/-- The double nearest to a whole number is one too; `none` is `Infinity`. -/
def wholeRound (n : ℕ) : Option ℕ := (round (n * 2 ^ places) 1).map (· / 2 ^ places)

theorem whole_lt_bound {n : ℕ} (h : n ≤ 2 ^ 53) : n * 2 ^ places < bound := by
  have hexp : 53 + places < places + 1024 := by omega
  calc n * 2 ^ places ≤ 2 ^ 53 * 2 ^ places := Nat.mul_le_mul_right _ h
    _ = 2 ^ (53 + places) := by rw [Nat.pow_add]
    _ < bound := Nat.pow_lt_pow_right Nat.one_lt_two hexp

theorem log2_shift_lt (p : ℕ) {n : ℕ} (hn : 0 < n) (h : n < 2 ^ 53) : (n * 2 ^ p).log2 < 53 + p := by
  have hunit : 0 < 2 ^ p := Nat.two_pow_pos _
  rw [Nat.log2_lt (Nat.mul_pos hn hunit).ne', Nat.pow_add]
  exact Nat.mul_lt_mul_of_pos_right h hunit

theorem representable_whole {n : ℕ} (h : n < 2 ^ 53) : Representable (n * 2 ^ places) := by
  refine ⟨whole_lt_bound h.le, ?_⟩
  have hstep : step (n * 2 ^ places) ≤ places := by
    rcases Nat.eq_zero_or_pos n with rfl | hn
    · simp [step]
    have hlog := log2_shift_lt places hn h
    unfold step
    omega
  exact Nat.dvd_mul_left_of_dvd (Nat.pow_dvd_pow 2 hstep) n

theorem round_whole (n : ℕ) : round (n * 2 ^ places) 1 = (wholeRound n).map (· * 2 ^ places) := by
  have hdvd : ∀ m, round (n * 2 ^ places) 1 = some m → 2 ^ places ∣ m := by
    intro m hm
    unfold round at hm
    rw [Nat.div_one] at hm
    dsimp only at hm
    rw [Nat.one_mul] at hm
    generalize hs : step (n * 2 ^ places) = s at hm
    split at hm
    case isFalse => cases hm
    case isTrue =>
    obtain rfl := Option.some.inj hm
    rcases Nat.le_total places s with hle | hle
    · exact Nat.dvd_mul_left_of_dvd (Nat.pow_dvd_pow 2 hle) _
    · -- a small unit divides the number, which is its own rounding
      obtain ⟨c, hc⟩ := Nat.exists_eq_add_of_le' hle
      have hexact : n * 2 ^ places = n * 2 ^ c * 2 ^ s := by rw [hc, Nat.pow_add, Nat.mul_assoc]
      rw [hexact, roundDiv_exact (Nat.two_pow_pos s), ← hexact]
      exact Nat.dvd_mul_left _ n
  unfold wholeRound
  cases h : round (n * 2 ^ places) 1 with
  | none => rfl
  | some m =>
    rw [Option.map_some, Option.map_some, Nat.div_mul_cancel (hdvd m h)]

theorem wholeRound_representable {n m : ℕ} (h : wholeRound n = some m) : Representable (m * 2 ^ places) := by
  have hround := round_whole n
  rw [h] at hround
  exact round_representable hround

theorem wholeRound_exact {n : ℕ} (h : Representable (n * 2 ^ places)) : wholeRound n = some n := by
  have hround := round_exact h Nat.one_pos
  rw [Nat.mul_one] at hround
  rw [wholeRound, hround, Option.map_some, Nat.mul_div_cancel _ (Nat.two_pow_pos _)]

/-- Below 2^53 a whole number is its own rounding. -/
theorem wholeRound_small {n : ℕ} (h : n < 2 ^ 53) : wholeRound n = some n := wholeRound_exact (representable_whole h)

/-- Is a whole number rounded to `Infinity`? None below 2^53 is. -/
def overflows (n : ℕ) : Bool := 2 ^ 53 ≤ n && (wholeRound n).isNone

theorem overflows_eq (n : ℕ) : overflows n = (wholeRound n).isNone := by
  by_cases h : n < 2 ^ 53
  · rw [overflows, wholeRound_small h, decide_eq_false (not_le.mpr h)]
    rfl
  · rw [overflows, decide_eq_true (not_lt.mp h), Bool.true_and]

/-- From 2^53 on it rounds to no less. -/
theorem wholeRound_large {n m : ℕ} (hn : 2 ^ 53 ≤ n) (h : wholeRound n = some m) : 2 ^ 53 ≤ m := by
  have hround := round_whole n
  rw [h, Option.map_some] at hround
  unfold round at hround
  rw [Nat.div_one] at hround
  dsimp only at hround
  rw [Nat.one_mul] at hround
  have hpos : n * 2 ^ places ≠ 0 := (Nat.mul_pos (by omega) (Nat.two_pow_pos _)).ne'
  have hlog : 53 + places ≤ (n * 2 ^ places).log2 := by
    rw [Nat.le_log2 hpos, Nat.pow_add]
    exact Nat.mul_le_mul_right _ hn
  generalize hL : (n * 2 ^ places).log2 = L at hlog
  have hstep : step (n * 2 ^ places) = L - 52 := by rw [step, hL]
  have hself : 2 ^ L ≤ n * 2 ^ places := hL ▸ Nat.log2_self_le hpos
  rw [hstep] at hround
  split at hround
  case isFalse => cases hround
  case isTrue =>
  have heq := Option.some.inj hround
  -- the significand has its leading bit
  have hquotient : 2 ^ 52 ≤ n * 2 ^ places / 2 ^ (L - 52) := by
    rw [Nat.le_div_iff_mul_le (Nat.two_pow_pos _), ← Nat.pow_add, Nat.add_sub_cancel' (by omega)]
    exact hself
  have hrounded : 2 ^ 52 ≤ roundDiv (n * 2 ^ places) (2 ^ (L - 52)) := by
    unfold roundDiv
    split <;> omega
  have hall : 2 ^ 53 * 2 ^ places ≤ m * 2 ^ places := by
    calc 2 ^ 53 * 2 ^ places = 2 ^ (53 + places) := by rw [Nat.pow_add]
      _ ≤ 2 ^ L := Nat.pow_le_pow_right Nat.two_pos hlog
      _ = 2 ^ 52 * 2 ^ (L - 52) := by rw [← Nat.pow_add, Nat.add_sub_cancel' (by omega)]
      _ ≤ roundDiv (n * 2 ^ places) (2 ^ (L - 52)) * 2 ^ (L - 52) := Nat.mul_le_mul_right _ hrounded
      _ = m * 2 ^ places := heq
  exact Nat.le_of_mul_le_mul_right hall (Nat.two_pow_pos _)

/-! ### Quotients of whole numbers -/

/-- The unit of such a quotient is less than twice what separates it from a whole number. -/
theorem unit_small (p : ℕ) {a d : ℕ} (ha : a < 2 ^ 53) (hd : d < 2 ^ (p + 1)) :
    d * 2 ^ step (a * 2 ^ p / d) < 2 * 2 ^ p := by
  have htwice : 2 ^ (p + 1) = 2 * 2 ^ p := by rw [Nat.pow_succ, Nat.mul_comm]
  rcases step_small (a * 2 ^ p) d with hzero | hsmall
  · rw [hzero, Nat.pow_zero, Nat.mul_one, ← htwice]
    exact hd
  · have hlt : a * 2 ^ p < 2 ^ 53 * 2 ^ p := Nat.mul_lt_mul_of_pos_right ha (Nat.two_pow_pos p)
    generalize d * 2 ^ step (a * 2 ^ p / d) = e at hsmall ⊢
    omega

section Quotient

variable (p : ℕ) {a d : ℕ} (ha : a < 2 ^ 53) (hpos : 0 < d) (hd : d < 2 ^ (p + 1))

include ha hpos hd

/-- A quotient over a whole number is rounded to more than it. -/
theorem whole_lt_round {k : ℕ} (hk : k * d < a) :
    k * 2 ^ p < roundDiv (a * 2 ^ p) (d * 2 ^ step (a * 2 ^ p / d)) * 2 ^ step (a * 2 ^ p / d) := by
  have hgap := unit_small p ha hd
  generalize hu : 2 ^ step (a * 2 ^ p / d) = u at hgap ⊢
  have hupos : 0 < u := hu ▸ Nat.two_pow_pos _
  have hnear := (roundDiv_near (a * 2 ^ p) (Nat.mul_pos hpos hupos)).1
  generalize roundDiv (a * 2 ^ p) (d * u) = m at hnear ⊢
  by_contra hle
  have hless : m * u * d ≤ k * 2 ^ p * d := Nat.mul_le_mul_right d (not_lt.mp hle)
  have hnext : (k * d + 1) * 2 ^ p ≤ a * 2 ^ p := Nat.mul_le_mul_right _ hk
  nlinarith

/-- A quotient under a whole number is rounded to less than it. -/
theorem round_lt_whole {k : ℕ} (hk : a < k * d) :
    roundDiv (a * 2 ^ p) (d * 2 ^ step (a * 2 ^ p / d)) * 2 ^ step (a * 2 ^ p / d) < k * 2 ^ p := by
  have hgap := unit_small p ha hd
  generalize hu : 2 ^ step (a * 2 ^ p / d) = u at hgap ⊢
  have hupos : 0 < u := hu ▸ Nat.two_pow_pos _
  have hnear := (roundDiv_near (a * 2 ^ p) (Nat.mul_pos hpos hupos)).2
  generalize roundDiv (a * 2 ^ p) (d * u) = m at hnear ⊢
  by_contra hle
  have hmore : k * 2 ^ p * d ≤ m * u * d := Nat.mul_le_mul_right d (not_lt.mp hle)
  have hnext : (a + 1) * 2 ^ p ≤ k * d * 2 ^ p := Nat.mul_le_mul_right _ hk
  nlinarith

end Quotient

theorem whole_lt_of_representable {d : ℕ} (h : Representable (d * 2 ^ places)) : d < 2 ^ (places + 1) := by
  have hexp : places + 1024 ≤ places + (places + 1) := by
    have hplaces : places = 1074 := rfl
    omega
  have hlt : 2 ^ places * d < 2 ^ places * 2 ^ (places + 1) := by
    calc 2 ^ places * d = d * 2 ^ places := Nat.mul_comm _ _
      _ < bound := h.1
      _ ≤ 2 ^ (places + (places + 1)) := Nat.pow_le_pow_right Nat.two_pos hexp
      _ = 2 ^ places * 2 ^ (places + 1) := by rw [Nat.pow_add]
  exact Nat.lt_of_mul_lt_mul_left hlt

/-- **The whole numbers around a rounded quotient are those around the quotient.** -/
theorem round_quotient {a d : ℕ} (ha : a < 2 ^ 53) (hpos : 0 < d) (hd : d < 2 ^ (places + 1)) :
    ∃ n, round (a * 2 ^ places) d = some n ∧ n / 2 ^ places = a / d ∧
      (n + 2 ^ places - 1) / 2 ^ places = (a + d - 1) / d := by
  have hunit : 0 < 2 ^ places := Nat.two_pow_pos _
  by_cases hexact : d ∣ a
  · obtain ⟨k, hk⟩ := hexact
    have hle : k ≤ a := by
      rw [hk]
      exact Nat.le_mul_of_pos_left k hpos
    refine ⟨k * 2 ^ places, ?_, ?_, ?_⟩
    · have hround := round_exact (representable_whole (hle.trans_lt ha)) hpos
      rw [hk, Nat.mul_comm d, Nat.mul_right_comm]
      exact hround
    · rw [hk, Nat.mul_div_cancel k hunit, Nat.mul_div_cancel_left k hpos]
    · rw [hk, Nat.mul_comm d, Nat.add_sub_assoc hunit, Nat.add_sub_assoc hpos, Nat.add_comm, Nat.add_comm (k * d),
        Nat.add_mul_div_right _ _ hunit, Nat.add_mul_div_right _ _ hpos, Nat.div_eq_of_lt (by omega),
        Nat.div_eq_of_lt (by omega)]
  · have hdiv := Nat.div_add_mod' a d
    have hmod := Nat.mod_lt a hpos
    have hrest : a % d ≠ 0 := fun h => hexact (Nat.dvd_of_mod_eq_zero h)
    have hsucc : (a / d + 1) * d = a / d * d + d := Nat.succ_mul _ _
    have hlow : a / d * d < a := by omega
    have hhigh : a < (a / d + 1) * d := by omega
    have hbelow := whole_lt_round places ha hpos hd hlow
    have habove := round_lt_whole places ha hpos hd hhigh
    have hsmall : a / d + 1 ≤ 2 ^ 53 := by
      have hself := Nat.div_le_self a d
      omega
    unfold round
    dsimp only
    generalize roundDiv (a * 2 ^ places) (d * 2 ^ step (a * 2 ^ places / d)) * 2 ^ step (a * 2 ^ places / d) = n
      at hbelow habove ⊢
    rw [if_pos (habove.trans (whole_lt_bound hsmall))]
    refine ⟨n, rfl, ?_, ?_⟩
    · apply Nat.div_eq_of_lt_le hbelow.le
      exact habove
    · have hceil : (a + d - 1) / d = a / d + 1 := by
        apply Nat.div_eq_of_lt_le
        · omega
        · have hnext : (a / d + 1 + 1) * d = a / d * d + d + d := by ring
          show a + d - 1 < (a / d + 1 + 1) * d
          omega
      rw [hceil]
      have hnext : (a / d + 1 + 1) * 2 ^ places = a / d * 2 ^ places + 2 ^ places + 2 ^ places := by ring
      have hone : (a / d + 1) * 2 ^ places = a / d * 2 ^ places + 2 ^ places := Nat.succ_mul _ _
      rw [hone] at habove
      apply Nat.div_eq_of_lt_le
      · rw [hone]
        omega
      · show n + 2 ^ places - 1 < (a / d + 1 + 1) * 2 ^ places
        rw [hnext]
        omega

/-! ### Operations -/

/-- `± a / d` units, rounded. -/
def Double.ofQuotient (neg : Bool) (a d : ℕ) : Double := .ofUnits neg (round a d) fun _ h => round_representable h

def Double.ofInt (n : ℤ) : Double := .ofQuotient (n < 0) (n.natAbs * 2 ^ places) 1

def Double.mul : Double → Double → Option Double
  | .finite s a _, .finite t b _ => some (.ofQuotient (s ^^ t) (a * b) (2 ^ places))
  | .finite s a _, .infinity t | .infinity t, .finite s a _ => if a = 0 then none else some (.infinity (s ^^ t))
  | .infinity s, .infinity t => some (.infinity (s ^^ t))

def Double.div : Double → Double → Option Double
  | .finite s a _, .finite t b _ =>
    if b ≠ 0 then some (.ofQuotient (s ^^ t) (a * 2 ^ places) b)
    else if a = 0 then none
    else some (.infinity (s ^^ t))
  | .finite s _ _, .infinity t => some (.ofQuotient (s ^^ t) 0 1)
  | .infinity s, .finite t _ _ => some (.infinity (s ^^ t))
  | .infinity _, .infinity _ => none

/-- The greatest whole number that is not greater; it needs no rounding. -/
def Double.mathFloor : Double → Double
  | .finite false a _ => .ofQuotient false (a / 2 ^ places * 2 ^ places) 1
  | .finite true a _ => .ofQuotient true ((a + 2 ^ places - 1) / 2 ^ places * 2 ^ places) 1
  | .infinity s => .infinity s

theorem Double.ofUnits_congr {neg : Bool} {units units' : Option ℕ} (h : units = units')
    (hall : ∀ n, units = some n → Representable n) (hall' : ∀ n, units' = some n → Representable n) :
    Double.ofUnits neg units hall = .ofUnits neg units' hall' := by
  subst h
  rfl

theorem Double.ofQuotient_some {neg : Bool} {a d n : ℕ} (h : round a d = some n) :
    Double.ofQuotient neg a d = .finite neg n (round_representable h) := Double.ofUnits_some h _ _

theorem Double.ofQuotient_none {neg : Bool} {a d : ℕ} (h : round a d = none) :
    Double.ofQuotient neg a d = .infinity neg := by
  have hnone : ∀ n, (none : Option ℕ) = some n → Representable n := nofun
  exact Double.ofUnits_congr h _ hnone

theorem Double.ofQuotient_congr {neg : Bool} {a d a' d' : ℕ} (h : round a d = round a' d') :
    Double.ofQuotient neg a d = .ofQuotient neg a' d' := Double.ofUnits_congr h _ _

theorem Double.ofQuotient_exact (neg : Bool) {n : ℕ} (h : Representable n) :
    Double.ofQuotient neg n 1 = .finite neg n h := by
  have hround := round_exact h Nat.one_pos
  rw [Nat.mul_one] at hround
  exact Double.ofQuotient_some hround

theorem Double.ofInt_eq {n : ℤ} (h : Representable (n.natAbs * 2 ^ places)) :
    Double.ofInt n = .finite (n < 0) (n.natAbs * 2 ^ places) h := Double.ofQuotient_exact _ h

theorem Double.ofInt_zero (h : Representable 0) : Double.ofInt 0 = .finite false 0 h := by
  rw [Double.ofInt, Int.natAbs_zero, Nat.zero_mul]
  exact Double.ofQuotient_exact false h

theorem Double.ofInt_round {n m : ℕ} (h : wholeRound n = some m) : Double.ofInt n = .ofInt m := by
  have hsign : decide ((n : ℤ) < 0) = decide ((m : ℤ) < 0) := by
    rw [decide_eq_false (not_lt.mpr (Int.natCast_nonneg n)), decide_eq_false (not_lt.mpr (Int.natCast_nonneg m))]
  have hround : round ((n : ℤ).natAbs * 2 ^ places) 1 = round ((m : ℤ).natAbs * 2 ^ places) 1 := by
    rw [Int.natAbs_natCast, Int.natAbs_natCast, round_whole, round_whole, h,
      wholeRound_exact (wholeRound_representable h)]
  rw [Double.ofInt, Double.ofInt, hsign]
  exact Double.ofQuotient_congr hround

theorem Double.ofInt_infinity {n : ℤ} (h : wholeRound n.natAbs = none) : Double.ofInt n = .infinity (n < 0) := by
  have hround : round (n.natAbs * 2 ^ places) 1 = none := by rw [round_whole, h, Option.map_none]
  exact Double.ofQuotient_none hround

/-- **The product of two whole numbers is theirs, rounded.** -/
theorem Double.mul_ofInt {a : ℤ} {b : ℕ} (ha : Representable (a.natAbs * 2 ^ places))
    (hb : Representable (b * 2 ^ places)) (hpos : 0 < b) :
    (Double.ofInt a).mul (.ofInt b) = some (.ofInt (a * b)) := by
  have hnat : Representable ((b : ℤ).natAbs * 2 ^ places) := hb
  have hsign : (decide (a < 0) ^^ decide ((b : ℤ) < 0)) = decide (a * b < 0) := by
    have hb' : (0 : ℤ) < b := Int.natCast_pos.mpr hpos
    have hneg : a * b < 0 ↔ a < 0 := by
      constructor
      · exact fun h => by_contra fun hn => absurd h (not_lt.mpr (Int.mul_nonneg (not_lt.mp hn) hb'.le))
      · exact fun h => Int.mul_neg_of_neg_of_pos h hb'
    simp only [hneg, decide_eq_false (not_lt.mpr hb'.le), Bool.xor_false]
  have hround : round (a.natAbs * 2 ^ places * (b * 2 ^ places)) (2 ^ places) =
      round ((a * b).natAbs * 2 ^ places) 1 := by
    have hscale := round_scale (a.natAbs * b * 2 ^ places) 1 (Nat.two_pow_pos places)
    rw [Int.natAbs_mul, Int.natAbs_natCast, ← hscale, Nat.one_mul, Nat.mul_mul_mul_comm, ← Nat.mul_assoc]
  rw [Double.ofInt_eq ha, Double.ofInt_eq hnat, Double.mul, hsign]
  exact congrArg some (Double.ofQuotient_congr hround)

/-- **The floor of a rounded quotient is the quotient of integers.** -/
theorem Double.mathFloor_div {a : ℤ} {d : ℕ} (ha : a.natAbs < 2 ^ 53) (hpos : 0 < d)
    (hd : Representable (d * 2 ^ places)) :
    ((Double.ofInt a).div (.ofInt d)).map Double.mathFloor = some (.ofInt (a / d)) := by
  have hnat : Representable ((d : ℤ).natAbs * 2 ^ places) := hd
  obtain ⟨n, hround, hfloor, hceil⟩ := round_quotient ha hpos (whole_lt_of_representable hd)
  have hne : d * 2 ^ places ≠ 0 := (Nat.mul_pos hpos (Nat.two_pow_pos _)).ne'
  have hscaled : round (a.natAbs * 2 ^ places * 2 ^ places) (d * 2 ^ places) = some n := by
    rw [round_scale _ _ (Nat.two_pow_pos places), hround]
  have hd' : decide ((d : ℤ) < 0) = false := decide_eq_false (not_lt.mpr (Int.natCast_nonneg d))
  rw [Double.ofInt_eq (representable_whole ha), Double.ofInt_eq hnat, Double.div, Int.natAbs_natCast, if_pos hne, hd',
    Bool.xor_false, Double.ofQuotient_some hscaled, Option.map_some, Double.ofInt]
  rcases Int.lt_or_le a 0 with hneg | hnonneg
  · have hquotient : a / d = -((a.natAbs + d - 1) / d : ℕ) := by
      have hdiv := Nat.div_add_mod' (a.natAbs + d - 1) d
      have hmod := Nat.mod_lt (a.natAbs + d - 1) hpos
      rw [Int.ediv_eq_iff_of_pos (Int.natCast_pos.mpr hpos), Int.neg_mul, ← Int.natCast_mul]
      omega
    have hsign : decide (a / d < 0) = true := by
      rw [decide_eq_true_iff]
      exact Int.ediv_neg_of_neg_of_pos hneg (Int.natCast_pos.mpr hpos)
    have hsize : (a / d).natAbs = (a.natAbs + d - 1) / d := by rw [hquotient, Int.natAbs_neg, Int.natAbs_natCast]
    rw [hsign, hsize, ← hceil]
    simp only [decide_eq_true hneg]
    rfl
  · have hsign : decide (a / d < 0) = false := by
      rw [decide_eq_false_iff_not, not_lt]
      exact Int.ediv_nonneg hnonneg (Int.natCast_nonneg d)
    have hsize : (a / d).natAbs = a.natAbs / d := by
      obtain ⟨m, rfl⟩ := Int.eq_ofNat_of_zero_le hnonneg
      rfl
    rw [hsign, hsize, ← hfloor]
    simp only [decide_eq_false (not_lt.mpr hnonneg)]
    rfl

theorem Double.mathFloor_div_zero (x : Double) : ((x.div (.ofInt 0)).bind fun q => q.mathFloor.mul (.ofInt 0)) = none := by
  have hzero : Representable 0 := ⟨bound_pos, Nat.dvd_zero _⟩
  rw [Double.ofInt_zero hzero]
  cases x with
  | infinity s => rfl
  | finite s a h =>
    rw [Double.div, if_neg (not_not.mpr rfl)]
    split <;> rfl

theorem Double.mathFloor_div_infinity (s t : Bool) {a : ℕ} (h : Representable a) :
    (((Double.finite s a h).div (.infinity t)).bind fun q => q.mathFloor.mul (.infinity t)) = none := by
  have hzero : Representable 0 := ⟨bound_pos, Nat.dvd_zero _⟩
  have hceil : (0 + 2 ^ places - 1) / 2 ^ places = 0 := by
    have hunit : 0 < 2 ^ places := Nat.two_pow_pos _
    apply Nat.div_eq_of_lt
    omega
  have hfloor : ∀ neg, (Double.finite neg 0 hzero).mathFloor = .finite neg 0 hzero := by
    intro neg
    cases neg with
    | false =>
      rw [Double.mathFloor, Nat.zero_div, Nat.zero_mul]
      exact Double.ofQuotient_exact false hzero
    | true =>
      rw [Double.mathFloor, hceil, Nat.zero_mul]
      exact Double.ofQuotient_exact true hzero
  rw [Double.div, Double.ofQuotient_exact _ hzero, Option.bind_some, hfloor, Double.mul, if_pos rfl]

end Binary64
