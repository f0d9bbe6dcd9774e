/-
# Written numbers are literals

`spells_magnitude`: the text of a positive number, in each of the four forms of
`Number::toString`, is a literal with the digits and the exponent it was made of;
so by `shortest_reads` it reads back as the number.

The proof follows the literal's state over the digits before the point, after it
and in the exponent (`run_int`, `run_frac`, `run_exp`).

Key theorems: `decimalText_injective`, `decimalDigits_pos`, `spells_magnitude`, `literal_round`.
-/
import Mathlib.Data.Nat.Digits.Lemmas
import AgentDesk.JsonText

namespace JsonText

open Binary64

/-! ### Digits -/

theorem digit?_digitUnit : ∀ d < 10, digit? (digitUnit d) = some d := by decide

/-- The number with more digits. -/
def appendDigits (n : ℕ) (ds : List ℕ) : ℕ := ds.foldl (fun n d => 10 * n + d) n

theorem appendDigits_append (n : ℕ) (ds es : List ℕ) :
    appendDigits n (ds ++ es) = appendDigits (appendDigits n ds) es := List.foldl_append

theorem appendDigits_zeros (n k : ℕ) : appendDigits n (List.replicate k 0) = n * 10 ^ k := by
  induction k generalizing n with
  | zero => simp [appendDigits]
  | succ k ih =>
    have hcons : appendDigits n (List.replicate (k + 1) 0) = appendDigits (10 * n) (List.replicate k 0) := rfl
    rw [hcons, ih, Nat.pow_succ]
    ring

theorem decimalDigits_lt {n d : ℕ} (h : d ∈ decimalDigits n) : d < 10 := by
  unfold decimalDigits at h
  split at h
  · rw [List.mem_singleton.mp h]
    decide
  · exact Nat.digits_lt_base (by decide) (List.mem_reverse.mp h)

/-- The digits of a number come to it. -/
theorem appendDigits_decimalDigits (n : ℕ) : appendDigits 0 (decimalDigits n) = n := by
  by_cases hn : n = 0
  · subst hn
    rfl
  · have hfold : (Nat.digits 10 n).foldr (fun d n => 10 * n + d) 0 = Nat.ofDigits 10 (Nat.digits 10 n) := by
      rw [Nat.ofDigits_eq_foldr]
      congr 1
      funext d n
      simp [Nat.add_comm]
    rw [decimalDigits, if_neg hn, appendDigits, List.foldl_reverse, hfold, Nat.ofDigits_digits]

theorem digitUnit_of_mem_decimalText {n : ℕ} {c : UInt16} (h : c ∈ decimalText n) : unit '0' ≤ c ∧ c ≤ unit '9' := by
  have hdigit : ∀ d < 10, unit '0' ≤ digitUnit d ∧ digitUnit d ≤ unit '9' := by decide
  obtain ⟨d, hd, rfl⟩ := List.mem_map.mp h
  exact hdigit d (decimalDigits_lt hd)

/-- A number is read from its text. -/
theorem numeral_decimalText (n : ℕ) : numeral (decimalText n) = n := by
  have hdigit : ∀ d < 10, (digitUnit d).toNat - 48 = d := by decide
  have hfold : ∀ (ds : List ℕ) (m : ℕ), (∀ d ∈ ds, d < 10) →
      (ds.map digitUnit).foldl (fun n c => 10 * n + (c.toNat - 48)) m = appendDigits m ds := by
    intro ds
    induction ds with
    | nil => exact fun _ _ => rfl
    | cons d ds ih =>
      intro m hds
      have hfirst := hdigit d (hds d (.head _))
      rw [List.map_cons, List.foldl_cons, hfirst]
      exact ih _ fun e he => hds e (.tail _ he)
  exact (hfold _ 0 fun d hd => decimalDigits_lt hd).trans (appendDigits_decimalDigits n)

/-- Numbers with one text are the same. -/
theorem decimalText_injective : Function.Injective decimalText := by
  intro n m h
  rw [← numeral_decimalText n, h, numeral_decimalText]

/-- A number below `10^k` has `k` digits at most. -/
theorem length_decimalText_le {n k : ℕ} (hk : 0 < k) (h : n < 10 ^ k) : (decimalText n).length ≤ k := by
  rw [decimalText, List.length_map, decimalDigits]
  split
  · exact hk
  · rw [List.length_reverse]
    exact (Nat.digits_length_le_iff (by decide) n).mpr h

/-- The digits of a positive number, the first of which is not zero. -/
theorem decimalDigits_pos {n : ℕ} (hn : 0 < n) : ∃ d ds, decimalDigits n = d :: ds ∧ 0 < d ∧ d < 10 ∧
    (∀ x ∈ ds, x < 10) ∧ appendDigits d ds = n := by
  have hne : n ≠ 0 := hn.ne'
  have hdigits : decimalDigits n = (Nat.digits 10 n).reverse := if_neg hne
  have hvalue := appendDigits_decimalDigits n
  have hlt : ∀ x ∈ decimalDigits n, x < 10 := fun x hx => decimalDigits_lt hx
  cases hds : decimalDigits n with
  | nil =>
    rw [hds] at hvalue
    exact absurd hvalue.symm hne
  | cons d ds =>
    rw [hds] at hvalue hlt
    refine ⟨d, ds, rfl, ?_, hlt d (.head _), fun x hx => hlt x (.tail _ hx), ?_⟩
    · -- the last of the digits from the least is not zero
      have hnil : Nat.digits 10 n ≠ [] := Nat.digits_ne_nil_iff_ne_zero.mpr hne
      have hlast := Nat.getLast_digit_ne_zero 10 hne
      have hrev : (Nat.digits 10 n).getLast hnil = d := by
        rw [List.getLast_eq_head_reverse]
        simp [← hdigits, hds]
      rw [hrev] at hlast
      exact Nat.pos_of_ne_zero hlast
    · have hcons : appendDigits 0 (d :: ds) = appendDigits d ds := by simp [appendDigits]
      rw [← hcons, hvalue]

/-! ### Literals, unit by unit -/

def NumState.run (s : NumState) : Text → Option NumState
  | [] => some s
  | c :: cs => (s.step c).bind fun s => s.run cs

theorem NumState.run_append (s : NumState) (t u : Text) :
    s.run (t ++ u) = (s.run t).bind fun s => s.run u := by
  induction t generalizing s with
  | nil => rfl
  | cons c cs ih =>
    rw [List.cons_append, NumState.run, NumState.run]
    cases s.step c with
    | none => rfl
    | some s' => exact ih s'

theorem NumState.run_int {s : NumState} (hs : s.phase = .int) {ds : List ℕ} (hds : ∀ d ∈ ds, d < 10) :
    s.run (ds.map digitUnit) = some { s with digits := appendDigits s.digits ds } := by
  induction ds generalizing s with
  | nil => rfl
  | cons d ds ih =>
    have hstep : s.step (digitUnit d) = some (s.digit d) := by
      rw [NumState.step, hs]
      dsimp only
      rw [digit?_digitUnit d (hds d (.head _))]
    rw [List.map_cons, NumState.run, hstep]
    exact ih (s := s.digit d) hs fun x hx => hds x (.tail _ hx)

theorem NumState.run_frac {s : NumState} (hs : s.phase = .frac) {ds : List ℕ} (hds : ∀ d ∈ ds, d < 10) :
    s.run (ds.map digitUnit) =
      some { s with digits := appendDigits s.digits ds, scale := s.scale + ds.length } := by
  induction ds generalizing s with
  | nil => rfl
  | cons d ds ih =>
    have hstep : s.step (digitUnit d) = some (s.fracDigit d) := by
      rw [NumState.step, hs]
      dsimp only
      rw [digit?_digitUnit d (hds d (.head _))]
    rw [List.map_cons, NumState.run, hstep]
    have hrest := ih (s := s.fracDigit d) rfl fun x hx => hds x (.tail _ hx)
    have hscale : (s.fracDigit d).scale + ds.length = s.scale + (d :: ds).length := by
      rw [List.length_cons]
      show s.scale + 1 + ds.length = _
      omega
    rw [hscale] at hrest
    rw [Option.bind_some, hrest]
    show some { s with phase := .frac, digits := _, scale := _ } = _
    rw [← hs]
    rfl

theorem NumState.run_exp {s : NumState} (hs : s.phase = .exp) {ds : List ℕ} (hds : ∀ d ∈ ds, d < 10) :
    s.run (ds.map digitUnit) = some { s with exp := appendDigits s.exp ds } := by
  induction ds generalizing s with
  | nil => rfl
  | cons d ds ih =>
    have hstep : s.step (digitUnit d) = some (s.expDigit d) := by
      rw [NumState.step, hs]
      dsimp only
      rw [digit?_digitUnit d (hds d (.head _))]
      rfl
    rw [List.map_cons, NumState.run, hstep]
    have hrest := ih (s := s.expDigit d) rfl fun x hx => hds x (.tail _ hx)
    rw [Option.bind_some, hrest]
    show some { s with phase := .exp, exp := _ } = _
    rw [← hs]
    rfl

/-! ### Written numbers -/

/-- Before the first digit. -/
def NumState.start (neg : Bool) : NumState := ⟨.minus, neg, 0, 0, false, 0⟩

theorem NumState.start_step (neg : Bool) {d : ℕ} (hd : d < 10) : (NumState.start neg).step (digitUnit d) =
    some ⟨if d = 0 then .zero else .int, neg, d, 0, false, 0⟩ := by
  show (digit? (digitUnit d)).map _ = _
  rw [digit?_digitUnit d hd]
  rfl

/-- The literal that is written for these digits: without a point it has the zeros at its end. -/
def literal (neg : Bool) (c : Decimal) : Decimal :=
  if 0 ≤ c.exponent ∧ (decimalText c.digits).length + c.exponent ≤ 21 then
    ⟨neg, c.digits * 10 ^ c.exponent.toNat, 0⟩
  else ⟨neg, c.digits, c.exponent⟩

theorem literal_neg (neg : Bool) (c : Decimal) : (literal neg c).neg = neg := by
  unfold literal
  split <;> rfl

theorem literal_round (neg : Bool) (c : Decimal) : (literal neg c).round = c.round := by
  unfold literal
  split
  · rename_i hint
    have hden : Decimal.den ⟨neg, c.digits * 10 ^ c.exponent.toNat, 0⟩ = c.den := by
      have hzero : (-c.exponent).toNat = 0 := by omega
      rw [Decimal.den, Decimal.den, hzero]
      rfl
    have hnum : Decimal.num ⟨neg, c.digits * 10 ^ c.exponent.toNat, 0⟩ = c.num := by
      rw [Decimal.num, Decimal.num]
      show c.digits * 10 ^ c.exponent.toNat * 10 ^ 0 * _ = _
      rw [Nat.pow_zero, Nat.mul_one]
    rw [Decimal.round, Decimal.round, hden, hnum]
  · rfl

/-- What a literal's text does from the start of the literal. -/
structure Spells (text : Text) (neg : Bool) (c : Decimal) : Prop where
  head : ∃ d u, text = digitUnit d :: u ∧ d < 10
  run : ∃ s, (NumState.start neg).run text = some s ∧ s.accepting = true ∧ s.decimal = c

variable (neg : Bool) {d : ℕ} {ds : List ℕ}

theorem spells_int (hpos : 0 < d) (hd : d < 10) (hds : ∀ x ∈ ds, x < 10) :
    Spells ((d :: ds).map digitUnit) neg ⟨neg, appendDigits d ds, 0⟩ := by
  refine ⟨⟨d, ds.map digitUnit, rfl, hd⟩, ⟨.int, neg, appendDigits d ds, 0, false, 0⟩, ?_, rfl, rfl⟩
  rw [List.map_cons, NumState.run, NumState.start_step neg hd, if_neg hpos.ne', Option.bind_some,
    NumState.run_int rfl hds]

/-- A point and a digit at least after what ends in `zero` or `int`. -/
theorem NumState.run_point {s : NumState} (hs : s.phase = .zero ∨ s.phase = .int) {x : ℕ} {xs : List ℕ}
    (hx : x < 10) (hxs : ∀ y ∈ xs, y < 10) : s.run (unit '.' :: (x :: xs).map digitUnit) =
      some { s with
        phase := .frac, digits := appendDigits s.digits (x :: xs), scale := s.scale + (x :: xs).length } := by
  have hnone : digit? (unit '.') = none := by decide
  have hpoint : s.step (unit '.') = some { s with phase := .point } := by
    rcases hs with hs | hs
    · rw [NumState.step, hs]
      rfl
    · rw [NumState.step, hs]
      dsimp only
      rw [hnone]
      rfl
  have hfirst : NumState.step { s with phase := .point } (digitUnit x) = some (s.fracDigit x) := by
    show (digit? (digitUnit x)).map _ = _
    rw [digit?_digitUnit x hx]
    rfl
  rw [NumState.run, hpoint, Option.bind_some, List.map_cons, NumState.run, hfirst, Option.bind_some,
    NumState.run_frac (s := s.fracDigit x) rfl hxs]
  have hscale : (s.fracDigit x).scale + xs.length = s.scale + (x :: xs).length := by
    rw [List.length_cons]
    show s.scale + 1 + xs.length = _
    omega
  rw [hscale]
  rfl

theorem spells_point {ds₁ : List ℕ} {x : ℕ} {xs : List ℕ} (hpos : 0 < d) (hd : d < 10)
    (hds : ∀ y ∈ ds₁, y < 10) (hx : x < 10) (hxs : ∀ y ∈ xs, y < 10) :
    Spells ((d :: ds₁).map digitUnit ++ unit '.' :: (x :: xs).map digitUnit) neg
      ⟨neg, appendDigits d (ds₁ ++ x :: xs), -((x :: xs).length : ℤ)⟩ := by
  refine ⟨⟨d, _, rfl, hd⟩,
    ⟨.frac, neg, appendDigits d (ds₁ ++ x :: xs), (x :: xs).length, false, 0⟩, ?_, rfl, ?_⟩
  · rw [NumState.run_append, List.map_cons, NumState.run, NumState.start_step neg hd, if_neg hpos.ne',
      Option.bind_some, NumState.run_int rfl hds, Option.bind_some, NumState.run_point (.inr rfl) hx hxs,
      appendDigits_append]
    simp
  · simp [NumState.decimal]

theorem spells_zero_point {x : ℕ} {xs : List ℕ} (hx : x < 10) (hxs : ∀ y ∈ xs, y < 10) :
    Spells (unit '0' :: unit '.' :: (x :: xs).map digitUnit) neg
      ⟨neg, appendDigits 0 (x :: xs), -((x :: xs).length : ℤ)⟩ := by
  refine ⟨⟨0, _, rfl, by omega⟩,
    ⟨.frac, neg, appendDigits 0 (x :: xs), (x :: xs).length, false, 0⟩, ?_, rfl, ?_⟩
  · have hzero : (NumState.start neg).step (unit '0') = some ⟨.zero, neg, 0, 0, false, 0⟩ :=
      NumState.start_step neg (by omega : 0 < 10)
    rw [NumState.run, hzero, Option.bind_some, NumState.run_point (.inl rfl) hx hxs]
    simp
  · simp [NumState.decimal]

/-- An exponent after what ends in `int` or `frac`. -/
theorem NumState.run_exponent {s : NumState} (hs : s.phase = .int ∨ s.phase = .frac) (hneg : s.expNeg = false)
    (hexp : s.exp = 0) {e : ℤ} (he : e ≠ 0) :
    s.run (unit 'e' :: (if e < 0 then unit '-' else unit '+') :: decimalText e.natAbs) =
      some { s with phase := .exp, expNeg := decide (e < 0), exp := e.natAbs } := by
  have hnone : digit? (unit 'e') = none := by decide
  have hmark : s.step (unit 'e') = some { s with phase := .mark } := by
    rcases hs with hs | hs
    · rw [NumState.step, hs]
      dsimp only
      rw [hnone]
      rfl
    · rw [NumState.step, hs]
      dsimp only
      rw [hnone]
      rfl
  have hsign : NumState.step { s with phase := .mark } (if e < 0 then unit '-' else unit '+') =
      some { s with phase := .sign, expNeg := decide (e < 0) } := by
    by_cases he : e < 0
    · rw [if_pos he, decide_eq_true he]
      rfl
    · rw [if_neg he, decide_eq_false he, ← hneg]
      rfl
  obtain ⟨d, ds, hdigits, -, hd, hds, hvalue⟩ := decimalDigits_pos (Int.natAbs_pos.mpr he)
  have hfirst : NumState.step { s with phase := .sign, expNeg := decide (e < 0) } (digitUnit d) =
      some { s with phase := .exp, expNeg := decide (e < 0), exp := d } := by
    show (digit? (digitUnit d)).map _ = _
    rw [digit?_digitUnit d hd]
    show some { s with phase := .exp, expNeg := _, exp := 10 * s.exp + d } = _
    rw [hexp, Nat.mul_zero, Nat.zero_add]
  rw [NumState.run, hmark, Option.bind_some, NumState.run, hsign, Option.bind_some, decimalText, hdigits,
    List.map_cons, NumState.run, hfirst, Option.bind_some, NumState.run_exp rfl hds]
  dsimp only
  rw [hvalue]

/-- The point after the first digits, of which there are more. -/
theorem spells_point_at (hpos : 0 < d) (hd : d < 10) (hds : ∀ x ∈ ds, x < 10) {n : ℕ} (hn : n < ds.length) :
    Spells (((d :: ds).map digitUnit).take (n + 1) ++ unit '.' :: ((d :: ds).map digitUnit).drop (n + 1)) neg
      ⟨neg, appendDigits d ds, -((ds.length - n : ℕ) : ℤ)⟩ := by
  have htake : ∀ y ∈ ds.take n, y < 10 := fun y hy => hds y (List.mem_of_mem_take hy)
  have hdrops : ∀ y ∈ ds.drop n, y < 10 := fun y hy => hds y (List.mem_of_mem_drop hy)
  have hlen : (ds.drop n).length = ds.length - n := List.length_drop
  have hsplit : ds.take n ++ ds.drop n = ds := List.take_append_drop n ds
  rw [← List.map_take, ← List.map_drop, List.take_succ_cons, List.drop_succ_cons]
  generalize ds.drop n = rest at hdrops hlen hsplit
  cases rest with
  | nil =>
    rw [List.length_nil] at hlen
    omega
  | cons x xs =>
    have hspell := spells_point neg hpos hd htake (hdrops x (.head _)) fun y hy => hdrops y (.tail _ hy)
    rw [hsplit, hlen] at hspell
    exact hspell

/-- Zeros after the point before the digits. -/
theorem spells_small (hd : d < 10) (hds : ∀ x ∈ ds, x < 10) (z : ℕ) :
    Spells (unit '0' :: unit '.' :: (List.replicate z (unit '0') ++ (d :: ds).map digitUnit)) neg
      ⟨neg, appendDigits d ds, -((z + ds.length + 1 : ℕ) : ℤ)⟩ := by
  have hzero : unit '0' = digitUnit 0 := rfl
  have hmap : List.replicate z (unit '0') ++ (d :: ds).map digitUnit =
      (List.replicate z 0 ++ d :: ds).map digitUnit := by
    rw [hzero, List.map_append, List.map_replicate]
  have hall : ∀ y ∈ List.replicate z 0 ++ d :: ds, y < 10 := by
    intro y hy
    rcases List.mem_append.mp hy with hy | hy
    · rw [List.eq_of_mem_replicate hy]
      omega
    · rcases List.mem_cons.mp hy with rfl | hy
      · exact hd
      · exact hds y hy
  have hvalue : appendDigits 0 (List.replicate z 0 ++ d :: ds) = appendDigits d ds := by
    rw [appendDigits_append, appendDigits_zeros, Nat.zero_mul, appendDigits, List.foldl_cons, Nat.mul_zero,
      Nat.zero_add]
    rfl
  have hlen : (List.replicate z 0 ++ d :: ds).length = z + ds.length + 1 := by
    rw [List.length_append, List.length_replicate, List.length_cons, Nat.add_assoc]
  rw [hmap]
  generalize List.replicate z 0 ++ d :: ds = all at hall hvalue hlen
  cases all with
  | nil => cases hlen
  | cons x xs =>
    have hspell := spells_zero_point neg (hall x (.head _)) fun y hy => hall y (.tail _ hy)
    rw [hvalue, hlen] at hspell
    exact hspell

theorem NumState.decimal_exponent (neg : Bool) (digits scale : ℕ) (e : ℤ) :
    NumState.decimal ⟨.exp, neg, digits, scale, decide (e < 0), e.natAbs⟩ = ⟨neg, digits, e - scale⟩ := by
  unfold NumState.decimal
  dsimp only
  congr 2
  split
  · rename_i he
    have he := of_decide_eq_true he
    omega
  · rename_i he
    have he := of_decide_eq_false (Bool.eq_false_of_not_eq_true he)
    omega

theorem spells_exponent (hpos : 0 < d) (hd : d < 10) (hds : ∀ x ∈ ds, x < 10) {e : ℤ} (he : e ≠ 0) :
    Spells ([digitUnit d] ++ (if ds.length = 0 then [] else unit '.' :: ds.map digitUnit) ++
        unit 'e' :: (if e < 0 then unit '-' else unit '+') :: decimalText e.natAbs) neg
      ⟨neg, appendDigits d ds, e - ds.length⟩ := by
  refine ⟨⟨d, _, rfl, hd⟩, ⟨.exp, neg, appendDigits d ds, ds.length, decide (e < 0), e.natAbs⟩, ?_, rfl,
    NumState.decimal_exponent ..⟩
  have hfirst : (NumState.start neg).run [digitUnit d] = some ⟨.int, neg, d, 0, false, 0⟩ := by
    rw [NumState.run, NumState.start_step neg hd, if_neg hpos.ne']
    rfl
  cases ds with
  | nil =>
    rw [if_pos List.length_nil, List.append_nil, NumState.run_append, hfirst, Option.bind_some,
      NumState.run_exponent (.inl rfl) rfl rfl he]
    rfl
  | cons x xs =>
    have hmore : (x :: xs).length ≠ 0 := Nat.succ_ne_zero xs.length
    rw [if_neg hmore, NumState.run_append, NumState.run_append, hfirst, Option.bind_some,
      NumState.run_point (.inr rfl) (hds x (.head _)) fun y hy => hds y (.tail _ hy), Option.bind_some,
      NumState.run_exponent (.inr rfl) rfl rfl he]
    simp

/-- The text of a positive number spells its digits, in each of the four forms. -/
theorem spells_magnitude {c : Decimal} (hc : 0 < c.digits) (neg : Bool) :
    Spells (magnitudeText c) neg (literal neg c) := by
  obtain ⟨d, ds, hdigits, hpos, hd, hds, hvalue⟩ := decimalDigits_pos hc
  have htext : decimalText c.digits = (d :: ds).map digitUnit := by rw [decimalText, hdigits]
  have hlen : (decimalText c.digits).length = ds.length + 1 := by rw [htext, List.length_map, List.length_cons]
  have hzero : unit '0' = digitUnit 0 := rfl
  unfold magnitudeText
  dsimp only
  rw [hlen]
  push_cast
  split
  · rename_i hform
    have hlit : literal neg c = ⟨neg, c.digits * 10 ^ c.exponent.toNat, 0⟩ := by
      rw [literal, if_pos ⟨by omega, by rw [hlen]; push_cast; omega⟩]
    have hcount : ((ds.length : ℤ) + 1 + c.exponent - (ds.length + 1)).toNat = c.exponent.toNat := by
      congr 1
      omega
    have hall : ∀ x ∈ ds ++ List.replicate c.exponent.toNat 0, x < 10 := by
      intro x hx
      rcases List.mem_append.mp hx with hx | hx
      · exact hds x hx
      · rw [List.eq_of_mem_replicate hx]
        omega
    have hspell := spells_int neg hpos hd hall
    rw [appendDigits_append, hvalue, appendDigits_zeros] at hspell
    rw [hlit, hcount, htext, hzero, ← List.map_replicate, ← List.map_append, List.cons_append]
    exact hspell
  rename_i hform
  have hlit : literal neg c = ⟨neg, c.digits, c.exponent⟩ := by
    rw [literal, if_neg]
    rw [hlen]
    push_cast
    omega
  rw [hlit]
  split
  · rename_i hpoint
    obtain ⟨n, hn⟩ : ∃ n : ℕ, ((ds.length : ℤ) + 1 + c.exponent).toNat = n + 1 :=
      ⟨((ds.length : ℤ) + c.exponent).toNat, by omega⟩
    have hspell := spells_point_at neg hpos hd hds (n := n) (by omega)
    have hexp : -((ds.length - n : ℕ) : ℤ) = c.exponent := by omega
    rw [hexp, hvalue] at hspell
    rw [hn, htext]
    exact hspell
  split
  · rename_i hsmall
    have hspell := spells_small neg hd hds (-((ds.length : ℤ) + 1 + c.exponent)).toNat
    have hexp : -(((-((ds.length : ℤ) + 1 + c.exponent)).toNat + ds.length + 1 : ℕ) : ℤ) = c.exponent := by omega
    rw [hexp, hvalue] at hspell
    rw [htext]
    exact hspell
  · rename_i hexpo
    have hne : (ds.length : ℤ) + 1 + c.exponent - 1 ≠ 0 := by omega
    have hspell := spells_exponent neg hpos hd hds hne
    have hexp : (ds.length : ℤ) + 1 + c.exponent - 1 - ds.length = c.exponent := by omega
    rw [hexp, hvalue] at hspell
    rw [htext]
    exact hspell

end JsonText
