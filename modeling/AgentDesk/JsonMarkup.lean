/-
# JSON texts within markup

A JSON text that stands in markup as it is opens a tag where it has a `<`, and a reference where it has a `&`.
Neither is of its layout, of a number or of an escape: each comes from a string or from a name, which are written
with these units unchanged.

* `pretty_plain_iff`, `stringify_plain_iff`: JSON opens something where a string or a name does.
-/
import AgentDesk.JsonPretty
import AgentDesk.Markup

namespace JsonText

open Binary64 Markup

mutual

/-- No string and no name in the value has a unit that opens a tag or a reference. -/
def Json.PlainStrings : Value → Prop
  | .str s => PlainText s
  | .arr l => PlainStringsList l
  | .obj fields => PlainStringsFields fields
  | _ => True

def PlainStringsList : List Value → Prop
  | [] => True
  | v :: l => v.PlainStrings ∧ PlainStringsList l

def PlainStringsFields : List (Text × Value) → Prop
  | [] => True
  | (key, v) :: fields => PlainText key ∧ v.PlainStrings ∧ PlainStringsFields fields

end

theorem plainText_of_all {t : Text} (h : t.all (fun c => c ≠ unit '<' && c ≠ unit '&') = true) : PlainText t := by
  intro c hc
  simpa using List.all_eq_true.mp h c hc

theorem literals_plain : PlainText ("null".toList.map unit) ∧ PlainText ("true".toList.map unit) ∧
    PlainText ("false".toList.map unit) :=
  ⟨plainText_of_all (by decide +kernel), plainText_of_all (by decide +kernel), plainText_of_all (by decide +kernel)⟩

theorem plainText_nil : PlainText [] := fun _ h => absurd h List.not_mem_nil

theorem plainText_append {t u : Text} : PlainText (t ++ u) ↔ PlainText t ∧ PlainText u := List.forall_mem_append

theorem plainText_cons {c : UInt16} (hc : c ≠ unit '<' ∧ c ≠ unit '&') {t : Text} :
    PlainText (c :: t) ↔ PlainText t := by
  rw [PlainText, List.forall_mem_cons, iff_true_intro hc, true_and]
  rfl

theorem plainText_replicate {c : UInt16} (hc : c ≠ unit '<' ∧ c ≠ unit '&') (n : ℕ) : PlainText (List.replicate n c) :=
  fun _ hd => List.eq_of_mem_replicate hd ▸ hc

theorem plainText_sublist {t u : Text} (h : t.Sublist u) (hu : PlainText u) : PlainText t :=
  fun c hc => hu c (h.subset hc)

theorem newline_plain (depth : ℕ) : PlainText (newline depth) :=
  (plainText_cons (by decide)).mpr (plainText_replicate (by decide) _)

theorem decimalText_plain (n : ℕ) : PlainText (decimalText n) := by
  have hdigit : ∀ d < 10, digitUnit d ≠ unit '<' ∧ digitUnit d ≠ unit '&' := by decide
  intro c hc
  obtain ⟨d, hd, rfl⟩ := List.mem_map.mp hc
  exact hdigit d (decimalDigits_lt hd)

theorem magnitudeText_plain (c : Decimal) : PlainText (magnitudeText c) := by
  have hds := decimalText_plain c.digits
  have htake : ∀ n, PlainText ((decimalText c.digits).take n) := fun n => plainText_sublist (List.take_sublist n _) hds
  have hdrop : ∀ n, PlainText ((decimalText c.digits).drop n) := fun n => plainText_sublist (List.drop_sublist n _) hds
  have hzeros : ∀ n, PlainText (List.replicate n (unit '0')) := plainText_replicate (by decide)
  unfold magnitudeText
  dsimp only
  split
  · exact plainText_append.mpr ⟨hds, hzeros _⟩
  · split
    · exact plainText_append.mpr ⟨htake _, (plainText_cons (by decide)).mpr (hdrop _)⟩
    · split
      · exact (plainText_cons (by decide)).mpr ((plainText_cons (by decide)).mpr (plainText_append.mpr ⟨hzeros _, hds⟩))
      · refine plainText_append.mpr ⟨plainText_append.mpr ⟨htake 1, ?_⟩, (plainText_cons (by decide)).mpr ?_⟩
        · split
          · exact plainText_nil
          · exact (plainText_cons (by decide)).mpr (hdrop 1)
        · split
          · exact (plainText_cons (by decide)).mpr (decimalText_plain _)
          · exact (plainText_cons (by decide)).mpr (decimalText_plain _)

theorem numberText_plain (x : Double) : PlainText (numberText x) := by
  cases x with
  | infinity neg => exact literals_plain.1
  | finite neg n h =>
    rw [numberText]
    split
    · exact (plainText_cons (by decide)).mpr plainText_nil
    · refine plainText_append.mpr ⟨?_, magnitudeText_plain _⟩
      split
      · exact (plainText_cons (by decide)).mpr plainText_nil
      · exact plainText_nil

theorem escapeUnit_plain_iff (c : UInt16) : PlainText (JsonText.escapeUnit c) ↔ c ≠ unit '<' ∧ c ≠ unit '&' := by
  by_cases h : c = unit '<' ∨ c = unit '&'
  · have hself : JsonText.escapeUnit c = [c] := by rcases h with rfl | rfl <;> decide
    rw [hself]
    exact List.forall_mem_singleton
  · have hc : c ≠ unit '<' ∧ c ≠ unit '&' := not_or.mp h
    have hhex : ∀ d < 16, hexUnit d ≠ unit '<' ∧ hexUnit d ≠ unit '&' := by decide
    refine iff_of_true ?_ hc
    unfold JsonText.escapeUnit
    have hpair : ∀ d : UInt16, d ≠ unit '<' ∧ d ≠ unit '&' → PlainText [unit '\\', d] := fun d hd =>
      (plainText_cons (by decide)).mpr ((plainText_cons hd).mpr plainText_nil)
    split_ifs
    · exact hpair c hc
    · exact hpair _ (by decide)
    · exact hpair _ (by decide)
    · exact hpair _ (by decide)
    · exact hpair _ (by decide)
    · exact hpair _ (by decide)
    · have hlt : c.toNat < 65536 := c.toNat_lt
      have h0 := hhex (c.toNat / 4096) (by omega)
      have h1 := hhex (c.toNat / 256 % 16) (by omega)
      have h2 := hhex (c.toNat / 16 % 16) (by omega)
      have h3 := hhex (c.toNat % 16) (by omega)
      unfold hexEscape
      rw [plainText_cons (by decide), plainText_cons (by decide), plainText_cons h0, plainText_cons h1,
        plainText_cons h2, plainText_cons h3]
      exact plainText_nil
    · exact (plainText_cons hc).mpr plainText_nil

theorem plainText_cons_iff {c : UInt16} {t : Text} : PlainText (c :: t) ↔ (c ≠ unit '<' ∧ c ≠ unit '&') ∧ PlainText t :=
  List.forall_mem_cons

theorem escapeText_plain_iff (t : Text) : PlainText (escapeText t) ↔ PlainText t := by
  induction t using escapeText.induct with
  | case1 => rfl
  | case2 c => rw [escapeText, escapeUnit_plain_iff, plainText_cons_iff, iff_true_intro plainText_nil, and_true]
  | case3 c d rest hpair ih =>
    rw [escapeText, if_pos hpair, plainText_cons_iff, plainText_cons_iff, ih, plainText_cons_iff, plainText_cons_iff]
  | case4 c d rest hpair ih =>
    rw [escapeText, if_neg hpair, plainText_append, escapeUnit_plain_iff, ih, plainText_cons_iff (t := d :: rest)]

theorem quote_plain_iff (t : Text) : PlainText (quote t) ↔ PlainText t := by
  have hend : PlainText [unit '"'] := (plainText_cons (by decide)).mpr plainText_nil
  rw [quote, plainText_cons (by decide), plainText_append, escapeText_plain_iff, iff_true_intro hend, and_true]

mutual

/-- **JSON opens something** where a string or a name does. -/
theorem pretty_plain_iff : ∀ (v : Value) (depth : ℕ), PlainText (pretty depth v) ↔ v.PlainStrings
  | .null, _ => iff_of_true literals_plain.1 trivial
  | .bool true, _ => iff_of_true literals_plain.2.1 trivial
  | .bool false, _ => iff_of_true literals_plain.2.2 trivial
  | .num x, _ => iff_of_true (numberText_plain x) trivial
  | .str s, _ => quote_plain_iff s
  | .arr [], _ => iff_of_true (plainText_of_all (by decide : [unit '[', unit ']'].all _ = true)) trivial
  | .arr (v :: l), depth => by
    have hend : PlainText [unit ']'] := (plainText_cons (by decide)).mpr plainText_nil
    rw [pretty, plainText_cons (by decide), plainText_append, plainText_append, plainText_append, plainText_append,
      pretty_plain_iff v, prettyElements_plain_iff l]
    simp [newline_plain, hend, Json.PlainStrings, PlainStringsList]
  | .obj [], _ => iff_of_true (plainText_of_all (by decide : [unit '{', unit '}'].all _ = true)) trivial
  | .obj ((key, v) :: fields), depth => by
    have hend : PlainText [unit '}'] := (plainText_cons (by decide)).mpr plainText_nil
    rw [pretty, plainText_cons (by decide), plainText_append, plainText_append, plainText_cons (by decide),
      plainText_cons (by decide), plainText_append, plainText_append, plainText_append, quote_plain_iff,
      pretty_plain_iff v, prettyMembers_plain_iff fields]
    simp [newline_plain, hend, Json.PlainStrings, PlainStringsFields]

theorem prettyElements_plain_iff : ∀ (l : List Value) (depth : ℕ),
    PlainText (prettyElements depth l) ↔ PlainStringsList l
  | [], _ => iff_of_true plainText_nil trivial
  | v :: l, depth => by
    rw [prettyElements, plainText_cons (by decide), plainText_append, plainText_append, pretty_plain_iff v,
      prettyElements_plain_iff l]
    simp [newline_plain, PlainStringsList]

theorem prettyMembers_plain_iff : ∀ (fields : List (Text × Value)) (depth : ℕ),
    PlainText (prettyMembers depth fields) ↔ PlainStringsFields fields
  | [], _ => iff_of_true plainText_nil trivial
  | (key, v) :: fields, depth => by
    rw [prettyMembers, plainText_cons (by decide), plainText_append, plainText_append, plainText_cons (by decide),
      plainText_cons (by decide), plainText_append, quote_plain_iff, pretty_plain_iff v, prettyMembers_plain_iff fields]
    simp [newline_plain, PlainStringsFields]

end

mutual

/-- On one line as well. -/
theorem stringify_plain_iff : ∀ v : Value, PlainText (stringify v) ↔ v.PlainStrings
  | .null => iff_of_true literals_plain.1 trivial
  | .bool true => iff_of_true literals_plain.2.1 trivial
  | .bool false => iff_of_true literals_plain.2.2 trivial
  | .num x => iff_of_true (numberText_plain x) trivial
  | .str s => quote_plain_iff s
  | .arr [] => iff_of_true ((plainText_cons (by decide)).mpr ((plainText_cons (by decide)).mpr plainText_nil)) trivial
  | .arr (v :: l) => by
    have hend : PlainText [unit ']'] := (plainText_cons (by decide)).mpr plainText_nil
    rw [stringify, plainText_cons (by decide), plainText_append, plainText_append, stringify_plain_iff v,
      elementsText_plain_iff l]
    simp [hend, Json.PlainStrings, PlainStringsList]
  | .obj [] => iff_of_true ((plainText_cons (by decide)).mpr ((plainText_cons (by decide)).mpr plainText_nil)) trivial
  | .obj ((key, v) :: fields) => by
    have hend : PlainText [unit '}'] := (plainText_cons (by decide)).mpr plainText_nil
    rw [stringify, plainText_cons (by decide), plainText_append, plainText_cons (by decide), plainText_append,
      plainText_append, quote_plain_iff, stringify_plain_iff v, membersText_plain_iff fields]
    simp [hend, Json.PlainStrings, PlainStringsFields]

theorem elementsText_plain_iff : ∀ l : List Value, PlainText (elementsText l) ↔ PlainStringsList l
  | [] => iff_of_true plainText_nil trivial
  | v :: l => by
    rw [elementsText, plainText_cons (by decide), plainText_append, stringify_plain_iff v, elementsText_plain_iff l,
      PlainStringsList]

theorem membersText_plain_iff : ∀ fields : List (Text × Value),
    PlainText (membersText fields) ↔ PlainStringsFields fields
  | [] => iff_of_true plainText_nil trivial
  | (key, v) :: fields => by
    rw [membersText, plainText_cons (by decide), plainText_append, plainText_cons (by decide), plainText_append,
      quote_plain_iff, stringify_plain_iff v, membersText_plain_iff fields, PlainStringsFields]

end

end JsonText
