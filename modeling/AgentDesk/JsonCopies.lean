/-
# Copies through JSON

A value that is written and parsed again may have lost an infinity or the sign of a zero, and nothing else: it
is written as the first was, so it is as long, and to copy it again changes nothing.

* `stringify_rewritten`: a copy is written as the value was.
* `rewritten_rewritten`: a copy is its own copy.
* `cloneJson_cloneJson`, `stringify_cloneJson`: the same for objects.
-/
import AgentDesk.JsonSettings

namespace JsonText

open Binary64

theorem rewritten_obj {fields : List (Text × Value)} (ho : (Json.obj fields : Value).Ordered) :
    rewritten (.obj fields) = .obj (fields.map fun f => (f.1, rewritten f.2)) :=
  congrArg Json.obj (cloneJson_fields ⟨fields, ho⟩)

theorem rewritten_num (x : Double) : rewritten (.num x) = .num x ∧ writable x = true ∨
    (∃ neg h, x = .finite neg 0 h ∧ rewritten (.num x) = .num (.ofDecimal ⟨false, 0, 0⟩)) ∨
      (∃ neg, x = .infinity neg ∧ rewritten (.num x) = .null) := by
  by_cases hx : writable x = true
  · exact .inl ⟨(eval_numberTree x).mpr hx, hx⟩
  · cases x with
    | infinity neg => exact .inr (.inr ⟨neg, rfl, rfl⟩)
    | finite neg n hn =>
      have hzero : n = 0 := by
        by_contra hne
        exact hx (by simp [writable, hne])
      subst hzero
      exact .inr (.inl ⟨neg, hn, rfl, rfl⟩)

theorem zero_decimal : ∃ h, (Double.ofDecimal ⟨false, 0, 0⟩) = .finite false 0 h := by
  have hone : (Double.ofDecimal ⟨false, 0, 0⟩) = .finite false 0 ⟨bound_pos, Nat.dvd_zero _⟩ := by decide +kernel
  exact ⟨_, hone⟩

theorem stringify_rewritten_num (x : Double) : stringify (rewritten (.num x)) = stringify (.num x) := by
  rcases rewritten_num x with ⟨hsame, -⟩ | ⟨neg, h, rfl, hzero⟩ | ⟨neg, rfl, hnull⟩
  · rw [hsame]
  · obtain ⟨h', hdecimal⟩ := zero_decimal
    rw [hzero, hdecimal, stringify, stringify, numberText, numberText, if_pos rfl, if_pos rfl]
  · rw [hnull]
    rfl

mutual

/-- **A copy is written as the value was.** -/
theorem stringify_rewritten : ∀ {v : Value}, v.Ordered → stringify (rewritten v) = stringify v
  | .null, _ => rfl
  | .bool _, _ => rfl
  | .str _, _ => rfl
  | .num x, _ => stringify_rewritten_num x
  | .arr [], _ => rfl
  | .arr (v :: l), h => by
    rw [rewritten_arr, List.map_cons, stringify, stringify, stringify_rewritten h.1, elementsText_rewritten h.2]
  | .obj [], _ => rfl
  | .obj ((key, v) :: fields), h => by
    rw [rewritten_obj h, List.map_cons, stringify, stringify, stringify_rewritten h.2.1,
      membersText_rewritten h.2.2]

theorem elementsText_rewritten : ∀ {l : List Value}, AllNamesList InOrder l →
    elementsText (l.map rewritten) = elementsText l
  | [], _ => rfl
  | v :: l, h => by
    rw [List.map_cons, elementsText, elementsText, stringify_rewritten h.1, elementsText_rewritten h.2]

theorem membersText_rewritten : ∀ {fields : List (Text × Value)}, AllNamesFields InOrder fields →
    membersText (fields.map fun f => (f.1, rewritten f.2)) = membersText fields
  | [], _ => rfl
  | (key, v) :: fields, h => by
    rw [List.map_cons, membersText, membersText, stringify_rewritten h.1, membersText_rewritten h.2]

end

theorem rewritten_ordered (v : Value) : (rewritten v).Ordered := v.toTree.ordered_eval

theorem rewritten_of_writable {v : Value} (ho : v.Ordered) (h : v.writable = true) : rewritten v = v :=
  (eval_toTree ho).mpr h

/-- A copy is its own copy. -/
theorem rewritten_rewritten {v : Value} (h : v.Ordered) : rewritten (rewritten v) = rewritten v :=
  rewritten_of_writable (rewritten_ordered v) (writable_rewritten v h)

/-! ### Objects -/

theorem cloneJson_eq (o : JsonObject) : rewritten (.obj o.fields) = .obj (cloneJson o).fields := rfl

theorem cloneJson_cloneJson (o : JsonObject) : cloneJson (cloneJson o) = cloneJson o := by
  apply JsonObject.ext'
  have htwice := rewritten_rewritten o.ordered
  rw [cloneJson_eq, cloneJson_eq] at htwice
  exact Json.obj.inj htwice

theorem stringify_cloneJson (o : JsonObject) : stringify (.obj (cloneJson o).fields) = stringify (.obj o.fields) :=
  stringify_rewritten o.ordered

theorem cloneJson_of_writable {o : JsonObject} (h : (Json.obj o.fields : Value).writable = true) : cloneJson o = o := by
  apply JsonObject.ext'
  have hsame := rewritten_of_writable o.ordered h
  rw [cloneJson_eq] at hsame
  exact Json.obj.inj hsame

end JsonText
