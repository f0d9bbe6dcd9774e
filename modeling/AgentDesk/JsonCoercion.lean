/-
# JSON values where JavaScript takes a string

What becomes of a parsed value that code reads as if it had the type the code expects: a property of anything
but `null` is there or is `undefined`; `a || b` takes the first that counts as true; `String(v)` and `${v}`
convert, the elements of an array one by one.

An object is converted through its `toString`. One that has a property of that name, which is never a function,
is left with `valueOf`, that gives the object back: the conversion throws.

* `toText_isSome_iff`: **what can be converted**.
-/
import AgentDesk.JsonObjects

namespace AgentDesk

open JsonText

/-- Whether a value counts as true. -/
def truthyValue : Option Value → Bool
  | none | some .null => false
  | some (.bool b) => b
  | some (.num (.finite _ n _)) => n ≠ 0
  | some (.num (.infinity _)) => true
  | some (.str t) => t ≠ []
  | some (.arr _) | some (.obj _) => true

/-- `v || fallback`. -/
def orFallback (v : Option Value) (fallback : Value) : Value := if truthyValue v then v.getD fallback else fallback

end AgentDesk

namespace JsonText

open Binary64

/-- `v.name` of a value that is not `null`, and `v?.name` of any. -/
def Json.prop (v : Value) (name : String) : Option Value :=
  match v with
  | .obj fields => fields.lookup (ofString name)
  | _ => none

/-- A value that has properties; reading one of `null` throws. -/
def Json.notNull : Value → Option Value
  | .null => none
  | v => some v

/-- `Number::toString`. -/
def numberString : Double → Text
  | .infinity neg => ofString (if neg then "-Infinity" else "Infinity")
  | x => numberText x

mutual

/-- `String(v)`; `none` where it throws. -/
def Json.toText : Value → Option Text
  | .null => some (ofString "null")
  | .bool b => some (ofString (if b then "true" else "false"))
  | .num x => some (numberString x)
  | .str s => some s
  | .arr l => (elementTexts l).map fun texts => [unit ','].intercalate texts
  | .obj fields => if fields.any fun f => f.1 = ofString "toString" then none else some (ofString "[object Object]")

/-- The elements as `join` converts them: nothing for `null`. -/
def elementTexts : List Value → Option (List Text)
  | [] => some []
  | v :: l => do
    let text ← v.toText
    let texts ← elementTexts l
    some ((match v with | .null => [] | _ => text) :: texts)

end

mutual

/-- No object that is reached has a `toString` of its own. -/
def Json.Showable : Value → Prop
  | .arr l => ShowableList l
  | .obj fields => ∀ f ∈ fields, f.1 ≠ ofString "toString"
  | _ => True

def ShowableList : List Value → Prop
  | [] => True
  | v :: l => v.Showable ∧ ShowableList l

end

mutual

/-- **What can be converted.** -/
theorem toText_isSome_iff : ∀ v : Value, v.toText.isSome ↔ v.Showable
  | .null => by simp [Json.toText, Json.Showable]
  | .bool _ => by simp [Json.toText, Json.Showable]
  | .num _ => by simp [Json.toText, Json.Showable]
  | .str _ => by simp [Json.toText, Json.Showable]
  | .arr l => by rw [Json.toText, Option.isSome_map, elementTexts_isSome_iff l, Json.Showable]
  | .obj fields => by
    rw [Json.toText, Json.Showable]
    have hany : (fields.any fun f => f.1 = ofString "toString") = true ↔ ¬∀ f ∈ fields, f.1 ≠ ofString "toString" := by
      simp
    by_cases h : (fields.any fun f => f.1 = ofString "toString") = true
    · rw [if_pos h]
      exact ⟨fun hsome => (nomatch hsome), fun hnone => absurd hnone (hany.mp h)⟩
    · rw [if_neg h]
      exact ⟨fun _ => not_not.mp (mt hany.mpr h), fun _ => rfl⟩

theorem elementTexts_isSome_iff : ∀ l : List Value, (elementTexts l).isSome ↔ ShowableList l
  | [] => by simp [elementTexts, ShowableList]
  | v :: l => by
    rw [elementTexts, ShowableList, ← toText_isSome_iff v, ← elementTexts_isSome_iff l]
    cases v.toText <;> cases elementTexts l <;> simp

end

theorem notNull_of_ne {v : Value} (h : v ≠ .null) : v.notNull = some v := by
  cases v with
  | null => exact absurd rfl h
  | _ => rfl

theorem toText_str (t : Text) : Json.toText (.str t) = some t := by rw [Json.toText]

end JsonText
