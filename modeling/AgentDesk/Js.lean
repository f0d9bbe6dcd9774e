/-
# What the source uses of its language

The host and the runner are TypeScript. This module has the few built-ins
their code leans on where the Lean ones differ: truthiness of a nullable
string, `String.prototype.trim` and `slice`, `Set`, and the values `JSON.parse` gives.

A stored `content` column is a string the code only ever looks at through
`JSON.parse`, so the model keeps what the parse gives (`Content`): `none` when
it throws, the value otherwise.

Key definitions: `Js.truthy`, `Js.trim`, `Js.insertAll`, `Js.takeUnits`, `Js.Json`, `Js.Content`, `Js.Json.get`.
-/
import Mathlib.Data.List.Basic
import Mathlib.Data.Rat.Defs

namespace Js

/-- A nullable string is truthy when it is neither null nor empty. -/
def truthy (s : Option String) : Bool :=
  match s with
  | some x => x ≠ ""
  | none => false

@[simp] theorem truthy_none : truthy none = false := rfl

@[simp] theorem truthy_some (x : String) : truthy (some x) = decide (x ≠ "") := rfl

theorem truthy_iff {s : Option String} : truthy s = true ↔ ∃ x, s = some x ∧ x ≠ "" := by
  cases s <;> simp

/-- The characters `trim` removes: white space and line terminators. -/
def isSpace (c : Char) : Bool :=
  c ∈ ['\t', '\n', '\x0b', '\x0c', '\r', ' ', '\u00a0', '\u1680', '\u2028', '\u2029', '\u202f',
    '\u205f', '\u3000', '\ufeff'] || (0x2000 ≤ c.val && c.val ≤ 0x200a)

/-- `String.prototype.trim`. -/
def trim (s : String) : String :=
  String.ofList ((s.toList.dropWhile isSpace).reverse.dropWhile isSpace).reverse

theorem bind_eq_ok {ε α β : Type} {x : Except ε α} {f : α → Except ε β} {b : β} :
    (x >>= f) = .ok b ↔ ∃ a, x = .ok a ∧ f a = .ok b := by
  cases x <;> simp [bind, Except.bind]

theorem map_eq_ok {ε α β : Type} {f : α → β} {x : Except ε α} {b : β} :
    x.map f = .ok b ↔ ∃ a, x = .ok a ∧ f a = b := by
  cases x <;> simp [Except.map]

instance instLawfulBEqOptionString : LawfulBEq (Option String) := inferInstance

/-- Add to a `Set`, in insertion order. -/
def insertAll {α : Type} [DecidableEq α] (set xs : List α) : List α :=
  xs.foldl (fun s x => if x ∈ s then s else s ++ [x]) set

theorem mem_insertAll {α : Type} [DecidableEq α] {set xs : List α} {x : α} :
    x ∈ insertAll set xs ↔ x ∈ set ∨ x ∈ xs := by
  unfold insertAll
  induction xs generalizing set with
  | nil => simp
  | cons y ys ih =>
    rw [List.foldl_cons, ih, List.mem_cons]
    by_cases hy : y ∈ set
    · rw [if_pos hy]
      have hmem : x = y → x ∈ set := fun h => h ▸ hy
      tauto
    · rw [if_neg hy, List.mem_append, List.mem_singleton]
      tauto

theorem nodup_insertAll {α : Type} [DecidableEq α] {set xs : List α} (h : set.Nodup) : (insertAll set xs).Nodup := by
  unfold insertAll
  induction xs generalizing set with
  | nil => exact h
  | cons y ys ih =>
    rw [List.foldl_cons]
    apply ih
    by_cases hy : y ∈ set
    · rwa [if_pos hy]
    · rw [if_neg hy, List.nodup_append]
      refine ⟨h, by simp, fun a ha b hb heq => hy ?_⟩
      rw [← List.mem_singleton.mp hb, ← heq]
      exact ha

/-- How many UTF-16 code units a character is. -/
def codeUnits (c : Char) : ℕ := if c.val < 0x10000 then 1 else 2

/-- `s.slice(0, n)`: the characters that fit in `n` code units. -/
def takeUnits : ℕ → List Char → List Char
  | _, [] => []
  | n, c :: cs => if n < codeUnits c then [] else c :: takeUnits (n - codeUnits c) cs

/-- The values of `JSON.parse`. An object's keys are distinct: a repeated key
keeps its last value. -/
inductive Json where
  | null
  | bool (b : Bool)
  | num (n : ℚ)
  | str (s : String)
  | arr (l : List Json)
  | obj (fields : List (String × Json))

/-- A stored content column, as `JSON.parse` reads it: `none` when it throws. -/
abbrev Content := Option Json

/-- Reading a property: `error` is the `TypeError` of reading one from `null`,
`ok none` is `undefined`. -/
def Json.get (j : Json) (key : String) : Except Unit (Option Json) :=
  match j with
  | .null => .error ()
  | .obj fields => .ok ((fields.find? fun f => f.1 = key).map (·.2))
  | _ => .ok none

/-- The value, when it is a string. -/
def Json.asString : Option Json → Option String
  | some (.str s) => some s
  | _ => none

/-- The value of an expression, `none` for `undefined`, is truthy. -/
def Json.truthy : Option Json → Bool
  | none | some .null | some (.bool false) => false
  | some (.num n) => n ≠ 0
  | some (.str s) => s ≠ ""
  | _ => true

/-- `v?.key`. -/
def Json.optional (v : Option Json) (key : String) : Option Json := v.bind fun j => (j.get key).toOption.join

/-- Writing a property of an object: in place, or at the end when it is new. -/
def Json.set (fields : List (String × Json)) (key : String) (v : Json) : List (String × Json) :=
  if fields.any fun f => f.1 = key then fields.map fun f => if f.1 = key then (key, v) else f
  else fields ++ [(key, v)]

end Js
