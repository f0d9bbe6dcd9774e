/-
# The fields of an outbound content

What a container writes into its outbound table is JSON of its own making. The handlers read each field through a
strict reader: a field of another type is refused, and so is a text that is too long or does not match. A refused
field has a reason, which says which field it is; a field that is left out has a default.

* `checkText_eq_ok`: the texts that are taken.
* `readString_ok`, `readStringArray_ok`, `readStringRecord_ok`: **what a reader gives** is the field's value, and
  each text in it matches.
-/
import AgentDesk.FencedText
import AgentDesk.Js
import AgentDesk.JsonSettings

namespace AgentDesk
namespace OutboundFields

open JsonText Js

/-- A field, or the reason it is refused. -/
abbrev FieldResult (α : Type) := Except Text α

def describe : Value → Text
  | .null => ofString "null"
  | .arr _ => ofString "an array"
  | .bool _ => ofString "a boolean"
  | .num _ => ofString "a number"
  | .str _ => ofString "a string"
  | .obj _ => ofString "a object"

/-- How a field is named in a reason: its key in quotes. -/
def fieldLabel (key : Text) : Text := unit '"' :: (key ++ [unit '"'])

def tooLong (maxLength : Option ℕ) (t : Text) : Bool := maxLength.any fun n => n < t.length

def mismatch (pattern : Option (Text → Bool)) (t : Text) : Bool := pattern.any fun p => !p t

/-- A text of a field, checked. -/
def checkText (key : Text) (maxLength : Option ℕ) (pattern : Option (Text → Bool)) : Value → FieldResult Text
  | .str t =>
    if tooLong maxLength t then
      .error (fieldLabel key ++ ofString " exceeds " ++ decimalText (maxLength.getD 0) ++ ofString " characters")
    else if mismatch pattern t then
      .error (fieldLabel key ++ ofString " has a disallowed value: " ++ quote (t.take 64))
    else .ok t
  | v => .error (fieldLabel key ++ ofString " must be a string, got " ++ describe v)

structure StringOpts where
  required : Bool := false
  maxLength : Option ℕ := none
  pattern : Option (Text → Bool) := none
  default : Text := []

def readString (content : List (Text × Value)) (key : String) (opts : StringOpts) : FieldResult Text :=
  match field content key with
  | none | some .null =>
    if opts.required then .error (fieldLabel (ofString key) ++ ofString " is required") else .ok opts.default
  | some v => checkText (ofString key) opts.maxLength opts.pattern v

structure ArrayOpts where
  required : Bool := false
  maxItems : Option ℕ := none
  maxLength : Option ℕ := none
  pattern : Option (Text → Bool) := none

/-- The elements from an index on. -/
def readItems (key : Text) (opts : ArrayOpts) : ℕ → List Value → FieldResult (List Text)
  | _, [] => .ok []
  | i, v :: l =>
    checkText (key ++ unit '[' :: (decimalText i ++ [unit ']'])) opts.maxLength opts.pattern v >>= fun t =>
    (readItems key opts (i + 1) l).map fun out => t :: out

def readStringArray (content : List (Text × Value)) (key : String) (opts : ArrayOpts) : FieldResult (List Text) :=
  match field content key with
  | none | some .null =>
    if opts.required then .error (fieldLabel (ofString key) ++ ofString " is required") else .ok []
  | some (.arr l) =>
    if opts.maxItems.any fun n => n < l.length then
      .error (fieldLabel (ofString key) ++ ofString " has more than " ++ decimalText (opts.maxItems.getD 0) ++
        ofString " entries")
    else readItems (ofString key) opts 0 l
  | some v => .error (fieldLabel (ofString key) ++ ofString " must be an array, got " ++ describe v)

structure RecordOpts where
  maxEntries : Option ℕ := none
  maxLength : Option ℕ := none
  keyPattern : Option (Text → Bool) := none
  valuePattern : Option (Text → Bool) := none

/-- The entries of an object, whose names are distinct: each is put after those before it. -/
def readEntries (key : Text) (opts : RecordOpts) : List (Text × Value) → FieldResult (List (Text × Text))
  | [] => .ok []
  | (k, v) :: entries =>
    if mismatch opts.keyPattern k then
      .error (fieldLabel key ++ ofString " has a disallowed key: " ++ quote (k.take 64))
    else
      checkText (key ++ unit '.' :: k) opts.maxLength opts.valuePattern v >>= fun t =>
      (readEntries key opts entries).map fun out => (k, t) :: out

def readStringRecord (content : List (Text × Value)) (key : String) (opts : RecordOpts) :
    FieldResult (List (Text × Text)) :=
  match field content key with
  | none | some .null => .ok []
  | some (.obj entries) =>
    if opts.maxEntries.any fun n => n < entries.length then
      .error (fieldLabel (ofString key) ++ ofString " has more than " ++ decimalText (opts.maxEntries.getD 0) ++
        ofString " entries")
    else readEntries (ofString key) opts entries
  | some v => .error (fieldLabel (ofString key) ++ ofString " must be an object, got " ++ describe v)

/-! ### What is read -/

/-- The texts that are taken. -/
def Admits (maxLength : Option ℕ) (pattern : Option (Text → Bool)) (t : Text) : Prop :=
  tooLong maxLength t = false ∧ mismatch pattern t = false

theorem checkText_eq_ok {key : Text} {maxLength : Option ℕ} {pattern : Option (Text → Bool)} {v : Value} {t : Text} :
    checkText key maxLength pattern v = .ok t ↔ v = .str t ∧ Admits maxLength pattern t := by
  unfold checkText Admits
  split
  · rename_i t'
    by_cases hlong : tooLong maxLength t' = true
    · rw [if_pos hlong]
      refine iff_of_false (fun h => nomatch h) ?_
      rintro ⟨h, hshort, -⟩
      obtain rfl := Json.str.inj h
      rw [hlong] at hshort
      cases hshort
    · rw [if_neg hlong]
      by_cases hmatch : mismatch pattern t' = true
      · rw [if_pos hmatch]
        refine iff_of_false (fun h => nomatch h) ?_
        rintro ⟨h, -, hmatches⟩
        obtain rfl := Json.str.inj h
        rw [hmatch] at hmatches
        cases hmatches
      · rw [if_neg hmatch]
        constructor
        · intro h
          obtain rfl := Except.ok.inj h
          exact ⟨rfl, by simpa using hlong, by simpa using hmatch⟩
        · rintro ⟨h, -⟩
          rw [Json.str.inj h]
  · rename_i hno
    refine iff_of_false (fun h => nomatch h) ?_
    rintro ⟨rfl, -⟩
    exact hno t rfl

/-- A string that was read is the default, or the field's text. -/
theorem readString_ok {content : List (Text × Value)} {key : String} {opts : StringOpts} {t : Text}
    (h : readString content key opts = .ok t) :
    (opts.required = false ∧ t = opts.default) ∨
      field content key = some (.str t) ∧ Admits opts.maxLength opts.pattern t := by
  unfold readString at h
  have hdefault : (if opts.required = true then
      (.error (fieldLabel (ofString key) ++ ofString " is required") : FieldResult Text) else .ok opts.default) = .ok t →
      opts.required = false ∧ t = opts.default := by
    intro h
    split at h
    · cases h
    · rename_i hrequired
      exact ⟨by simpa using hrequired, (Except.ok.inj h).symm⟩
  split at h
  · exact .inl (hdefault h)
  · exact .inl (hdefault h)
  · rename_i v _ hv
    obtain ⟨rfl, hadmits⟩ := checkText_eq_ok.mp h
    exact .inr ⟨hv, hadmits⟩

theorem readItems_ok {key : Text} {opts : ArrayOpts} {i : ℕ} {l : List Value} {out : List Text}
    (h : readItems key opts i l = .ok out) : l = out.map (fun t => .str t) ∧
      ∀ t ∈ out, Admits opts.maxLength opts.pattern t := by
  induction l generalizing i out with
  | nil =>
    obtain rfl := Except.ok.inj h
    exact ⟨rfl, fun t ht => (nomatch ht)⟩
  | cons v l ih =>
    obtain ⟨t, ht, hmap⟩ := bind_eq_ok.mp h
    obtain ⟨rest, hrest, rfl⟩ := map_eq_ok.mp hmap
    obtain ⟨rfl, hadmits⟩ := checkText_eq_ok.mp ht
    obtain ⟨rfl, hall⟩ := ih hrest
    exact ⟨rfl, List.forall_mem_cons.mpr ⟨hadmits, hall⟩⟩

/-- A list that was read has the field's texts. -/
theorem readStringArray_ok {content : List (Text × Value)} {key : String} {opts : ArrayOpts} {out : List Text}
    (h : readStringArray content key opts = .ok out) :
    (out = [] ∨ field content key = some (.arr (out.map fun t => .str t))) ∧
      ∀ t ∈ out, Admits opts.maxLength opts.pattern t := by
  unfold readStringArray at h
  have hdefault : (if opts.required = true then
      (.error (fieldLabel (ofString key) ++ ofString " is required") : FieldResult (List Text)) else .ok []) = .ok out →
      out = [] := by
    intro h
    split at h
    · cases h
    · exact (Except.ok.inj h).symm
  split at h
  · obtain rfl := hdefault h
    exact ⟨.inl rfl, fun t ht => (nomatch ht)⟩
  · obtain rfl := hdefault h
    exact ⟨.inl rfl, fun t ht => (nomatch ht)⟩
  · rename_i l hl
    split at h
    · cases h
    · obtain ⟨rfl, hall⟩ := readItems_ok h
      exact ⟨.inr hl, hall⟩
  · cases h

theorem readEntries_ok {key : Text} {opts : RecordOpts} {entries : List (Text × Value)} {out : List (Text × Text)}
    (h : readEntries key opts entries = .ok out) : entries = out.map (fun e => (e.1, .str e.2)) ∧
      ∀ e ∈ out, mismatch opts.keyPattern e.1 = false ∧ Admits opts.maxLength opts.valuePattern e.2 := by
  induction entries generalizing out with
  | nil =>
    obtain rfl := Except.ok.inj h
    exact ⟨rfl, fun e he => (nomatch he)⟩
  | cons e entries ih =>
    rw [readEntries] at h
    split at h
    · cases h
    · rename_i hkey
      obtain ⟨t, ht, hmap⟩ := bind_eq_ok.mp h
      obtain ⟨rest, hrest, rfl⟩ := map_eq_ok.mp hmap
      obtain ⟨hv, hadmits⟩ := checkText_eq_ok.mp ht
      obtain ⟨rfl, hall⟩ := ih hrest
      refine ⟨?_, List.forall_mem_cons.mpr ⟨⟨by simpa using hkey, hadmits⟩, hall⟩⟩
      rw [List.map_cons, ← hv]

/-- A record that was read has the field's entries. -/
theorem readStringRecord_ok {content : List (Text × Value)} {key : String} {opts : RecordOpts}
    {out : List (Text × Text)} (h : readStringRecord content key opts = .ok out) :
    (out = [] ∨ field content key = some (.obj (out.map fun e => (e.1, .str e.2)))) ∧
      ∀ e ∈ out, mismatch opts.keyPattern e.1 = false ∧ Admits opts.maxLength opts.valuePattern e.2 := by
  unfold readStringRecord at h
  split at h
  · obtain rfl := Except.ok.inj h
    exact ⟨.inl rfl, fun e he => (nomatch he)⟩
  · obtain rfl := Except.ok.inj h
    exact ⟨.inl rfl, fun e he => (nomatch he)⟩
  · rename_i entries hentries
    split at h
    · cases h
    · obtain ⟨rfl, hall⟩ := readEntries_ok h
      exact ⟨.inr hentries, hall⟩
  · cases h

end OutboundFields
end AgentDesk
