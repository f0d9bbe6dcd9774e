/-
# Objects of JSON data

Objects as JavaScript programs hold them: the names are distinct and in property order, so that an
object that is written and parsed again has the same properties. A string property keeps its value; a
number may not.

* `text_cloneJson`: a copy through JSON has the string properties of the original.
* `parse_clone`: the copy is what `JSON.parse(JSON.stringify(o))` gives.
-/
import AgentDesk.RoutingGate
import Mathlib.Data.List.DropRight

namespace JsonText

/-- An object of JSON data. -/
structure JsonObject where
  fields : List (Text × Value)
  ordered : Json.Ordered (.obj fields)

theorem JsonObject.ext' {a b : JsonObject} (h : a.fields = b.fields) : a = b := by
  cases a
  cases b
  cases h
  rfl

def JsonObject.get (o : JsonObject) (key : Text) : Option Value := o.fields.lookup key

def Json.text? : Value → Option Text
  | .str t => some t
  | _ => none

/-- A string property. -/
def fieldText (fields : List (Text × Value)) (key : Text) : Option Text := (fields.lookup key).bind Json.text?

def JsonObject.text (o : JsonObject) (key : Text) : Option Text := fieldText o.fields key

/-- `JSON.parse(JSON.stringify(o))` of an object with these properties. -/
def cloneFields (fields : List (Text × Value)) : JsonObject :=
  ⟨evalFields [] (treeFields fields), (Json.obj (treeFields fields)).ordered_eval⟩

def cloneJson (o : JsonObject) : JsonObject := cloneFields o.fields

theorem parse_clone (o : JsonObject) : parse (stringify (.obj o.fields)) = some (.obj (cloneJson o).fields) := by
  rw [parse, read_stringify]
  rfl

theorem cloneJson_fields (o : JsonObject) :
    (cloneJson o).fields = o.fields.map fun f => (f.1, f.2.toTree.eval) := by
  have hnames : InOrder (([] : List (Text × Value)).map (·.1) ++ (treeFields o.fields).map (·.1)) := by
    rw [treeFields_names]
    exact o.ordered.1
  have htree : ∀ fields : List (Text × Value), (treeFields fields).map (fun f => (f.1, f.2.eval)) =
      fields.map fun f => (f.1, f.2.toTree.eval) := by
    intro fields
    induction fields with
    | nil => rfl
    | cons f fields ih => rw [treeFields, List.map_cons, List.map_cons, ih]
  change evalFields [] (treeFields o.fields) = _
  rw [evalFields_ordered _ _ hnames, List.nil_append, htree]

theorem lookup_map_snd {α β : Type} (g : α → β) (fields : List (Text × α)) (key : Text) :
    (fields.map fun f => (f.1, g f.2)).lookup key = (fields.lookup key).map g := by
  induction fields with
  | nil => rfl
  | cons f fields ih =>
    rw [List.map_cons, List.lookup_cons, List.lookup_cons]
    cases key == f.1 with
    | true => rfl
    | false => exact ih

theorem get_cloneJson (o : JsonObject) (key : Text) :
    (cloneJson o).get key = (o.get key).map fun v => v.toTree.eval := by
  rw [JsonObject.get, cloneJson_fields]
  exact lookup_map_snd (fun v : Value => v.toTree.eval) o.fields key

theorem text?_num (x : Binary64.Double) : (Json.num x : Value).text? = none := rfl

theorem text_toTree (v : Value) : v.toTree.eval.text? = v.text? := by
  cases v with
  | num x =>
    rw [Json.toTree, text?_num]
    cases x with
    | infinity =>
      rw [numberTree, Json.eval]
      rfl
    | finite =>
      rw [numberTree, Json.eval]
      exact text?_num _
  | _ => rfl

/-- **A copy keeps the strings.** -/
theorem text_cloneJson (o : JsonObject) (key : Text) : (cloneJson o).text key = o.text key := by
  change ((cloneJson o).get key).bind Json.text? = (o.get key).bind Json.text?
  rw [get_cloneJson]
  cases o.get key with
  | none => rfl
  | some v => exact text_toTree v

/-! ### Literals -/

/-- An object literal whose names are in order. -/
def JsonObject.literal (properties : List (Text × Option Value)) (hnames : InOrder (properties.map (·.1)))
    (hvalues : ∀ p ∈ properties, ∀ v, p.2 = some v → v.Ordered) : JsonObject where
  fields := definedFields properties
  ordered := by
    refine ⟨hnames.sublist (definedFields_names properties), allNamesFields_iff.mpr fun f hf => ?_⟩
    obtain ⟨p, hp, hpf⟩ := List.mem_filterMap.mp hf
    obtain ⟨v, hv, rfl⟩ := Option.map_eq_some_iff.mp hpf
    exact hvalues p hp v hv

theorem literal_get {properties : List (Text × Option Value)} {hnames : InOrder (properties.map (·.1))}
    {hvalues : ∀ p ∈ properties, ∀ v, p.2 = some v → v.Ordered} {key : Text} {v : Option Value}
    (h : (key, v) ∈ properties) : (JsonObject.literal properties hnames hvalues).get key = v :=
  lookup_definedFields hnames.nodup h

/-- A literal whose properties are strings. -/
def JsonObject.strings (properties : List (Text × Text)) (hnames : InOrder (properties.map (·.1))) : JsonObject where
  fields := properties.map fun p => (p.1, .str p.2)
  ordered := by
    have hall : ∀ f ∈ properties.map (fun p => (p.1, (.str p.2 : Value))), f.2.Ordered := by
      intro f hf
      obtain ⟨p, -, rfl⟩ := List.mem_map.mp hf
      trivial
    refine ⟨?_, allNamesFields_iff.mpr hall⟩
    rw [List.map_map]
    exact hnames

theorem strings_text {properties : List (Text × Text)} {hnames : InOrder (properties.map (·.1))} (key : Text) :
    (JsonObject.strings properties hnames).text key = properties.lookup key := by
  change ((properties.map fun p => (p.1, (.str p.2 : Value))).lookup key).bind Json.text? = _
  rw [lookup_map_snd]
  cases properties.lookup key <;> rfl

/-! ### Strings that say something -/

/-- The units of the characters `trim` removes. -/
def isSpaceUnit (c : UInt16) : Bool :=
  c ∈ [0x09, 0x0a, 0x0b, 0x0c, 0x0d, 0x20, 0xa0, 0x1680, 0x2028, 0x2029, 0x202f, 0x205f, 0x3000, 0xfeff] ||
    (0x2000 ≤ c && c ≤ 0x200a)

/-- `String.prototype.trim`. -/
def trimText (t : Text) : Text := ((t.dropWhile isSpaceUnit).reverse.dropWhile isSpaceUnit).reverse

/-- `readString` of a string: it is trimmed, and `undefined` when nothing is left. -/
def nonBlank (t : Text) : Option Text := if trimText t = [] then none else some (trimText t)

/-- `readString(o.key)`. -/
def JsonObject.readString (o : JsonObject) (key : Text) : Option Text := (o.text key).bind nonBlank

theorem readString_cloneJson (o : JsonObject) (key : Text) : (cloneJson o).readString key = o.readString key := by
  rw [JsonObject.readString, text_cloneJson, JsonObject.readString]

theorem dropWhile_of_head {c : UInt16} (hc : isSpaceUnit c = false) (t : Text) :
    (c :: t).dropWhile isSpaceUnit = c :: t := by
  rw [List.dropWhile_cons, hc]
  rfl

theorem trimText_of_ends {c d : UInt16} (hc : isSpaceUnit c = false) (hd : isSpaceUnit d = false) (t : Text) :
    trimText (c :: (t ++ [d])) = c :: (t ++ [d]) := by
  have hreverse : (c :: (t ++ [d])).reverse = d :: (t.reverse ++ [c]) := by simp
  rw [trimText, dropWhile_of_head hc, hreverse, dropWhile_of_head hd, ← hreverse, List.reverse_reverse]

theorem trimText_trimText (t : Text) : trimText (trimText t) = trimText t := by
  have hprefix : trimText t <+: t.dropWhile isSpaceUnit := List.rdropWhile_prefix isSpaceUnit _
  have hleft : (trimText t).dropWhile isSpaceUnit = trimText t := by
    cases htrim : trimText t with
    | nil => rfl
    | cons c rest =>
      rw [htrim] at hprefix
      obtain ⟨tail, htail⟩ := hprefix
      have hhead := List.head?_dropWhile_not isSpaceUnit t
      rw [← htail] at hhead
      exact dropWhile_of_head hhead rest
  rw [trimText, hleft]
  exact List.rdropWhile_idempotent isSpaceUnit _

theorem nonBlank_of_nonBlank {t u : Text} (h : nonBlank t = some u) : nonBlank u = some u := by
  unfold nonBlank at h
  by_cases hblank : trimText t = []
  · rw [if_pos hblank] at h
    cases h
  · rw [if_neg hblank] at h
    obtain rfl := Option.some.inj h
    rw [nonBlank, trimText_trimText, if_neg hblank]

theorem nonBlank_stringify (fields : List (Text × Value)) :
    nonBlank (stringify (.obj fields)) = some (stringify (.obj fields)) := by
  have hends : ∃ t, stringify (.obj fields) = unit '{' :: (t ++ [unit '}']) := by
    cases fields with
    | nil => exact ⟨[], rfl⟩
    | cons f fields =>
      refine ⟨quote f.1 ++ unit ':' :: (stringify f.2 ++ membersText fields), ?_⟩
      rw [stringify, List.append_assoc, List.cons_append, List.append_assoc]
  obtain ⟨t, ht⟩ := hends
  have htrim : trimText (stringify (.obj fields)) = stringify (.obj fields) := by
    rw [ht]
    exact trimText_of_ends (by decide) (by decide) t
  rw [nonBlank, htrim, if_neg]
  rw [ht]
  exact List.cons_ne_nil _ _

/-! ### Values as they are parsed -/

/-- A value as `JSON.parse` gives it. -/
structure JsonValue where
  value : Value
  ordered : value.Ordered

/-- The object a value is, with `isRecord`. -/
def JsonValue.record? : JsonValue → Option JsonObject
  | ⟨.obj fields, h⟩ => some ⟨fields, h⟩
  | _ => none

theorem allNamesList_iff {ν : Type} {P : List Text → Prop} {l : List (Json ν)} :
    AllNamesList P l ↔ ∀ v ∈ l, v.AllNames P := by
  induction l with
  | nil => exact ⟨fun _ v hv => absurd hv List.not_mem_nil, fun _ => trivial⟩
  | cons v l ih => rw [AllNamesList, ih, List.forall_mem_cons]

/-- An array of objects. -/
def objects (l : List JsonObject) : Value := .arr (l.map fun o => .obj o.fields)

theorem objects_ordered (l : List JsonObject) : (objects l).Ordered := by
  have hall : ∀ v ∈ l.map (fun o => (.obj o.fields : Value)), v.Ordered := by
    intro v hv
    obtain ⟨o, -, rfl⟩ := List.mem_map.mp hv
    exact o.ordered
  exact allNamesList_iff.mpr hall

end JsonText
