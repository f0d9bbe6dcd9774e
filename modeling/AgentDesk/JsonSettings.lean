/-
# The settings of a JSON document

A document is read, changed and written back. A setting is a path to a value that is neither an object nor
`null`: a number, a text, a list, `true` or `false`. What a change keeps is said of settings, so that it does
not matter which objects are rebuilt on the way.

* `kept_obj`, `kept_leaf`, `kept_none`: what it takes to keep what is set in an object, in a leaf, or where
  nothing is left.
* `writable_of_kept`: what is kept in a value that was written and parsed can be written.
* `kept_rewritten_iff`: a value that was written and parsed keeps its settings exactly when its numbers can be
  written.
* `get_assign`, `parse_written`: an object that is assigned to, and its text.
-/
import AgentDesk.JsonObjects
import AgentDesk.JsonPretty

namespace JsonText

open Binary64

/-! ### Values that were written and parsed -/

/-- The properties, where the value is an object. -/
def isRecord : Option Value → Option (List (Text × Value))
  | some (.obj fields) => some fields
  | _ => none

def field (fields : List (Text × Value)) (key : String) : Option Value := fields.lookup (ofString key)

/-- The value after it was written and parsed. -/
def rewritten (v : Value) : Value := v.toTree.eval

/-- An object literal. -/
def objectOf (properties : List (String × Option Value)) : Value :=
  .obj (definedFields (properties.map fun p => (ofString p.1, p.2)))

theorem rewritten_str (t : Text) : rewritten (.str t) = .str t := rfl

theorem rewritten_bool (b : Bool) : rewritten (.bool b) = .bool b := rfl

theorem rewritten_null : rewritten .null = .null := rfl

theorem lookup_rewritten {fields : List (Text × Value)} (ho : (Json.obj fields : Value).Ordered) :
    ∃ fields', rewritten (.obj fields) = .obj fields' ∧
      ∀ key, fields'.lookup key = (fields.lookup key).map rewritten :=
  ⟨(cloneFields fields).fields, rfl, fun key => get_cloneJson ⟨fields, ho⟩ key⟩

theorem field_rewritten {fields : List (Text × Value)} (ho : (Json.obj fields : Value).Ordered) :
    ∃ fields', rewritten (.obj fields) = .obj fields' ∧
      ∀ key, field fields' key = (field fields key).map rewritten := by
  obtain ⟨fields', hfields', hlookup⟩ := lookup_rewritten ho
  exact ⟨fields', hfields', fun key => hlookup (ofString key)⟩

theorem ordered_objectOf {properties : List (String × Option Value)}
    (hnames : InOrder (properties.map fun p => ofString p.1))
    (hvalues : ∀ p ∈ properties, ∀ v, p.2 = some v → v.Ordered) : (objectOf properties).Ordered := by
  have hmapped : ∀ p ∈ properties.map (fun p => (ofString p.1, p.2)), ∀ v, p.2 = some v → v.Ordered := by
    intro p hp v hv
    obtain ⟨p', hp', rfl⟩ := List.mem_map.mp hp
    exact hvalues p' hp' v hv
  exact (JsonObject.literal (properties.map fun p => (ofString p.1, p.2))
    (by rw [List.map_map]; exact hnames) hmapped).ordered

theorem rewritten_objectOf {properties : List (String × Option Value)}
    (hnames : InOrder (properties.map fun p => ofString p.1))
    (hvalues : ∀ p ∈ properties, ∀ v, p.2 = some v → v.Ordered) :
    ∃ fields, rewritten (objectOf properties) = .obj fields ∧
      ∀ p ∈ properties, field fields p.1 = p.2.map rewritten := by
  obtain ⟨fields, hfields, hfield⟩ := field_rewritten (ordered_objectOf hnames hvalues)
  refine ⟨fields, hfields, fun p hp => ?_⟩
  have hdistinct : ((properties.map fun p => (ofString p.1, p.2)).map (·.1)).Nodup := by
    rw [List.map_map]
    exact hnames.nodup
  have hlookup : (definedFields (properties.map fun p => (ofString p.1, p.2))).lookup (ofString p.1) = p.2 :=
    lookup_definedFields hdistinct (List.mem_map.mpr ⟨p, hp, rfl⟩)
  rw [hfield, field, hlookup]

theorem rewritten_arr (l : List Value) : rewritten (.arr l) = .arr (l.map rewritten) := by
  have hlist : evalList (treeList l) = l.map rewritten := by
    induction l with
    | nil => rfl
    | cons v l ih =>
      rw [treeList, evalList, ih]
      rfl
  rw [rewritten, Json.toTree, Json.eval, hlist]

theorem parse_stringify_eq (v : Value) : parse (stringify v) = some (rewritten v) := by
  rw [parse, read_stringify]
  rfl

theorem parse_pretty_eq (v : Value) : parse (pretty 0 v) = some (rewritten v) := by
  have hread := read_pretty v 0 (t := []) (fun c hc => nomatch hc)
  rw [List.append_nil] at hread
  rw [parse, hread]
  rfl

theorem isRecord_rewritten {v : Option Value} (h : isRecord v = none) : isRecord (v.map rewritten) = none := by
  cases v with
  | none => rfl
  | some v =>
    cases v with
    | num x =>
      show isRecord (some (rewritten (.num x))) = none
      rw [rewritten, Json.toTree]
      cases x <;> rfl
    | obj fields => cases h
    | _ => rfl

theorem lookup_ordered {fields : List (Text × Value)} (ho : (Json.obj fields : Value).Ordered) {key : Text} {v : Value}
    (h : fields.lookup key = some v) : v.Ordered := by
  obtain ⟨before, after, rfl, -⟩ := List.lookup_eq_some_iff.mp h
  exact allNamesFields_iff.mp ho.2 _ (List.mem_append_right before List.mem_cons_self)

theorem field_ordered {fields : List (Text × Value)} (ho : (Json.obj fields : Value).Ordered) {key : String} {v : Value}
    (h : field fields key = some v) : v.Ordered := lookup_ordered ho h

theorem allNamesList_append {P : List Text → Prop} {l m : List Value} (hl : AllNamesList P l) (hm : AllNamesList P m) :
    AllNamesList P (l ++ m) := by
  induction l with
  | nil => exact hm
  | cons v l ih => exact ⟨hl.1, ih hl.2⟩

theorem allNamesList_of {P : List Text → Prop} {l : List Value} (h : ∀ v ∈ l, v.AllNames P) : AllNamesList P l := by
  induction l with
  | nil => trivial
  | cons v l ih => exact ⟨h v List.mem_cons_self, ih fun w hw => h w (List.mem_cons_of_mem v hw)⟩

theorem allNamesList_mem {P : List Text → Prop} {l : List Value} (h : AllNamesList P l) {v : Value} (hv : v ∈ l) :
    v.AllNames P := by
  induction l with
  | nil => cases hv
  | cons w l ih =>
    rcases List.mem_cons.mp hv with rfl | hv
    · exact h.1
    · exact ih h.2 hv

theorem ordered_insertField {fields : List (Text × Value)} (ho : (Json.obj fields : Value).Ordered) (key : Text)
    {v : Value} (hv : v.Ordered) : (Json.obj (insertField fields key v) : Value).Ordered := by
  refine ⟨inOrder_insertField ho.1 key v, allNamesFields_iff.mpr fun f hf => ?_⟩
  rcases mem_insertField hf with rfl | hf
  · exact hv
  · exact allNamesFields_iff.mp ho.2 f hf

theorem parse_ordered {text : Text} {v : Value} (h : parse text = some v) : v.Ordered := by
  obtain ⟨t, -, rfl⟩ := Option.map_eq_some_iff.mp h
  exact t.ordered_eval

/-! ### Settings -/

/-- The value at a path, through objects. -/
def valueAt : List Text → Value → Option Value
  | [], v => some v
  | key :: path, .obj fields => (fields.lookup key).bind (valueAt path)
  | _ :: _, _ => none

def isSetting : Value → Bool
  | .null | .obj _ => false
  | _ => true

/-- Nothing is set. -/
def Unset (v : Value) : Prop := ∀ path u, valueAt path v = some u → isSetting u = false

/-- What is set in `v` is set in `w`, to the same. -/
def Kept (v : Value) (w : Option Value) : Prop :=
  ∀ path u, valueAt path v = some u → isSetting u = true → w.bind (valueAt path) = some u

/-- A property of what may be an object. -/
def property (w : Option Value) (key : Text) : Option Value := (isRecord w).bind fun fields => fields.lookup key

theorem bind_valueAt_cons (w : Option Value) (key : Text) (path : List Text) :
    w.bind (valueAt (key :: path)) = (property w key).bind (valueAt path) := by
  cases w with
  | none => rfl
  | some w =>
    cases w with
    | obj fields => rfl
    | _ => rfl

theorem kept_none {v : Value} : Kept v none ↔ Unset v := by
  constructor
  · intro h path u hu
    by_contra hset
    exact Option.some_ne_none u (h path u hu (by simpa using hset)).symm
  · intro h path u hu hset
    rw [h path u hu] at hset
    cases hset

theorem kept_null (w : Option Value) : Kept .null w := by
  intro path u hu hset
  cases path with
  | nil =>
    obtain rfl := Option.some.inj hu
    cases hset
  | cons key path => cases hu

theorem kept_self (v : Value) : Kept v (some v) := fun _ _ hu _ => hu

/-- A leaf is kept as it is. -/
theorem kept_leaf {v : Value} (hv : isSetting v = true) {w : Option Value} : Kept v w ↔ w = some v := by
  constructor
  · intro h
    have hroot := h [] v rfl hv
    cases w with
    | none => cases hroot
    | some w => exact hroot
  · rintro rfl
    exact kept_self v

/-- An object, property by property. -/
theorem kept_obj {fields : List (Text × Value)} {w : Option Value} :
    Kept (.obj fields) w ↔ ∀ key v, fields.lookup key = some v → Kept v (property w key) := by
  constructor
  · intro h key v hv path u hu hset
    rw [← bind_valueAt_cons]
    refine h (key :: path) u ?_ hset
    show (fields.lookup key).bind (valueAt path) = some u
    rw [hv]
    exact hu
  · intro h path u hu hset
    cases path with
    | nil =>
      obtain rfl := Option.some.inj hu
      cases hset
    | cons key path =>
      obtain ⟨v, hv, hat⟩ := Option.bind_eq_some_iff.mp (show (fields.lookup key).bind (valueAt path) = some u from hu)
      rw [bind_valueAt_cons]
      exact h key v hv path u hat hset

theorem unset_obj {fields : List (Text × Value)} :
    Unset (.obj fields) ↔ ∀ key v, fields.lookup key = some v → Unset v := by
  simp only [← kept_none]
  exact kept_obj

theorem unset_null : Unset .null := kept_none.mp (kept_null none)

theorem not_unset_leaf {v : Value} (hv : isSetting v = true) : ¬ Unset v := by
  intro h
  have hroot := h [] v rfl
  rw [hv] at hroot
  cases hroot

theorem leaf_or (v : Value) : isSetting v = true ∨ v = .null ∨ ∃ fields, v = .obj fields := by
  cases v with
  | null => exact .inr (.inl rfl)
  | obj fields => exact .inr (.inr ⟨fields, rfl⟩)
  | _ => exact .inl rfl

theorem kept_iff_of_leaf {v : Value} {w : Option Value} (hw : isRecord w = none) :
    Kept v w ↔ Unset v ∨ isSetting v = true ∧ w = some v := by
  obtain hleaf | rfl | ⟨fields, rfl⟩ := leaf_or v
  · rw [kept_leaf hleaf]
    constructor
    · intro h
      exact .inr ⟨hleaf, h⟩
    · rintro (h | ⟨-, h⟩)
      · exact absurd h (not_unset_leaf hleaf)
      · exact h
  · exact iff_of_true (kept_null w) (.inl unset_null)
  · have hproperty : ∀ key, property w key = none := by
      intro key
      rw [property, hw]
      rfl
    rw [kept_obj, unset_obj]
    simp only [hproperty, kept_none, isSetting, Bool.false_eq_true, false_and, or_false]

/-! ### Numbers that can be written -/

theorem writable_obj {fields : List (Text × Value)} :
    (Json.obj fields : Value).writable = true ↔ ∀ f ∈ fields, f.2.writable = true := allNumbersFields_iff

theorem writable_field {fields : List (Text × Value)} (h : (Json.obj fields : Value).writable = true) {key : Text}
    {v : Value} (hv : fields.lookup key = some v) : v.writable = true := by
  obtain ⟨before, after, rfl, -⟩ := List.lookup_eq_some_iff.mp hv
  exact writable_obj.mp h _ (List.mem_append_right before List.mem_cons_self)

theorem lookup_of_mem {fields : List (Text × Value)} (hnames : (fields.map (·.1)).Nodup) {f : Text × Value}
    (hf : f ∈ fields) : fields.lookup f.1 = some f.2 := by
  induction fields with
  | nil => cases hf
  | cons g fields ih =>
    obtain ⟨hnot, hrest⟩ := List.nodup_cons.mp hnames
    rcases List.mem_cons.mp hf with rfl | hmem
    · exact List.lookup_cons_self
    · have hmap : f.1 ∈ fields.map (·.1) := List.mem_map_of_mem hmem
      have hne : f.1 ≠ g.1 := by
        intro he
        rw [he] at hmap
        exact hnot hmap
      rw [List.lookup_cons, beq_false_of_ne hne]
      exact ih hrest hmem

theorem rewritten_eq_iff {v : Value} (ho : v.Ordered) : rewritten v = v ↔ v.writable = true := eval_toTree ho

mutual

/-- What is kept in a value that can be written can be written. -/
theorem writable_of_kept : ∀ (v : Value) {w : Option Value}, v.Ordered → (∀ x, w = some x → x.writable = true) →
    Kept v w → v.writable = true
  | .null, _, _, _, _ => rfl
  | .bool _, _, _, _, _ => rfl
  | .str _, _, _, _, _ => rfl
  | .num x, w, _, hw, h => hw (.num x) ((kept_leaf rfl).mp h)
  | .arr l, w, _, hw, h => hw (.arr l) ((kept_leaf rfl).mp h)
  | .obj fields, w, ho, hw, h => by
    refine writable_obj.mpr (writable_of_kept_fields fields ho.2 hw fun f hf => ?_)
    exact kept_obj.mp h f.1 f.2 (lookup_of_mem ho.1.nodup hf)

theorem writable_of_kept_fields : ∀ (fields : List (Text × Value)) {w : Option Value}, AllNamesFields InOrder fields →
    (∀ x, w = some x → x.writable = true) → (∀ f ∈ fields, Kept f.2 (property w f.1)) →
    ∀ f ∈ fields, f.2.writable = true
  | [], _, _, _, _ => fun f hf => (nomatch hf)
  | (key, v) :: fields, w, ho, hw, h => by
    have hinside : ∀ x, property w key = some x → x.writable = true := by
      intro x hx
      obtain ⟨inner, hinner, hlookup⟩ := Option.bind_eq_some_iff.mp hx
      cases w with
      | none => cases hinner
      | some w =>
        cases w with
        | obj inner' =>
          obtain rfl := Option.some.inj hinner
          exact writable_field (hw _ rfl) hlookup
        | _ => cases hinner
    have hfirst := writable_of_kept v ho.1 hinside (h (key, v) List.mem_cons_self)
    have hrest := writable_of_kept_fields fields ho.2 hw fun f hf => h f (List.mem_cons_of_mem _ hf)
    exact List.forall_mem_cons.mpr ⟨hfirst, hrest⟩

end

theorem writable_number (x : Double) : (rewritten (.num x)).writable = true := by
  have hcases : (rewritten (.num x)) = .null ∨ ∃ y, rewritten (.num x) = .num y ∧ writable y = true := by
    by_cases hx : writable x = true
    · exact .inr ⟨x, (eval_numberTree x).mpr hx, hx⟩
    · cases x with
      | infinity neg => exact .inl rfl
      | finite neg units hunits =>
        have hzero : units = 0 := by
          by_contra hne
          exact hx (by simp [writable, hne])
        subst hzero
        have htree : numberTree (.finite neg 0 hunits) = numberTree (.finite false 0 hunits) := by
          rw [numberTree, numberTree, if_pos rfl, if_pos rfl]
        refine .inr ⟨.finite false 0 hunits, ?_, rfl⟩
        rw [rewritten, Json.toTree, htree]
        exact (eval_numberTree (.finite false 0 hunits)).mpr rfl
  obtain h | ⟨y, h, hy⟩ := hcases
  · rw [h]
    rfl
  · rw [h]
    exact hy

mutual

theorem writable_rewritten : ∀ (v : Value), v.Ordered → (rewritten v).writable = true
  | .null, _ => rfl
  | .bool _, _ => rfl
  | .str _, _ => rfl
  | .num x, _ => writable_number x
  | .arr l, h => by
    rw [rewritten, Json.toTree, Json.eval]
    exact writable_rewritten_list l h
  | .obj fields, h => by
    have hfields : rewritten (.obj fields) = .obj (fields.map fun f => (f.1, rewritten f.2)) := by
      show Json.obj (cloneJson ⟨fields, h⟩).fields = _
      rw [cloneJson_fields]
      rfl
    rw [hfields]
    exact writable_rewritten_fields fields h.2

theorem writable_rewritten_list : ∀ (l : List Value), AllNamesList InOrder l →
    allNumbersList writable (evalList (treeList l)) = true
  | [], _ => rfl
  | v :: l, h => by
    rw [treeList, evalList, allNumbersList, Bool.and_eq_true]
    exact ⟨writable_rewritten v h.1, writable_rewritten_list l h.2⟩

theorem writable_rewritten_fields : ∀ (fields : List (Text × Value)), AllNamesFields InOrder fields →
    allNumbersFields writable (fields.map fun f => (f.1, rewritten f.2)) = true
  | [], _ => rfl
  | (key, v) :: fields, h => by
    rw [List.map_cons, allNumbersFields, Bool.and_eq_true]
    exact ⟨writable_rewritten v h.1, writable_rewritten_fields fields h.2⟩

end

theorem writable_of_kept_rewritten {v : Value} {w : Option Value} (ho : v.Ordered) (hw : ∀ x, w = some x → x.Ordered)
    (h : Kept v (w.map rewritten)) : v.writable = true := by
  refine writable_of_kept v ho (fun x hx => ?_) h
  obtain ⟨y, hy, rfl⟩ := Option.map_eq_some_iff.mp hx
  exact writable_rewritten y (hw y hy)

/-- **A value that was written and parsed** keeps its settings exactly when its numbers can be written. -/
theorem kept_rewritten_iff {v : Value} (ho : v.Ordered) : Kept v (some (rewritten v)) ↔ v.writable = true := by
  constructor
  · intro h
    exact writable_of_kept_rewritten (w := some v) ho (fun x hx => Option.some.inj hx ▸ ho) h
  · intro h
    rw [(rewritten_eq_iff ho).mpr h]
    exact kept_self v

theorem writable_of_unset {v : Value} (ho : v.Ordered) (h : Unset v) : v.writable = true :=
  writable_of_kept (w := none) v ho (fun _ hx => (nomatch hx)) (kept_none.mpr h)

/-! ### Object literals -/

theorem kept_of_unset {v : Value} (h : Unset v) (w : Option Value) : Kept v w := by
  intro path u hu hset
  rw [h path u hu] at hset
  cases hset

/-- Every property is one of these, or nothing is set in it. -/
def OnlyKeys (names : List String) (fields : List (Text × Value)) : Prop :=
  ∀ key v, fields.lookup key = some v → key ∈ names.map ofString ∨ Unset v

theorem field_objectOf {properties : List (String × Option Value)}
    (hnames : InOrder (properties.map fun p => ofString p.1)) :
    ∃ fields, objectOf properties = .obj fields ∧ ∀ p ∈ properties, field fields p.1 = p.2 := by
  refine ⟨_, rfl, fun p hp => ?_⟩
  have hdistinct : ((properties.map fun p => (ofString p.1, p.2)).map (·.1)).Nodup := by
    rw [List.map_map]
    exact hnames.nodup
  exact lookup_definedFields hdistinct (List.mem_map.mpr ⟨p, hp, rfl⟩)

theorem writable_objectOf {properties : List (String × Option Value)}
    (hvalues : ∀ p ∈ properties, ∀ v, p.2 = some v → v.writable = true) : (objectOf properties).writable = true := by
  refine writable_obj.mpr fun f hf => ?_
  obtain ⟨p, hp, hpf⟩ := List.mem_filterMap.mp hf
  obtain ⟨p', hp', rfl⟩ := List.mem_map.mp hp
  obtain ⟨v, hv, rfl⟩ := Option.map_eq_some_iff.mp hpf
  exact hvalues p' hp' v hv

/-- **What a literal keeps of an object**: what is set under its names, and nothing may be set elsewhere. -/
theorem kept_objectOf {properties : List (String × Option Value)} {fields : List (Text × Value)}
    (hnames : InOrder (properties.map fun p => ofString p.1))
    (hvalues : ∀ p ∈ properties, ∀ v, p.2 = some v → v.Ordered) :
    Kept (.obj fields) (some (rewritten (objectOf properties))) ↔
      OnlyKeys (properties.map (·.1)) fields ∧
        ∀ p ∈ properties, ∀ v, field fields p.1 = some v → Kept v (p.2.map rewritten) := by
  obtain ⟨fields', hfields', hfield'⟩ := rewritten_objectOf hnames hvalues
  have hother : ∀ key, key ∉ (properties.map (·.1)).map ofString → property (some (.obj fields')) key = none := by
    intro key hkey
    have hobject : fields' = (cloneFields (definedFields (properties.map fun p => (ofString p.1, p.2)))).fields :=
      (Json.obj.inj hfields').symm
    show fields'.lookup key = none
    rw [hobject]
    have hlookup := get_cloneJson ⟨_, ordered_objectOf hnames hvalues⟩ key
    have hnone : (definedFields (properties.map fun p => (ofString p.1, p.2))).lookup key = none := by
      refine lookup_of_notMem fun hmem => hkey ?_
      have hsub := (definedFields_names _).subset hmem
      rw [List.map_map] at hsub ⊢
      exact hsub
    exact hlookup.trans (by rw [JsonObject.get, hnone]; rfl)
  rw [hfields', kept_obj]
  constructor
  · intro h
    refine ⟨fun key v hv => ?_, fun p hp v hv => ?_⟩
    · by_cases hkey : key ∈ (properties.map (·.1)).map ofString
      · exact .inl hkey
      · have hkept := h key v hv
        rw [hother key hkey, kept_none] at hkept
        exact .inr hkept
    · have hkept := h (ofString p.1) v hv
      rwa [show property (some (.obj fields')) (ofString p.1) = p.2.map rewritten from hfield' p hp] at hkept
  · rintro ⟨honly, hinside⟩ key v hv
    by_cases hkey : key ∈ (properties.map (·.1)).map ofString
    · obtain ⟨name, hname, rfl⟩ := List.mem_map.mp hkey
      obtain ⟨p, hp, rfl⟩ := List.mem_map.mp hname
      rw [show property (some (.obj fields')) (ofString p.1) = p.2.map rewritten from hfield' p hp]
      exact hinside p hp v hv
    · rcases honly key v hv with hmem | hunset
      · exact absurd hmem hkey
      · exact kept_of_unset hunset _

/-! ### Objects that are assigned to -/

/-- The properties of an object, `none` for `undefined`. -/
abbrev Properties := List (Text × Option Value)

def Properties.get (o : Properties) (key : Text) : Option Value := (o.lookup key).join

/-- A property is assigned to. -/
def Properties.set (o : Properties) (key : String) (v : Option Value) : Properties := insertField o (ofString key) v

/-- `{ ...fields, ...properties }`, the latter with their names as the program has them. -/
def assign (fields : List (Text × Value)) (properties : List (String × Option Value)) : Properties :=
  properties.foldl (fun o p => o.set p.1 p.2) (fields.map fun f => (f.1, some f.2))

/-- In order, with values in order. -/
structure Properties.Ordered (o : Properties) : Prop where
  names : InOrder (o.map (·.1))
  values : ∀ p ∈ o, ∀ v, p.2 = some v → v.Ordered

theorem lookup_replace {α : Type} (fields : List (Text × α)) {key : Text} (v : α) (key' : Text) :
    (fields.map fun f => if f.1 = key then (key, v) else f).lookup key' =
      if key' = key then (fields.lookup key).map fun _ => v else fields.lookup key' := by
  induction fields with
  | nil => simp
  | cons f fields ih =>
    rw [List.map_cons, List.lookup_cons, List.lookup_cons, List.lookup_cons, ih]
    by_cases hf : f.1 = key
    · by_cases hkey : key' = key
      · simp [hf, hkey]
      · have hne : key' ≠ f.1 := fun he => hkey (he.trans hf)
        simp [hf, hkey, beq_false_of_ne hkey]
    · by_cases hkey : key' = key
      · have hne : key ≠ f.1 := fun he => hf he.symm
        simp [hf, hkey, beq_false_of_ne hne]
      · simp [hf, hkey]

theorem lookup_insertField {α : Type} (fields : List (Text × α)) (key : Text) (v : α) (key' : Text) :
    (insertField fields key v).lookup key' = if key' = key then some v else fields.lookup key' := by
  unfold insertField
  split
  · rename_i hany
    obtain ⟨f, hf, hkey⟩ := List.any_eq_true.mp hany
    have hsome : (fields.lookup key).isSome = true := by
      rw [List.lookup_isSome_iff]
      exact ⟨f, hf, beq_iff_eq.mpr (of_decide_eq_true hkey).symm⟩
    obtain ⟨w, hw⟩ := Option.isSome_iff_exists.mp hsome
    rw [lookup_replace, hw]
    rfl
  · rename_i hnone
    have hnot : ∀ f ∈ fields, f.1 ≠ key := by
      intro f hf heq
      exact hnone (List.any_eq_true.mpr ⟨f, hf, decide_eq_true heq⟩)
    by_cases hkey : key' = key
    · have htake : (fields.takeWhile fun f => before f.1 key).lookup key = none := by
        rw [List.lookup_eq_none_iff]
        intro f hf
        have hne : key ≠ f.1 := (hnot f ((List.takeWhile_sublist _).subset hf)).symm
        simpa using hne
      rw [hkey, List.lookup_append, htake, List.lookup_cons_self, if_pos rfl]
      rfl
    · rw [if_neg hkey, List.lookup_append, List.lookup_cons, beq_false_of_ne hkey]
      show ((fields.takeWhile fun f => before f.1 key).lookup key').or
        ((fields.dropWhile fun f => before f.1 key).lookup key') = _
      rw [← List.lookup_append, List.takeWhile_append_dropWhile]

theorem get_set (o : Properties) (key : String) (v : Option Value) (key' : Text) :
    (o.set key v).get key' = if key' = ofString key then v else o.get key' := by
  rw [Properties.get, Properties.set, lookup_insertField]
  by_cases hkey : key' = ofString key
  · rw [if_pos hkey, if_pos hkey]
    rfl
  · rw [if_neg hkey, if_neg hkey]
    rfl

theorem ordered_set {o : Properties} (ho : o.Ordered) {key : String} {v : Option Value}
    (hv : ∀ x, v = some x → x.Ordered) : (o.set key v).Ordered := by
  refine ⟨inOrder_insertField ho.names (ofString key) v, fun p hp => ?_⟩
  rcases mem_insertField hp with rfl | hp
  · exact hv
  · exact ho.values p hp

theorem ordered_spread {fields : List (Text × Value)} (ho : (Json.obj fields : Value).Ordered) :
    Properties.Ordered (fields.map fun f => (f.1, some f.2)) := by
  refine ⟨?_, fun p hp v hv => ?_⟩
  · rw [List.map_map]
    exact ho.1
  · obtain ⟨f, hf, rfl⟩ := List.mem_map.mp hp
    obtain rfl := Option.some.inj hv
    exact allNamesFields_iff.mp ho.2 f hf

theorem ordered_assign {fields : List (Text × Value)} (ho : (Json.obj fields : Value).Ordered)
    {properties : List (String × Option Value)} (hvalues : ∀ p ∈ properties, ∀ v, p.2 = some v → v.Ordered) :
    (assign fields properties).Ordered := by
  have hfold : ∀ (properties : List (String × Option Value)) {o : Properties}, o.Ordered →
      (∀ p ∈ properties, ∀ v, p.2 = some v → v.Ordered) →
      Properties.Ordered (properties.foldl (fun o p => o.set p.1 p.2) o) := by
    intro properties
    induction properties with
    | nil =>
      intro o ho _
      exact ho
    | cons p properties ih =>
      intro o ho hvalues
      obtain ⟨hfirst, hrest⟩ := List.forall_mem_cons.mp hvalues
      exact ih (ordered_set ho hfirst) hrest
  exact hfold properties (ordered_spread ho) hvalues

theorem get_ordered {o : Properties} (ho : o.Ordered) {key : Text} {v : Value} (h : o.get key = some v) :
    v.Ordered := by
  obtain ⟨before, after, hsplit, -⟩ := List.lookup_eq_some_iff.mp (Option.join_eq_some_iff.mp h)
  refine ho.values (key, some v) ?_ v rfl
  rw [hsplit]
  exact List.mem_append_right before List.mem_cons_self

theorem get_spread (fields : List (Text × Value)) (key : Text) :
    Properties.get (fields.map fun f => (f.1, some f.2)) key = fields.lookup key := by
  rw [Properties.get, lookup_map_snd]
  cases fields.lookup key <;> rfl

/-- **What was assigned**, and what was there before. -/
theorem get_assign {fields : List (Text × Value)} {properties : List (String × Option Value)} (key : Text) :
    (assign fields properties).get key =
      ((properties.reverse.map fun p => (ofString p.1, p.2)).lookup key).getD (fields.lookup key) := by
  have hfold : ∀ (properties : List (String × Option Value)) (o : Properties),
      Properties.get (properties.foldl (fun o p => o.set p.1 p.2) o) key =
        ((properties.reverse.map fun p => (ofString p.1, p.2)).lookup key).getD (o.get key) := by
    intro properties
    induction properties with
    | nil =>
      intro o
      rfl
    | cons p properties ih =>
      intro o
      rw [List.foldl_cons, ih, get_set, List.reverse_cons, List.map_append, List.lookup_append, List.map_singleton,
        List.lookup_cons]
      by_cases hkey : key = ofString p.1
      · rw [if_pos hkey, hkey, beq_self_eq_true]
        cases (properties.reverse.map fun p => (ofString p.1, p.2)).lookup (ofString p.1) <;> rfl
      · rw [if_neg hkey, beq_false_of_ne hkey]
        cases (properties.reverse.map fun p => (ofString p.1, p.2)).lookup key <;> rfl
  rw [assign, hfold, get_spread]

theorem get_assign_mem {fields : List (Text × Value)} {properties : List (String × Option Value)}
    (hnames : (properties.map fun p => ofString p.1).Nodup) {p : String × Option Value} (hp : p ∈ properties) :
    (assign fields properties).get (ofString p.1) = p.2 := by
  have hlookup : ∀ (properties : List (String × Option Value)), (properties.map fun p => ofString p.1).Nodup →
      p ∈ properties → (properties.map fun p => (ofString p.1, p.2)).lookup (ofString p.1) = some p.2 := by
    intro properties
    induction properties with
    | nil =>
      intro _ hp
      cases hp
    | cons q properties ih =>
      intro hnames hp
      obtain ⟨hnot, hrest⟩ := List.nodup_cons.mp hnames
      rw [List.map_cons, List.lookup_cons]
      rcases List.mem_cons.mp hp with rfl | hp
      · rw [beq_self_eq_true]
      · have hmem : ofString p.1 ∈ properties.map fun p => ofString p.1 := List.mem_map.mpr ⟨p, hp, rfl⟩
        have hne : ofString p.1 ≠ ofString q.1 := by
          intro he
          rw [he] at hmem
          exact hnot hmem
        rw [beq_false_of_ne hne]
        exact ih hrest hp
  have hreverse : (properties.reverse.map fun p => ofString p.1).Nodup := by
    rw [List.map_reverse]
    exact List.nodup_reverse.mpr hnames
  rw [get_assign, hlookup properties.reverse hreverse (List.mem_reverse.mpr hp)]
  rfl

theorem get_assign_other {fields : List (Text × Value)} {properties : List (String × Option Value)} {key : Text}
    (hkey : key ∉ properties.map fun p => ofString p.1) : (assign fields properties).get key = fields.lookup key := by
  have hnone : (properties.reverse.map fun p => (ofString p.1, p.2)).lookup key = none := by
    rw [List.lookup_eq_none_iff]
    intro q hq
    obtain ⟨p, hp, rfl⟩ := List.mem_map.mp hq
    have hne : key ≠ ofString p.1 := by
      rintro rfl
      exact hkey (List.mem_map.mpr ⟨p, List.mem_reverse.mp hp, rfl⟩)
    simpa using hne
  rw [get_assign, hnone]
  rfl

/-- The object that is written of these properties. -/
def Properties.written (o : Properties) (ho : o.Ordered) : JsonObject where
  fields := definedFields o
  ordered := (JsonObject.literal o ho.names ho.values).ordered

theorem lookup_defined (o : Properties) (ho : o.Ordered) (key : Text) : (definedFields o).lookup key = o.get key := by
  cases hkey : o.lookup key with
  | none =>
    have hnot : key ∉ (definedFields o).map (·.1) := by
      intro hmem
      obtain ⟨p, hp, rfl⟩ := List.mem_map.mp ((definedFields_names o).subset hmem)
      rw [List.lookup_eq_none_iff] at hkey
      simpa using hkey p hp
    rw [lookup_of_notMem hnot, Properties.get, hkey]
    rfl
  | some v =>
    obtain ⟨before, after, hsplit, -⟩ := List.lookup_eq_some_iff.mp hkey
    have hmem : (key, v) ∈ o := by
      rw [hsplit]
      exact List.mem_append_right before List.mem_cons_self
    rw [lookup_definedFields ho.names.nodup hmem, Properties.get, hkey]
    rfl

/-- **The text of an object**, parsed: the properties that are defined, each written and parsed. -/
theorem parse_written {o : Properties} (ho : o.Ordered) {t : Text} (ht : ∀ c ∈ t, isSpace c = true) :
    ∃ fields, parse (pretty 0 (.obj (definedFields o)) ++ t) = some (.obj fields) ∧
      ∀ key, fields.lookup key = (o.get key).map rewritten := by
  refine ⟨(cloneJson (o.written ho)).fields, ?_, fun key => ?_⟩
  · rw [parse_pretty _ ht]
    exact parse_clone (o.written ho)
  · rw [← lookup_defined o ho key]
    exact get_cloneJson (o.written ho) key

end JsonText
