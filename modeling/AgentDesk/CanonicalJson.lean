/-
# Canonical JSON

`canonicalJSON` writes a value with the keys of every object sorted and its undefined properties left out, so that the
hash of a request does not depend on the order its fields were put in. A set of the objects it is inside of tells a
cycle from an object that is met again.

* `canonicalJSON_eq`: what is written is the text of a value in normal form, and the set is left as it was.
* `fresh_of_consistent`: a finite value, its parts shared or not, has no cycle.
* `norm_eq_iff`: two values have one normal form exactly when they are deeply equal.
* `canonical_json`: **canonical JSON is canonical.**
-/
import AgentDesk.JsonSettings
import Mathlib.Data.List.Lex
import Mathlib.Data.List.Sort

namespace AgentDesk.CanonicalJson

open JsonText Binary64

/-- A value of the language; an array and an object have an identity. -/
inductive JsValue where
  | undefined
  | null
  | bool (b : Bool)
  | num (x : Double)
  | str (t : Text)
  | arr (object : ℕ) (elements : List JsValue)
  | obj (object : ℕ) (fields : List (Text × JsValue))

/-! ### Writing a value -/

/-- What writing gives and leaves in `seen`; `none` where it throws. -/
abbrev Pass := List ℕ → Option (Text × List ℕ)

def plain (out : Text) : Pass := fun seen => some (out, seen)

/-- With the object in `seen`. -/
def within (object : ℕ) (body : Pass) : Pass := fun seen =>
  -- canonicalJSON: circular reference
  if object ∈ seen then none
  else (body (object :: seen)).map fun (out, seen) => (out, seen.erase object)

def passAll : List Pass → List ℕ → Option (List Text × List ℕ)
  | [], seen => some ([], seen)
  | pass :: passes, seen =>
    (pass seen).bind fun (out, seen) => (passAll passes seen).map fun (outs, seen) => (out :: outs, seen)

/-- The parts joined by commas, in brackets. -/
def bracketed (opening closing : Char) (passes : List Pass) : Pass := fun seen =>
  (passAll passes seen).map fun (outs, seen) =>
    (unit opening :: ([unit ','].intercalate outs ++ [unit closing]), seen)

/-- The order of `sort`: by UTF-16 units. -/
def keyLe (a b : Text) : Prop := a.map UInt16.toNat ≤ b.map UInt16.toNat

instance : DecidableRel keyLe := fun a b => inferInstanceAs (Decidable (a.map UInt16.toNat ≤ b.map UInt16.toNat))

def sortFields {α : Type} (fields : List (Text × α)) : List (Text × α) := fields.insertionSort fun f g => keyLe f.1 g.1

def member (field : Text × Pass) : Pass := fun seen =>
  (field.2 seen).map fun (out, seen) => (quote field.1 ++ unit ':' :: out, seen)

mutual

def canonicalJSON : JsValue → Pass
  -- JSON.stringify(undefined) ?? 'null'
  | .undefined => plain (ofString "null")
  | .null => plain (stringify .null)
  | .bool b => plain (stringify (.bool b))
  | .num x => plain (stringify (.num x))
  | .str t => plain (stringify (.str t))
  | .arr object elements => within object (bracketed '[' ']' (canonicalElements elements))
  | .obj object fields => within object (bracketed '{' '}' ((sortFields (canonicalFields fields)).map member))

def canonicalElements : List JsValue → List Pass
  | [] => []
  | v :: elements => canonicalJSON v :: canonicalElements elements

/-- The properties that are not `undefined`. -/
def canonicalFields : List (Text × JsValue) → List (Text × Pass)
  | [] => []
  | (_, .undefined) :: fields => canonicalFields fields
  | (key, v) :: fields => (key, canonicalJSON v) :: canonicalFields fields

end

/-! ### The normal form -/

/-- A number without the sign of a zero. -/
def unsigned : Double → Double
  | .finite neg n h => .finite (if n = 0 then false else neg) n h
  | x => x

mutual

def norm : JsValue → Value
  | .undefined => .null
  | .null => .null
  | .bool b => .bool b
  | .num x => .num (unsigned x)
  | .str t => .str t
  | .arr _ elements => .arr (normList elements)
  | .obj _ fields => .obj (sortFields (normFields fields))

def normList : List JsValue → List Value
  | [] => []
  | v :: elements => norm v :: normList elements

def normFields : List (Text × JsValue) → List (Text × Value)
  | [] => []
  | (_, .undefined) :: fields => normFields fields
  | (key, v) :: fields => (key, norm v) :: normFields fields

end

/-! ### Values -/

/-- A property, where it is not `undefined`. -/
def definedAt (fields : List (Text × JsValue)) (key : Text) : Option JsValue :=
  match fields.lookup key with
  | some .undefined => none
  | v => v

/-- An undefined element counts as `null`. -/
def asElement : JsValue → JsValue
  | .undefined => .null
  | v => v

/-- Deep equality, up to the order of properties and undefined ones. -/
inductive DeepEq : JsValue → JsValue → Prop where
  | null : DeepEq .null .null
  | bool (b : Bool) : DeepEq (.bool b) (.bool b)
  /-- `x === y`: the zeros are equal. -/
  | num {x y : Double} (h : unsigned x = unsigned y) : DeepEq (.num x) (.num y)
  | str (t : Text) : DeepEq (.str t) (.str t)
  | arr (i j : ℕ) {l m : List JsValue} (h : List.Forall₂ DeepEq (l.map asElement) (m.map asElement)) :
      DeepEq (.arr i l) (.arr j m)
  | obj (i j : ℕ) {f g : List (Text × JsValue)} (h : ∀ key, Option.Rel DeepEq (definedAt f key) (definedAt g key)) :
      DeepEq (.obj i f) (.obj j g)

mutual

/-- The arrays and objects in a value. -/
def nodes : JsValue → List JsValue
  | .arr object elements => .arr object elements :: nodesOfList elements
  | .obj object fields => .obj object fields :: nodesOfFields fields
  | _ => []

def nodesOfList : List JsValue → List JsValue
  | [] => []
  | v :: elements => nodes v ++ nodesOfList elements

def nodesOfFields : List (Text × JsValue) → List JsValue
  | [] => []
  | (_, v) :: fields => nodes v ++ nodesOfFields fields

end

def identity : JsValue → Option ℕ
  | .arr object _ => some object
  | .obj object _ => some object
  | _ => none

/-- One identity is one object, wherever it is met. -/
def Consistent (v : JsValue) : Prop := ∀ x ∈ nodes v, ∀ y ∈ nodes v, identity x = identity y → x = y

mutual

/-- No object has a key twice. -/
def DistinctKeys : JsValue → Prop
  | .arr _ elements => DistinctKeysList elements
  | .obj _ fields => (fields.map (·.1)).Nodup ∧ DistinctKeysFields fields
  | _ => True

def DistinctKeysList : List JsValue → Prop
  | [] => True
  | v :: elements => DistinctKeys v ∧ DistinctKeysList elements

def DistinctKeysFields : List (Text × JsValue) → Prop
  | [] => True
  | (_, v) :: fields => DistinctKeys v ∧ DistinctKeysFields fields

end

mutual

def FiniteNumbers : JsValue → Prop
  | .num x => ∃ neg n h, x = .finite neg n h
  | .arr _ elements => FiniteNumbersList elements
  | .obj _ fields => FiniteNumbersFields fields
  | _ => True

def FiniteNumbersList : List JsValue → Prop
  | [] => True
  | v :: elements => FiniteNumbers v ∧ FiniteNumbersList elements

def FiniteNumbersFields : List (Text × JsValue) → Prop
  | [] => True
  | (_, v) :: fields => FiniteNumbers v ∧ FiniteNumbersFields fields

end

/-- A finite tree of JSON data; parts of it may be one object. -/
structure JsonLike where
  value : JsValue
  consistent : Consistent value
  distinct : DistinctKeys value
  finite : FiniteNumbers value
  defined : value ≠ .undefined

/-! ### What is written -/

theorem intercalate_elements (v : Value) (l : List Value) :
    [unit ','].intercalate ((v :: l).map stringify) = stringify v ++ elementsText l := by
  induction l generalizing v with
  | nil => simp [elementsText]
  | cons w l ih =>
    rw [List.map_cons, List.map_cons, List.intercalate_cons_cons, ← List.map_cons, ih, elementsText]
    simp

theorem stringify_arr (l : List Value) :
    stringify (.arr l) = unit '[' :: ([unit ','].intercalate (l.map stringify) ++ [unit ']']) := by
  cases l with
  | nil => rfl
  | cons v l =>
    rw [intercalate_elements, stringify, List.append_assoc]

/-- A member of an object. -/
def memberText (field : Text × Value) : Text := quote field.1 ++ unit ':' :: stringify field.2

theorem intercalate_members (field : Text × Value) (fields : List (Text × Value)) :
    [unit ','].intercalate ((field :: fields).map memberText) = memberText field ++ membersText fields := by
  induction fields generalizing field with
  | nil => simp [membersText]
  | cons next fields ih =>
    rw [List.map_cons, List.map_cons, List.intercalate_cons_cons, ← List.map_cons, ih, membersText]
    simp [memberText]

theorem stringify_obj (fields : List (Text × Value)) :
    stringify (.obj fields) = unit '{' :: ([unit ','].intercalate (fields.map memberText) ++ [unit '}']) := by
  cases fields with
  | nil => rfl
  | cons field fields =>
    rw [intercalate_members, stringify]
    simp [memberText]

/-- A pass that writes a text and leaves `seen` as it was. -/
def Writes (seen : List ℕ) (pass : Pass) (out : Text) : Prop := pass seen = some (out, seen)

theorem passAll_eq {seen : List ℕ} {passes : List Pass} {outs : List Text}
    (h : List.Forall₂ (Writes seen) passes outs) : passAll passes seen = some (outs, seen) := by
  induction h with
  | nil => rfl
  | cons hfirst _ ih =>
    have hwrites : _ = some (_, seen) := hfirst
    rw [passAll, hwrites, Option.bind_some]
    show (passAll _ seen).map _ = _
    rw [ih]
    rfl

theorem writes_bracketed {seen : List ℕ} {passes : List Pass} {outs : List Text} (opening closing : Char)
    (h : List.Forall₂ (Writes seen) passes outs) :
    Writes seen (bracketed opening closing passes)
      (unit opening :: ([unit ','].intercalate outs ++ [unit closing])) := by
  rw [Writes, bracketed, passAll_eq h]
  rfl

theorem writes_within {seen : List ℕ} {object : ℕ} {body : Pass} {out : Text} (hnot : object ∉ seen)
    (h : Writes (object :: seen) body out) : Writes seen (within object body) out := by
  have hbody : body (object :: seen) = some (out, object :: seen) := h
  rw [Writes, within, if_neg hnot, hbody, Option.map_some]
  simp

/-- Two lists of properties with one key each and values that belong together. -/
abbrev Alongside {α β : Type} (r : α → β → Prop) : List (Text × α) → List (Text × β) → Prop :=
  List.Forall₂ fun f g => f.1 = g.1 ∧ r f.2 g.2

theorem alongside_insert {α β : Type} {r : α → β → Prop} {f : Text × α} {g : Text × β} (hfirst : f.1 = g.1 ∧ r f.2 g.2)
    {l : List (Text × α)} {m : List (Text × β)} (h : Alongside r l m) :
    Alongside r (l.orderedInsert (fun f g => keyLe f.1 g.1) f) (m.orderedInsert (fun f g => keyLe f.1 g.1) g) := by
  induction h with
  | nil => exact .cons hfirst .nil
  | @cons f' g' l m hnext hrest ih =>
    rw [List.orderedInsert, List.orderedInsert, hfirst.1, hnext.1]
    split
    · exact .cons hfirst (.cons hnext hrest)
    · exact .cons hnext ih

theorem alongside_sort {α β : Type} {r : α → β → Prop} {l : List (Text × α)} {m : List (Text × β)}
    (h : Alongside r l m) : Alongside r (sortFields l) (sortFields m) := by
  induction h with
  | nil => exact .nil
  | cons hfirst hrest ih => exact alongside_insert hfirst ih

mutual

/-- No object is met inside itself, or inside one in `seen` that it is. -/
def Fresh (seen : List ℕ) : JsValue → Prop
  | .arr object elements => object ∉ seen ∧ FreshList (object :: seen) elements
  | .obj object fields => object ∉ seen ∧ FreshFields (object :: seen) fields
  | _ => True

def FreshList (seen : List ℕ) : List JsValue → Prop
  | [] => True
  | v :: elements => Fresh seen v ∧ FreshList seen elements

def FreshFields (seen : List ℕ) : List (Text × JsValue) → Prop
  | [] => True
  | (_, v) :: fields => Fresh seen v ∧ FreshFields seen fields

end

theorem numberText_unsigned (x : Double) : numberText (unsigned x) = numberText x := by
  cases x with
  | infinity neg => rfl
  | finite neg n h =>
    by_cases hzero : n = 0
    · simp [unsigned, numberText, hzero]
    · simp [unsigned, numberText, hzero]

mutual

/-- **What is written** is the text of the normal form. -/
theorem canonicalJSON_eq : ∀ (v : JsValue) {seen : List ℕ}, Fresh seen v →
    Writes seen (canonicalJSON v) (stringify (norm v))
  | .undefined, _, _ => rfl
  | .null, _, _ => rfl
  | .bool _, _, _ => rfl
  | .num x, seen, _ => by
    have htext : stringify (.num (unsigned x)) = stringify (.num x) := numberText_unsigned x
    rw [norm, htext]
    rfl
  | .str _, _, _ => rfl
  | .arr object elements, seen, h => by
    rw [norm, stringify_arr]
    exact writes_within h.1 (writes_bracketed '[' ']' (canonicalElements_eq elements h.2))
  | .obj object fields, seen, h => by
    have hsorted := alongside_sort (canonicalFields_eq fields h.2)
    have hmembers : List.Forall₂ (Writes (object :: seen)) ((sortFields (canonicalFields fields)).map member)
        ((sortFields (normFields fields)).map memberText) := by
      refine List.forall₂_map_left_iff.mpr (List.forall₂_map_right_iff.mpr (hsorted.imp ?_))
      rintro ⟨key, pass⟩ ⟨_, v⟩ ⟨rfl, hwrites⟩
      have hpass : pass (object :: seen) = some (stringify v, object :: seen) := hwrites
      show (pass (object :: seen)).map _ = _
      rw [hpass]
      rfl
    rw [norm, stringify_obj]
    exact writes_within h.1 (writes_bracketed '{' '}' hmembers)

theorem canonicalElements_eq : ∀ (elements : List JsValue) {seen : List ℕ}, FreshList seen elements →
    List.Forall₂ (Writes seen) (canonicalElements elements) ((normList elements).map stringify)
  | [], _, _ => .nil
  | v :: elements, _, h => .cons (canonicalJSON_eq v h.1) (canonicalElements_eq elements h.2)

theorem canonicalFields_eq : ∀ (fields : List (Text × JsValue)) {seen : List ℕ}, FreshFields seen fields →
    Alongside (fun pass v => Writes seen pass (stringify v)) (canonicalFields fields) (normFields fields)
  | [], _, _ => .nil
  | (key, v) :: fields, seen, h => by
    have hrest := canonicalFields_eq fields h.2
    have hfirst := canonicalJSON_eq v h.1
    cases v with
    | undefined => exact hrest
    | _ => exact .cons ⟨rfl, hfirst⟩ hrest

end

/-! ### No cycle -/

mutual

theorem fresh_value {root : JsValue} (hroot : Consistent root) : ∀ (v : JsValue) {seen : List ℕ}, nodes v ⊆ nodes root →
    (∀ o ∈ seen, ∃ x ∈ nodes root, identity x = some o ∧ sizeOf v < sizeOf x) → Fresh seen v
  | .undefined, _, _, _ => trivial
  | .null, _, _, _ => trivial
  | .bool _, _, _, _ => trivial
  | .num _, _, _, _ => trivial
  | .str _, _, _, _ => trivial
  | .arr object elements, seen, hsub, hseen => by
    have hself : .arr object elements ∈ nodes root := hsub List.mem_cons_self
    have hsize : sizeOf elements < sizeOf (JsValue.arr object elements) := by
      simp only [JsValue.arr.sizeOf_spec]
      omega
    refine ⟨fun hmem => ?_, fresh_list hroot elements (fun x hx => hsub (List.mem_cons_of_mem _ hx)) fun o ho => ?_⟩
    · obtain ⟨x, hx, hid, hlt⟩ := hseen object hmem
      rw [hroot x hx _ hself hid] at hlt
      exact absurd hlt (Nat.lt_irrefl _)
    · rcases List.mem_cons.mp ho with rfl | ho
      · exact ⟨_, hself, rfl, hsize⟩
      · obtain ⟨x, hx, hid, hlt⟩ := hseen o ho
        exact ⟨x, hx, hid, hsize.trans hlt⟩
  | .obj object fields, seen, hsub, hseen => by
    have hself : .obj object fields ∈ nodes root := hsub List.mem_cons_self
    have hsize : sizeOf fields < sizeOf (JsValue.obj object fields) := by
      simp only [JsValue.obj.sizeOf_spec]
      omega
    refine ⟨fun hmem => ?_, fresh_fields hroot fields (fun x hx => hsub (List.mem_cons_of_mem _ hx)) fun o ho => ?_⟩
    · obtain ⟨x, hx, hid, hlt⟩ := hseen object hmem
      rw [hroot x hx _ hself hid] at hlt
      exact absurd hlt (Nat.lt_irrefl _)
    · rcases List.mem_cons.mp ho with rfl | ho
      · exact ⟨_, hself, rfl, hsize⟩
      · obtain ⟨x, hx, hid, hlt⟩ := hseen o ho
        exact ⟨x, hx, hid, hsize.trans hlt⟩

theorem fresh_list {root : JsValue} (hroot : Consistent root) : ∀ (elements : List JsValue) {seen : List ℕ},
    nodesOfList elements ⊆ nodes root →
    (∀ o ∈ seen, ∃ x ∈ nodes root, identity x = some o ∧ sizeOf elements < sizeOf x) → FreshList seen elements
  | [], _, _, _ => trivial
  | v :: elements, seen, hsub, hseen => by
    have hsize : sizeOf (v :: elements) = 1 + sizeOf v + sizeOf elements := List.cons.sizeOf_spec ..
    refine ⟨fresh_value hroot v (fun x hx => hsub (List.mem_append_left _ hx)) fun o ho => ?_,
      fresh_list hroot elements (fun x hx => hsub (List.mem_append_right _ hx)) fun o ho => ?_⟩
    · obtain ⟨x, hx, hid, hlt⟩ := hseen o ho
      exact ⟨x, hx, hid, by omega⟩
    · obtain ⟨x, hx, hid, hlt⟩ := hseen o ho
      exact ⟨x, hx, hid, by omega⟩

theorem fresh_fields {root : JsValue} (hroot : Consistent root) : ∀ (fields : List (Text × JsValue)) {seen : List ℕ},
    nodesOfFields fields ⊆ nodes root →
    (∀ o ∈ seen, ∃ x ∈ nodes root, identity x = some o ∧ sizeOf fields < sizeOf x) → FreshFields seen fields
  | [], _, _, _ => trivial
  | (key, v) :: fields, seen, hsub, hseen => by
    have hsize : sizeOf ((key, v) :: fields) = 1 + (1 + sizeOf key + sizeOf v) + sizeOf fields := by
      rw [List.cons.sizeOf_spec, Prod.mk.sizeOf_spec]
    refine ⟨fresh_value hroot v (fun x hx => hsub (List.mem_append_left _ hx)) fun o ho => ?_,
      fresh_fields hroot fields (fun x hx => hsub (List.mem_append_right _ hx)) fun o ho => ?_⟩
    · obtain ⟨x, hx, hid, hlt⟩ := hseen o ho
      exact ⟨x, hx, hid, by omega⟩
    · obtain ⟨x, hx, hid, hlt⟩ := hseen o ho
      exact ⟨x, hx, hid, by omega⟩

end

/-- **A finite value has no cycle**, shared parts or not. -/
theorem fresh_of_consistent {v : JsValue} (h : Consistent v) : Fresh [] v :=
  fresh_value h v (fun _ hx => hx) fun _ ho => absurd ho List.not_mem_nil

/-- One object in two places is no cycle; an object inside itself is one. -/
example : canonicalJSON (.arr 1 [.obj 0 [], .obj 0 []]) [] = some (ofString "[\x7b\x7d,\x7b\x7d]", []) ∧
    canonicalJSON (.arr 1 [.obj 0 [], .arr 1 []]) [] = none := by decide

/-! ### Sorted properties -/

theorem keyLe_antisymm {a b : Text} (hab : keyLe a b) (hba : keyLe b a) : a = b :=
  List.map_injective_iff.mpr (fun _ _ h => UInt16.toNat_inj.mp h) (le_antisymm hab hba)

theorem perm_sortFields {α : Type} (fields : List (Text × α)) : (sortFields fields).Perm fields :=
  List.perm_insertionSort _ fields

theorem mem_iff_lookup {α : Type} {fields : List (Text × α)} (hnames : (fields.map (·.1)).Nodup) {key : Text} {v : α} :
    fields.lookup key = some v ↔ (key, v) ∈ fields := by
  induction fields with
  | nil => simp
  | cons f fields ih =>
    obtain ⟨hnot, hrest⟩ := List.nodup_cons.mp hnames
    rw [List.lookup_cons, List.mem_cons]
    by_cases hkey : key = f.1
    · subst hkey
      have habsent : (f.1, v) ∉ fields := fun hmem => hnot (List.mem_map.mpr ⟨_, hmem, rfl⟩)
      simp only [beq_self_eq_true, habsent, or_false, Option.some.injEq]
      exact ⟨fun h => by rw [← h], fun h => by rw [← h]⟩
    · rw [beq_false_of_ne hkey, ih hrest]
      constructor
      · exact .inr
      · rintro (rfl | hmem)
        · exact absurd rfl hkey
        · exact hmem

theorem lookup_perm {α : Type} {f g : List (Text × α)} (hf : (f.map (·.1)).Nodup) (h : f.Perm g) (key : Text) :
    f.lookup key = g.lookup key := by
  have hg : (g.map (·.1)).Nodup := (h.map _).nodup_iff.mp hf
  ext v
  rw [mem_iff_lookup hf, mem_iff_lookup hg, h.mem_iff]

instance {α : Type} : Std.Total fun f g : Text × α => keyLe f.1 g.1 := ⟨fun f g => le_total (f.1.map _) (g.1.map _)⟩

instance {α : Type} : IsTrans (Text × α) fun f g => keyLe f.1 g.1 := ⟨fun _ _ _ => le_trans⟩

theorem sortFields_eq_iff {α : Type} {f g : List (Text × α)} (hf : (f.map (·.1)).Nodup) (hg : (g.map (·.1)).Nodup) :
    sortFields f = sortFields g ↔ ∀ key, f.lookup key = g.lookup key := by
  constructor
  · intro h key
    have hperm : f.Perm g := (perm_sortFields f).symm.trans (h ▸ perm_sortFields g)
    exact lookup_perm hf hperm key
  · intro h
    have hmem : ∀ p, p ∈ f ↔ p ∈ g := fun p => by rw [← mem_iff_lookup hf, ← mem_iff_lookup hg, h]
    have hperm : f.Perm g := (List.perm_ext_iff_of_nodup (.of_map _ hf) (.of_map _ hg)).mpr hmem
    have hsorted : (sortFields f).Perm (sortFields g) :=
      (perm_sortFields f).trans (hperm.trans (perm_sortFields g).symm)
    refine hsorted.eq_of_pairwise (fun p q hp hq hpq hqp => ?_) (List.pairwise_insertionSort _ _)
      (List.pairwise_insertionSort _ _)
    have hkey : p.1 = q.1 := keyLe_antisymm hpq hqp
    have hp' := (mem_iff_lookup hf).mpr ((perm_sortFields f).mem_iff.mp hp)
    have hq' := (mem_iff_lookup hg).mpr ((perm_sortFields g).mem_iff.mp hq)
    rw [h, hkey, hq'] at hp'
    exact Prod.ext hkey (Option.some.inj hp').symm

/-! ### Deep equality -/

theorem asElement_of_ne {v : JsValue} (h : v ≠ .undefined) : asElement v = v := by
  cases v with
  | undefined => exact absurd rfl h
  | _ => rfl

theorem normFields_keys : ∀ fields : List (Text × JsValue), ((normFields fields).map (·.1)).Sublist (fields.map (·.1))
  | [] => .slnil
  | (key, v) :: fields => by
    have hrest := normFields_keys fields
    cases v with
    | undefined => exact hrest.cons key
    | _ => exact hrest.cons_cons key

theorem normFields_nodup {fields : List (Text × JsValue)} (h : (fields.map (·.1)).Nodup) :
    ((normFields fields).map (·.1)).Nodup := h.sublist (normFields_keys fields)

theorem lookup_normFields : ∀ {fields : List (Text × JsValue)}, (fields.map (·.1)).Nodup → ∀ key,
    (normFields fields).lookup key = (definedAt fields key).map norm
  | [], _, _ => rfl
  | (key, v) :: fields, h, key' => by
    obtain ⟨hnot, hrest⟩ := List.nodup_cons.mp h
    have ih := lookup_normFields hrest key'
    by_cases hkey : key' = key
    · subst hkey
      have hfirst : ((key', v) :: fields).lookup key' = some v := List.lookup_cons_self
      have habsent : (normFields fields).lookup key' = none := by
        rw [List.lookup_eq_none_iff]
        intro p hp
        have hmem : p.1 ∈ fields.map (·.1) := (normFields_keys fields).subset (List.mem_map_of_mem hp)
        rw [bne_iff_ne]
        rintro rfl
        exact hnot hmem
      rw [definedAt, hfirst]
      cases v with
      | undefined => exact habsent
      | _ => exact List.lookup_cons_self
    · have hother : ∀ {α : Type} (w : α) (l : List (Text × α)), ((key, w) :: l).lookup key' = l.lookup key' := by
        intro α w l
        rw [List.lookup_cons, beq_false_of_ne hkey]
      rw [definedAt, hother v fields]
      cases v with
      | undefined => exact ih
      | _ => exact (hother _ _).trans ih

theorem definedAt_mem {fields : List (Text × JsValue)} {key : Text} {v : JsValue} (h : definedAt fields key = some v) :
    (key, v) ∈ fields ∧ v ≠ .undefined := by
  unfold definedAt at h
  split at h
  · cases h
  · rename_i hdefined
    obtain ⟨before, after, rfl, -⟩ := List.lookup_eq_some_iff.mp h
    refine ⟨List.mem_append_right _ List.mem_cons_self, ?_⟩
    rintro rfl
    exact hdefined h

theorem distinctKeys_mem {fields : List (Text × JsValue)} (h : DistinctKeysFields fields) {f : Text × JsValue}
    (hf : f ∈ fields) : DistinctKeys f.2 := by
  induction fields with
  | nil => cases hf
  | cons g fields ih =>
    rcases List.mem_cons.mp hf with rfl | hf
    · exact h.1
    · exact ih h.2 hf

mutual

/-- **One normal form** is deep equality. -/
theorem norm_eq_iff : ∀ (a : JsValue), DistinctKeys a → ∀ {b : JsValue}, DistinctKeys b →
    (norm a = norm b ↔ DeepEq (asElement a) (asElement b))
  | .undefined, _, b, _ => by
    cases b with
    | undefined => exact iff_of_true rfl .null
    | null => exact iff_of_true rfl .null
    | _ => exact iff_of_false (fun h => by simp [norm] at h) fun h => by cases h
  | .null, _, b, _ => by
    cases b with
    | undefined => exact iff_of_true rfl .null
    | null => exact iff_of_true rfl .null
    | _ => exact iff_of_false (fun h => by simp [norm] at h) fun h => by cases h
  | .bool c, _, b, _ => by
    cases b with
    | bool d =>
      rw [norm, norm, Json.bool.injEq]
      exact ⟨fun h => h ▸ .bool c, fun h => by cases h; rfl⟩
    | _ => exact iff_of_false (fun h => by simp [norm] at h) fun h => by cases h
  | .num x, _, b, _ => by
    cases b with
    | num y =>
      rw [norm, norm, Json.num.injEq]
      exact ⟨.num, fun h => by cases h; assumption⟩
    | _ => exact iff_of_false (fun h => by simp [norm] at h) fun h => by cases h
  | .str t, _, b, _ => by
    cases b with
    | str u =>
      rw [norm, norm, Json.str.injEq]
      exact ⟨fun h => h ▸ .str t, fun h => by cases h; rfl⟩
    | _ => exact iff_of_false (fun h => by simp [norm] at h) fun h => by cases h
  | .arr i l, ha, b, hb => by
    cases b with
    | arr j m =>
      rw [norm, norm, Json.arr.injEq, normList_eq_iff l ha hb]
      exact ⟨.arr i j, fun h => by cases h; assumption⟩
    | _ => exact iff_of_false (fun h => by simp [norm] at h) fun h => by cases h
  | .obj i f, ha, b, hb => by
    cases b with
    | obj j g =>
      have hkeys : (∀ key, (normFields f).lookup key = (normFields g).lookup key) ↔
          ∀ key, Option.Rel DeepEq (definedAt f key) (definedAt g key) := by
        refine forall_congr' fun key => ?_
        rw [lookup_normFields ha.1, lookup_normFields hb.1]
        cases hf : definedAt f key with
        | none =>
          cases hg : definedAt g key with
          | none => exact iff_of_true rfl .none
          | some w => exact iff_of_false (fun h => by cases h) fun h => by cases h
        | some v =>
          cases hg : definedAt g key with
          | none => exact iff_of_false (fun h => by cases h) fun h => by cases h
          | some w =>
            obtain ⟨hv, hvdefined⟩ := definedAt_mem hf
            obtain ⟨hw, hwdefined⟩ := definedAt_mem hg
            have hsame := normFields_eq_iff f ha.2 _ hv (distinctKeys_mem hb.2 hw)
            rw [asElement_of_ne hvdefined, asElement_of_ne hwdefined] at hsame
            rw [Option.map_some, Option.map_some, Option.some.injEq, hsame]
            exact ⟨.some, fun h => by cases h; assumption⟩
      rw [norm, norm, Json.obj.injEq, sortFields_eq_iff (normFields_nodup ha.1) (normFields_nodup hb.1), hkeys]
      exact ⟨.obj i j, fun h => by cases h; assumption⟩
    | _ => exact iff_of_false (fun h => by simp [norm] at h) fun h => by cases h

theorem normList_eq_iff : ∀ (l : List JsValue), DistinctKeysList l → ∀ {m : List JsValue}, DistinctKeysList m →
    (normList l = normList m ↔ List.Forall₂ DeepEq (l.map asElement) (m.map asElement))
  | [], _, m, _ => by
    cases m with
    | nil => exact iff_of_true rfl .nil
    | cons w m => exact iff_of_false (fun h => by cases h) fun h => by cases h
  | v :: l, hl, m, hm => by
    cases m with
    | nil => exact iff_of_false (fun h => by cases h) fun h => by cases h
    | cons w m =>
      rw [normList, normList, List.cons.injEq, norm_eq_iff v hl.1 hm.1, normList_eq_iff l hl.2 hm.2, List.map_cons,
        List.map_cons, List.forall₂_cons]

theorem normFields_eq_iff : ∀ (fields : List (Text × JsValue)), DistinctKeysFields fields → ∀ f ∈ fields,
    ∀ {b : JsValue}, DistinctKeys b → (norm f.2 = norm b ↔ DeepEq (asElement f.2) (asElement b))
  | [], _, _, hf, _, _ => absurd hf List.not_mem_nil
  | (key, v) :: fields, h, f, hf, b, hb => by
    rcases List.mem_cons.mp hf with rfl | hf
    · exact norm_eq_iff v h.1 hb
    · exact normFields_eq_iff fields h.2 f hf hb

end

/-! ### Parsing back -/

mutual

/-- Parsed data as a value. -/
def ofJson : Value → JsValue
  | .null => .null
  | .bool b => .bool b
  | .num x => .num x
  | .str t => .str t
  | .arr l => .arr 0 (ofJsonList l)
  | .obj fields => .obj 0 (ofJsonFields fields)

def ofJsonList : List Value → List JsValue
  | [] => []
  | v :: l => ofJson v :: ofJsonList l

def ofJsonFields : List (Text × Value) → List (Text × JsValue)
  | [] => []
  | (key, v) :: fields => (key, ofJson v) :: ofJsonFields fields

end

theorem normFields_ofJson (fields : List (Text × Value)) :
    normFields (ofJsonFields fields) = fields.map fun f => (f.1, norm (ofJson f.2)) := by
  induction fields with
  | nil => rfl
  | cons f fields ih =>
    obtain ⟨key, v⟩ := f
    rw [ofJsonFields, List.map_cons, ← ih]
    cases v <;> rfl

theorem ofJsonFields_keys (fields : List (Text × Value)) : (ofJsonFields fields).map (·.1) = fields.map (·.1) := by
  induction fields with
  | nil => rfl
  | cons f fields ih => rw [ofJsonFields, List.map_cons, List.map_cons, ih]

mutual

theorem distinctKeys_ofJson : ∀ v : Value, v.AllNames InOrder → DistinctKeys (ofJson v)
  | .null, _ => trivial
  | .bool _, _ => trivial
  | .num _, _ => trivial
  | .str _, _ => trivial
  | .arr l, h => distinctKeys_ofJsonList l h
  | .obj fields, h => by
    refine ⟨?_, distinctKeys_ofJsonFields fields h.2⟩
    rw [ofJsonFields_keys]
    exact h.1.nodup

theorem distinctKeys_ofJsonList : ∀ l : List Value, AllNamesList InOrder l → DistinctKeysList (ofJsonList l)
  | [], _ => trivial
  | v :: l, h => ⟨distinctKeys_ofJson v h.1, distinctKeys_ofJsonList l h.2⟩

theorem distinctKeys_ofJsonFields : ∀ fields : List (Text × Value), AllNamesFields InOrder fields →
    DistinctKeysFields (ofJsonFields fields)
  | [], _ => trivial
  | (_, v) :: fields, h => ⟨distinctKeys_ofJson v h.1, distinctKeys_ofJsonFields fields h.2⟩

end

theorem lookup_evalFields {fields : List (Text × Tree)} (hnames : (fields.map (·.1)).Nodup)
    (acc : List (Text × Value)) (key : Text) :
    (evalFields acc fields).lookup key = ((fields.lookup key).map Json.eval).or (acc.lookup key) := by
  induction fields generalizing acc with
  | nil => rfl
  | cons f fields ih =>
    obtain ⟨hnot, hrest⟩ := List.nodup_cons.mp hnames
    rw [evalFields, ih hrest, lookup_insertField, List.lookup_cons]
    by_cases hkey : key = f.1
    · subst hkey
      have habsent : fields.lookup f.1 = none := by
        rw [List.lookup_eq_none_iff]
        intro p hp
        rw [bne_iff_ne]
        intro heq
        exact hnot (List.mem_map.mpr ⟨p, hp, heq.symm⟩)
      simp [habsent]
    · simp [hkey, beq_false_of_ne hkey]

theorem lookup_treeFields (fields : List (Text × Value)) (key : Text) :
    (treeFields fields).lookup key = (fields.lookup key).map Json.toTree := by
  induction fields with
  | nil => rfl
  | cons f fields ih =>
    rw [treeFields, List.lookup_cons, List.lookup_cons, ih]
    cases key == f.1 <;> rfl

theorem rewritten_distinct {fields : List (Text × Value)} (hnames : (fields.map (·.1)).Nodup) :
    ∃ fields', rewritten (.obj fields) = .obj fields' ∧ (fields'.map (·.1)).Nodup ∧
      ∀ key, fields'.lookup key = (fields.lookup key).map rewritten := by
  refine ⟨evalFields [] (treeFields fields), rfl, ?_, fun key => ?_⟩
  · exact (Json.ordered_eval (.obj (treeFields fields))).1.nodup
  · have htree : ((treeFields fields).map (·.1)).Nodup := by
      rw [treeFields_names]
      exact hnames
    rw [lookup_evalFields htree, lookup_treeFields, Option.map_map]
    cases fields.lookup key <;> rfl

theorem unsigned_unsigned (x : Double) : unsigned (unsigned x) = unsigned x := by
  cases x with
  | infinity neg => rfl
  | finite neg n h =>
    by_cases hzero : n = 0
    · simp [unsigned, hzero]
    · simp [unsigned, hzero]

theorem rewritten_unsigned {x : Double} (h : ∃ neg n h, x = .finite neg n h) :
    rewritten (.num (unsigned x)) = .num (unsigned x) := by
  obtain ⟨neg, n, hn, rfl⟩ := h
  have hwritable : writable (unsigned (.finite neg n hn)) = true := by
    by_cases hzero : n = 0
    · simp [unsigned, writable, hzero]
    · simp [unsigned, writable, hzero]
  exact (eval_numberTree _).mpr hwritable

mutual

/-- **The normal form survives**: of what is written and parsed again it is the same. -/
theorem norm_parsed : ∀ a : JsValue, DistinctKeys a → FiniteNumbers a → norm (ofJson (rewritten (norm a))) = norm a
  | .undefined, _, _ => rfl
  | .null, _, _ => rfl
  | .bool _, _, _ => rfl
  | .num x, _, h => by
    rw [norm, rewritten_unsigned h, ofJson, norm, unsigned_unsigned]
  | .str _, _, _ => rfl
  | .arr _ elements, hkeys, h => by
    rw [norm, rewritten_arr, ofJson, norm, normList_parsed elements hkeys h]
  | .obj _ fields, hkeys, h => by
    have hnames := normFields_nodup hkeys.1
    have hsorted : ((sortFields (normFields fields)).map (·.1)).Nodup :=
      ((perm_sortFields _).map _).nodup_iff.mpr hnames
    obtain ⟨fields', hrewritten, hnames', hlookup⟩ := rewritten_distinct hsorted
    have hmapped : ((fields'.map fun f => (f.1, norm (ofJson f.2))).map (·.1)).Nodup := by
      rw [List.map_map]
      exact hnames'
    rw [norm, hrewritten, ofJson, norm, normFields_ofJson, Json.obj.injEq, sortFields_eq_iff hmapped hnames]
    intro key
    rw [lookup_map_snd (fun v : Value => norm (ofJson v)), hlookup, lookup_perm hsorted (perm_sortFields _),
      Option.map_map]
    cases hfield : (normFields fields).lookup key with
    | none => rfl
    | some v => exact congrArg some (normFields_parsed fields hkeys.2 h _ ((mem_iff_lookup hnames).mp hfield))

theorem normList_parsed : ∀ l : List JsValue, DistinctKeysList l → FiniteNumbersList l →
    normList (ofJsonList ((normList l).map rewritten)) = normList l
  | [], _, _ => rfl
  | v :: l, hkeys, h => by
    rw [normList, List.map_cons, ofJsonList, normList, norm_parsed v hkeys.1 h.1, normList_parsed l hkeys.2 h.2]

theorem normFields_parsed : ∀ fields : List (Text × JsValue), DistinctKeysFields fields → FiniteNumbersFields fields →
    ∀ f ∈ normFields fields, norm (ofJson (rewritten f.2)) = f.2
  | [], _, _, _, hf => absurd hf List.not_mem_nil
  | (key, v) :: fields, hkeys, h, f, hf => by
    have hfirst := norm_parsed v hkeys.1 h.1
    have hrest := normFields_parsed fields hkeys.2 h.2 f
    cases v with
    | undefined => exact hrest hf
    | _ =>
      rcases List.mem_cons.mp hf with rfl | hf
      · exact hfirst
      · exact hrest hf

end

/-- **Canonical JSON is canonical**: two values are written alike exactly when they are deeply equal; what is written is
parsed as a value deeply equal to the one it was written for; and no value, with parts shared or not, is taken for a
cycle. -/
theorem canonical_json (a b : JsonLike) :
    (∃ out v, canonicalJSON a.value [] = some (out, []) ∧ parse out = some v ∧ DeepEq a.value (ofJson v)) ∧
      ((canonicalJSON a.value []).map Prod.fst = (canonicalJSON b.value []).map Prod.fst ↔ DeepEq a.value b.value) := by
  have hwritten : ∀ c : JsonLike, canonicalJSON c.value [] = some (stringify (norm c.value), []) :=
    fun c => canonicalJSON_eq c.value (fresh_of_consistent c.consistent)
  have hparsed : ∀ c : JsonLike, norm (ofJson (rewritten (norm c.value))) = norm c.value :=
    fun c => norm_parsed c.value c.distinct c.finite
  constructor
  · refine ⟨_, _, hwritten a, parse_stringify_eq _, ?_⟩
    have hdistinct := distinctKeys_ofJson (rewritten (norm a.value)) (Json.ordered_eval _)
    have hequal := (norm_eq_iff a.value a.distinct hdistinct).mp (hparsed a).symm
    have hdefined : ofJson (rewritten (norm a.value)) ≠ .undefined := by
      cases rewritten (norm a.value) <;> exact nofun
    rwa [asElement_of_ne a.defined, asElement_of_ne hdefined] at hequal
  · have hequal := norm_eq_iff a.value a.distinct b.distinct
    rw [asElement_of_ne a.defined, asElement_of_ne b.defined] at hequal
    rw [hwritten a, hwritten b, Option.map_some, Option.map_some, Option.some.injEq, ← hequal]
    constructor
    · intro htext
      have hsame := congrArg parse htext
      rw [parse_stringify_eq, parse_stringify_eq] at hsame
      rw [← hparsed a, Option.some.inj hsame, hparsed b]
    · exact congrArg stringify

end AgentDesk.CanonicalJson
