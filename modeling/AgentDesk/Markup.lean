/-
# Markup, written and read

Elements, their attributes, and characters, as XML has them, without comments, declarations, references by
number and namespaces. The reader is a machine that takes a text unit by unit: `step` gives the next state, and
the token that the unit completes, if it does. `build` makes the tokens a forest.

What is written is a `Doc`: a forest that says of each of its texts whether it is written with the references for
`&`, `<`, `>` and `"`, or as it stands.

* `build_eq_iff`: tokens are those of one forest.
* `read_print_iff`: **a document is read back** exactly when the texts that stand as they are have no `<` and no `&`.

Each piece that is written is to be read as one token. No piece completes two, wherever the reader is; and `<` or
`&`, as it stands, completes none. So with one of them too few tokens are read, whatever the rest is.
-/
import AgentDesk.JsonText

namespace Markup

open JsonText

/-! ### Tokens -/

abbrev Attributes := List (Text × Text)

inductive Token where
  | char (c : UInt16)
  | start (name : Text) (attributes : Attributes)
  | stop (name : Text)
  | empty (name : Text) (attributes : Attributes)
  deriving DecidableEq

/-- A unit of a name. -/
def nameUnit (c : UInt16) : Bool :=
  (unit 'a' ≤ c && c ≤ unit 'z') || (unit 'A' ≤ c && c ≤ unit 'Z') || (unit '0' ≤ c && c ≤ unit '9') || c = unit '_'

/-- What a reference stands for. -/
def decode (reference : Text) : Option UInt16 :=
  if reference = ofString "amp" then some (unit '&')
  else if reference = ofString "lt" then some (unit '<')
  else if reference = ofString "gt" then some (unit '>')
  else if reference = ofString "quot" then some (unit '"')
  else if reference = ofString "apos" then some (unit '\'')
  else none

/-- Where the reader is: between tags; in a reference; at the beginning of a tag; in its name; after a space, in an
attribute's name, after the `=`, in the value, in a reference there, after the value; after the `/` of an empty
element. -/
inductive Place where
  | text
  | reference (done : Text)
  | tag
  | stopName (done : Text)
  | name (done : Text)
  | space (name : Text) (attributes : Attributes)
  | key (name : Text) (attributes : Attributes) (done : Text)
  | equals (name : Text) (attributes : Attributes) (key : Text)
  | value (name : Text) (attributes : Attributes) (key done : Text)
  | valueReference (name : Text) (attributes : Attributes) (key value done : Text)
  | afterValue (name : Text) (attributes : Attributes)
  | slash (name : Text) (attributes : Attributes)

/-- In a tag, where no name and no value goes on. -/
def inTag (name : Text) (attributes : Attributes) (c : UInt16) : Option (Place × Option Token) :=
  if isSpace c then some (.space name attributes, none)
  else if c = unit '/' then some (.slash name attributes, none)
  else if c = unit '>' then some (.text, some (.start name attributes))
  else none

/-- One unit: the next state, and the token it completes. -/
def step : Place → UInt16 → Option (Place × Option Token)
  | .text, c =>
    if c = unit '<' then some (.tag, none)
    else if c = unit '&' then some (.reference [], none)
    else some (.text, some (.char c))
  | .reference done, c =>
    if c = unit ';' then (decode done).map fun d => (.text, some (.char d))
    else if nameUnit c then some (.reference (done ++ [c]), none)
    else none
  | .tag, c =>
    if c = unit '/' then some (.stopName [], none)
    else if nameUnit c then some (.name [c], none)
    else none
  | .stopName done, c =>
    if nameUnit c then some (.stopName (done ++ [c]), none)
    else if c = unit '>' ∧ done ≠ [] then some (.text, some (.stop done))
    else none
  | .name done, c => if nameUnit c then some (.name (done ++ [c]), none) else inTag done [] c
  | .space name attributes, c =>
    if nameUnit c then some (.key name attributes [c], none) else inTag name attributes c
  | .key name attributes done, c =>
    if nameUnit c then some (.key name attributes (done ++ [c]), none)
    else if c = unit '=' then some (.equals name attributes done, none)
    else none
  | .equals name attributes key, c =>
    if c = unit '"' then some (.value name attributes key [], none) else none
  | .value name attributes key done, c =>
    if c = unit '"' then some (.afterValue name (attributes ++ [(key, done)]), none)
    else if c = unit '<' then none
    else if c = unit '&' then some (.valueReference name attributes key done [], none)
    else some (.value name attributes key (done ++ [c]), none)
  | .valueReference name attributes key value done, c =>
    if c = unit ';' then (decode done).map fun d => (.value name attributes key (value ++ [d]), none)
    else if nameUnit c then some (.valueReference name attributes key value (done ++ [c]), none)
    else none
  | .afterValue name attributes, c => inTag name attributes c
  | .slash name attributes, c => if c = unit '>' then some (.text, some (.empty name attributes)) else none

/-- The units of a text, and the tokens they complete. -/
def run (s : Place) : Text → Option (Place × List Token)
  | [] => some (s, [])
  | c :: t => (step s c).bind fun p => (run p.1 t).map fun q => (q.1, p.2.toList ++ q.2)

/-- The tokens of a whole text. -/
def tokens (t : Text) : Option (List Token) :=
  match run .text t with
  | some (.text, l) => some l
  | _ => none

theorem run_append (s : Place) (t u : Text) :
    run s (t ++ u) = (run s t).bind fun p => (run p.1 u).map fun q => (q.1, p.2 ++ q.2) := by
  induction t generalizing s with
  | nil => simp [run]
  | cons c t ih =>
    rw [List.cons_append, run, run]
    cases step s c with
    | none => rfl
    | some p =>
      simp only [Option.bind_some, ih]
      cases run p.1 t with
      | none => rfl
      | some q => simp [Function.comp_def]

theorem run_append_of {s s' : Place} {t : Text} {l : List Token} (h : run s t = some (s', l)) (u : Text) :
    run s (t ++ u) = (run s' u).map fun q => (q.1, l ++ q.2) := by
  rw [run_append, h]
  rfl

theorem run_done {f : Text → Place} {P : UInt16 → Prop}
    (hstep : ∀ done c, P c → step (f done) c = some (f (done ++ [c]), none)) :
    ∀ (t done : Text), (∀ c ∈ t, P c) → run (f done) t = some (f (done ++ t), [])
  | [], done, _ => by rw [run, List.append_nil]
  | c :: t, done, h => by
    have hc := hstep done c (h c (.head _))
    have ht := run_done hstep t (done ++ [c]) fun d hd => h d (.tail _ hd)
    rw [run, hc, Option.bind_some, ht, List.append_assoc]
    rfl

/-! ### Pieces -/

/-- The name of an element or of an attribute. -/
structure Name where
  text : Text
  nonempty : text ≠ []
  units : ∀ c ∈ text, nameUnit c = true

/-- A unit as it is written, with a reference where it needs one. -/
def escapeUnit (c : UInt16) : Text :=
  if c = unit '&' then ofString "&amp;"
  else if c = unit '<' then ofString "&lt;"
  else if c = unit '>' then ofString "&gt;"
  else if c = unit '"' then ofString "&quot;"
  else [c]

def escape (t : Text) : Text := t.flatMap escapeUnit

def attributeText (a : Name × Text) : Text :=
  0x20 :: (a.1.text ++ unit '=' :: unit '"' :: (escape a.2 ++ [unit '"']))

/-- What is written for one token; `raw` is a unit as it stands. -/
inductive Piece where
  | raw (c : UInt16)
  | escaped (c : UInt16)
  | start (name : Name) (attributes : List (Name × Text))
  | stop (name : Name)
  | empty (name : Name) (attributes : List (Name × Text))

def attributesOf (l : List (Name × Text)) : Attributes := l.map fun a => (a.1.text, a.2)

namespace Piece

def text : Piece → Text
  | raw c => [c]
  | escaped c => escapeUnit c
  | start name attributes => unit '<' :: (name.text ++ (attributes.flatMap attributeText ++ [unit '>']))
  | stop name => unit '<' :: unit '/' :: (name.text ++ [unit '>'])
  | empty name attributes =>
    unit '<' :: (name.text ++ (attributes.flatMap attributeText ++ [0x20, unit '/', unit '>']))

def token : Piece → Token
  | raw c => .char c
  | escaped c => .char c
  | start name attributes => .start name.text (attributesOf attributes)
  | stop name => .stop name.text
  | empty name attributes => .empty name.text (attributesOf attributes)

/-- No unit as it stands opens a tag or a reference. -/
def Plain (p : Piece) : Prop := ∀ c, p = raw c → c ≠ unit '<' ∧ c ≠ unit '&'

end Piece

theorem nameUnit_ne {c d : UInt16} (hc : nameUnit c = true) (hd : nameUnit d = false) : c ≠ d := by
  rintro rfl
  rw [hc] at hd
  cases hd

/-! ### References -/

/-- The units that are written as references. -/
def references : List (UInt16 × Text) :=
  [(unit '&', ofString "amp"), (unit '<', ofString "lt"), (unit '>', ofString "gt"), (unit '"', ofString "quot")]

theorem escapeUnit_cases (c : UInt16) :
    (∃ r, (c, r) ∈ references ∧ escapeUnit c = unit '&' :: (r ++ [unit ';'])) ∨
      (escapeUnit c = [c] ∧ c ≠ unit '&' ∧ c ≠ unit '<' ∧ c ≠ unit '"') := by
  unfold escapeUnit
  by_cases hamp : c = unit '&'
  · exact .inl ⟨ofString "amp", by simp [references, hamp], by rw [if_pos hamp]; decide⟩
  · rw [if_neg hamp]
    by_cases hlt : c = unit '<'
    · exact .inl ⟨ofString "lt", by simp [references, hlt], by rw [if_pos hlt]; decide⟩
    · rw [if_neg hlt]
      by_cases hgt : c = unit '>'
      · exact .inl ⟨ofString "gt", by simp [references, hgt], by rw [if_pos hgt]; decide⟩
      · rw [if_neg hgt]
        by_cases hquot : c = unit '"'
        · exact .inl ⟨ofString "quot", by simp [references, hquot], by rw [if_pos hquot]; decide⟩
        · exact .inr ⟨if_neg hquot, hamp, hlt, hquot⟩

theorem references_decode : ∀ p ∈ references, decode p.2 = some p.1 ∧ ∀ c ∈ p.2, nameUnit c = true := by
  have hall : ∀ p ∈ references, decode p.2 = some p.1 ∧ p.2.all nameUnit = true := by decide +kernel
  exact fun p hp => ⟨(hall p hp).1, List.all_eq_true.mp (hall p hp).2⟩

theorem run_reference_of {c : UInt16} {r : Text} (hdecode : decode r = some c) (hunits : ∀ d ∈ r, nameUnit d = true) :
    run .text (unit '&' :: (r ++ [unit ';'])) = some (.text, [.char c]) := by
  have hname := run_done (f := Place.reference) (P := fun d => nameUnit d = true)
    (fun done d hd => by rw [step, if_neg (nameUnit_ne hd (by decide)), if_pos hd]) r [] hunits
  have hopen : run .text [unit '&'] = some (.reference [], []) := by rfl
  have hend : run (.reference r) [unit ';'] = some (.text, [.char c]) := by
    rw [run, step, if_pos rfl, hdecode]
    rfl
  rw [← List.singleton_append, run_append_of hopen, run_append_of hname, List.nil_append, hend]
  rfl

theorem run_valueReference_of {c : UInt16} {r : Text} (hdecode : decode r = some c)
    (hunits : ∀ d ∈ r, nameUnit d = true) (name : Text) (attributes : Attributes) (key done : Text) :
    run (.value name attributes key done) (unit '&' :: (r ++ [unit ';'])) =
      some (.value name attributes key (done ++ [c]), []) := by
  have hname := run_done (f := Place.valueReference name attributes key done) (P := fun d => nameUnit d = true)
    (fun done d hd => by rw [step, if_neg (nameUnit_ne hd (by decide)), if_pos hd]) r [] hunits
  have hopen : run (.value name attributes key done) [unit '&'] =
      some (.valueReference name attributes key done [], []) := by rfl
  have hend : run (.valueReference name attributes key done r) [unit ';'] =
      some (.value name attributes key (done ++ [c]), []) := by
    rw [run, step, if_pos rfl, hdecode]
    rfl
  rw [← List.singleton_append, run_append_of hopen, run_append_of hname, List.nil_append, hend]
  rfl

theorem run_valueReference {c : UInt16} {r : Text} (h : (c, r) ∈ references) (name : Text) (attributes : Attributes)
    (key done : Text) : run (.value name attributes key done) (unit '&' :: (r ++ [unit ';'])) =
      some (.value name attributes key (done ++ [c]), []) :=
  run_valueReference_of (references_decode _ h).1 (references_decode _ h).2 name attributes key done

/-! ### Texts that stand for others -/

/-- The text is read as the value, between tags and in an attribute. -/
structure Spells (written value : Text) : Prop where
  between : run .text written = some (.text, value.map .char)
  within : ∀ name attributes key done, run (.value name attributes key done) written =
    some (.value name attributes key (done ++ value), [])

theorem spells_nil : Spells [] [] := ⟨rfl, fun name attributes key done => by rw [run, List.append_nil]⟩

theorem Spells.append {t v u w : Text} (ht : Spells t v) (hu : Spells u w) : Spells (t ++ u) (v ++ w) := by
  constructor
  · rw [run_append_of ht.between, hu.between, List.map_append]
    rfl
  · intro name attributes key done
    rw [run_append_of (ht.within name attributes key done), hu.within, ← List.append_assoc]
    rfl

theorem spells_reference {c : UInt16} {r : Text} (hdecode : decode r = some c) (hunits : ∀ d ∈ r, nameUnit d = true) :
    Spells (unit '&' :: (r ++ [unit ';'])) [c] :=
  ⟨run_reference_of hdecode hunits, run_valueReference_of hdecode hunits⟩

theorem spells_unit {c : UInt16} (hamp : c ≠ unit '&') (hlt : c ≠ unit '<') (hquot : c ≠ unit '"') : Spells [c] [c] := by
  constructor
  · rw [run, step, if_neg hlt, if_neg hamp]
    rfl
  · intro name attributes key done
    rw [run, step, if_neg hquot, if_neg hlt, if_neg hamp]
    rfl

theorem spells_flatMap {f : UInt16 → Text} (h : ∀ c, Spells (f c) [c]) : ∀ t : Text, Spells (t.flatMap f) t
  | [] => spells_nil
  | c :: t => (h c).append (spells_flatMap h t)

theorem spells_escapeUnit (c : UInt16) : Spells (escapeUnit c) [c] := by
  rcases escapeUnit_cases c with ⟨r, hr, htext⟩ | ⟨htext, hamp, hlt, hquot⟩
  · rw [htext]
    exact spells_reference (references_decode _ hr).1 (references_decode _ hr).2
  · rw [htext]
    exact spells_unit hamp hlt hquot

theorem spells_escape (t : Text) : Spells (escape t) t := spells_flatMap spells_escapeUnit t

/-! ### A piece is read as its token -/

theorem run_escaped (c : UInt16) : run .text (escapeUnit c) = some (.text, [.char c]) := (spells_escapeUnit c).between

/-- The reader is in a tag, after its name and these attributes. -/
def InTag (s : Place) (name : Text) (attributes : Attributes) : Prop :=
  ∀ c, nameUnit c = false → step s c = inTag name attributes c

theorem inTag_name (name : Text) : InTag (.name name) name [] := fun c hc => by rw [step, hc]; rfl

/-- An attribute, with what is written as its value. -/
def writtenAttribute (key : Name) (written : Text) : Text :=
  0x20 :: (key.text ++ unit '=' :: unit '"' :: (written ++ [unit '"']))

theorem run_writtenAttribute {s : Place} {name : Text} {attributes : Attributes} (h : InTag s name attributes)
    (key : Name) {written value : Text} (hspells : Spells written value) :
    run s (writtenAttribute key written) = some (.afterValue name (attributes ++ [(key.text, value)]), []) := by
  obtain ⟨key, hne, hunits⟩ := key
  cases key with
  | nil => exact absurd rfl hne
  | cons c key =>
    have hspace : run s [0x20] = some (.space name attributes, []) := by
      rw [run, h _ (by decide)]
      rfl
    have hfirst : run (.space name attributes) [c] = some (.key name attributes [c], []) := by
      rw [run, step, if_pos (hunits c (.head _))]
      rfl
    have hkey := run_done (f := Place.key name attributes) (P := fun d => nameUnit d = true)
      (fun done d hd => by rw [step, if_pos hd]) key [c] fun d hd => hunits d (.tail _ hd)
    have hequals : run (.key name attributes (c :: key)) [unit '=', unit '"'] =
        some (.value name attributes (c :: key) [], []) := by rfl
    have hvalue := hspells.within name attributes (c :: key) []
    have hend : run (.value name attributes (c :: key) value) [unit '"'] =
        some (.afterValue name (attributes ++ [(c :: key, value)]), []) := by rfl
    have htext : writtenAttribute ⟨c :: key, hne, hunits⟩ written =
        [0x20] ++ ([c] ++ (key ++ ([unit '=', unit '"'] ++ (written ++ [unit '"'])))) := rfl
    rw [htext, run_append_of hspace, run_append_of hfirst, run_append_of hkey]
    change Option.map _ (Option.map _ (Option.map _ (run (.key name attributes (c :: key)) _))) = _
    rw [run_append_of hequals, run_append_of hvalue, List.nil_append, hend]
    rfl

/-- An attribute's name, with what is written as its value and what it stands for. -/
abbrev Spelling := Name × Text × Text

def Spelling.text (a : Spelling) : Text := writtenAttribute a.1 a.2.1

def valuesOf (l : List Spelling) : Attributes := l.map fun a => (a.1.text, a.2.2)

theorem run_spellings : ∀ (l : List Spelling) {s : Place} {name : Text} {attributes : Attributes},
    (∀ a ∈ l, Spells a.2.1 a.2.2) → InTag s name attributes →
      ∃ s', run s (l.flatMap Spelling.text) = some (s', []) ∧ InTag s' name (attributes ++ valuesOf l)
  | [], s, name, attributes, _, h => ⟨s, rfl, by rwa [valuesOf, List.map_nil, List.append_nil]⟩
  | a :: l, s, name, attributes, hl, h => by
    have hafter : InTag (.afterValue name (attributes ++ [(a.1.text, a.2.2)])) name
        (attributes ++ [(a.1.text, a.2.2)]) := fun _ _ => rfl
    obtain ⟨s', hrun, hin⟩ := run_spellings l (fun b hb => hl b (.tail _ hb)) hafter
    refine ⟨s', ?_, ?_⟩
    · rw [List.flatMap_cons, Spelling.text, run_append_of (run_writtenAttribute h a.1 (hl a (.head _))), hrun]
      rfl
    · rwa [List.append_assoc] at hin

theorem run_openTag (name : Name) {l : List Spelling} (hl : ∀ a ∈ l, Spells a.2.1 a.2.2) : ∃ s,
    run .text (unit '<' :: (name.text ++ l.flatMap Spelling.text)) = some (s, []) ∧ InTag s name.text (valuesOf l) := by
  obtain ⟨name, hne, hunits⟩ := name
  cases name with
  | nil => exact absurd rfl hne
  | cons c name =>
    have hslash : c ≠ unit '/' := nameUnit_ne (hunits c (.head _)) (by decide)
    have hfirst : run .text [unit '<', c] = some (.name [c], []) := by
      have htag : step .text (unit '<') = some (.tag, none) := rfl
      rw [run, htag, Option.bind_some, run, step, if_neg hslash, if_pos (hunits c (.head _))]
      rfl
    have hname := run_done (f := Place.name) (P := fun d => nameUnit d = true)
      (fun done d hd => by rw [step, if_pos hd]) name [c] fun d hd => hunits d (.tail _ hd)
    obtain ⟨s, hrun, hin⟩ := run_spellings l hl (inTag_name (c :: name))
    refine ⟨s, ?_, hin⟩
    change run .text ([unit '<', c] ++ (name ++ l.flatMap Spelling.text)) = _
    rw [run_append_of hfirst, run_append_of hname]
    change Option.map _ (Option.map _ (run (.name (c :: name)) _)) = _
    rw [hrun]
    rfl

theorem run_startTag (name : Name) {l : List Spelling} (hl : ∀ a ∈ l, Spells a.2.1 a.2.2) :
    run .text (unit '<' :: (name.text ++ (l.flatMap Spelling.text ++ [unit '>']))) =
      some (.text, [.start name.text (valuesOf l)]) := by
  obtain ⟨s, hrun, hin⟩ := run_openTag name hl
  have hend : run s [unit '>'] = some (.text, [.start name.text (valuesOf l)]) := by
    rw [run, hin _ (by decide)]
    rfl
  rw [← List.append_assoc, ← List.cons_append, run_append_of hrun, hend]
  rfl

theorem run_emptyTag (name : Name) {l : List Spelling} (hl : ∀ a ∈ l, Spells a.2.1 a.2.2) :
    run .text (unit '<' :: (name.text ++ (l.flatMap Spelling.text ++ [0x20, unit '/', unit '>']))) =
      some (.text, [.empty name.text (valuesOf l)]) := by
  obtain ⟨s, hrun, hin⟩ := run_openTag name hl
  have hend : run s [0x20, unit '/', unit '>'] = some (.text, [.empty name.text (valuesOf l)]) := by
    rw [run, hin _ (by decide)]
    rfl
  rw [← List.append_assoc, ← List.cons_append, run_append_of hrun, hend]
  rfl

/-- The attributes of a piece, as they are written. -/
def spellings (l : List (Name × Text)) : List Spelling := l.map fun a => (a.1, escape a.2, a.2)

theorem spellings_spell (l : List (Name × Text)) : ∀ a ∈ spellings l, Spells a.2.1 a.2.2 := by
  intro a ha
  obtain ⟨b, -, rfl⟩ := List.mem_map.mp ha
  exact spells_escape b.2

theorem spellings_text (l : List (Name × Text)) : (spellings l).flatMap Spelling.text = l.flatMap attributeText := by
  rw [spellings, List.flatMap_map]
  rfl

theorem spellings_values (l : List (Name × Text)) : valuesOf (spellings l) = attributesOf l := by
  rw [valuesOf, spellings, List.map_map]
  rfl

/-- **A piece is read as its token**, between tags. -/
theorem run_piece {p : Piece} (hp : p.Plain) : run .text p.text = some (.text, [p.token]) := by
  cases p with
  | raw c =>
    obtain ⟨hlt, hamp⟩ := hp c rfl
    rw [Piece.text, run, step, if_neg hlt, if_neg hamp]
    rfl
  | escaped c => exact run_escaped c
  | start name attributes =>
    have htag := run_startTag name (spellings_spell attributes)
    rw [spellings_text, spellings_values] at htag
    exact htag
  | stop name =>
    have hopen : run .text [unit '<', unit '/'] = some (.stopName [], []) := by rfl
    have hname := run_done (f := Place.stopName) (P := fun d => nameUnit d = true)
      (fun done d hd => by rw [step, if_pos hd]) name.text [] name.units
    have hend : run (.stopName name.text) [unit '>'] = some (.text, [.stop name.text]) := by
      rw [run, step, if_neg (by decide), if_pos ⟨rfl, name.nonempty⟩]
      rfl
    change run .text ([unit '<', unit '/'] ++ (name.text ++ [unit '>'])) = _
    rw [run_append_of hopen, run_append_of hname, List.nil_append, hend]
    rfl
  | empty name attributes =>
    have htag := run_emptyTag name (spellings_spell attributes)
    rw [spellings_text, spellings_values] at htag
    exact htag

/-! ### No piece completes two tokens -/

theorem step_lt {s : Place} (h : s ≠ .text) : step s (unit '<') = none := by
  cases s with
  | text => exact absurd rfl h
  | _ => rfl

theorem step_amp (s : Place) : s = .text ∨ (∃ name attributes key done, s = .value name attributes key done) ∨
    step s (unit '&') = none := by
  cases s with
  | text => exact .inl rfl
  | value name attributes key done => exact .inr (.inl ⟨name, attributes, key, done, rfl⟩)
  | _ => exact .inr (.inr rfl)

theorem run_unit {s s' : Place} {c : UInt16} {l : List Token} (h : run s [c] = some (s', l)) :
    ∃ token, step s c = some (s', token) ∧ l = token.toList := by
  rw [run] at h
  cases hstep : step s c with
  | none =>
    rw [hstep] at h
    cases h
  | some p =>
    rw [hstep] at h
    simp only [Option.bind_some, run, Option.map_some, List.append_nil, Option.some.injEq, Prod.mk.injEq] at h
    exact ⟨p.2, by rw [← h.1], h.2.symm⟩

theorem run_unit_le {s s' : Place} {c : UInt16} {l : List Token} (h : run s [c] = some (s', l)) : l.length ≤ 1 := by
  obtain ⟨token, -, rfl⟩ := run_unit h
  cases token with
  | none => exact Nat.zero_le 1
  | some k => exact Nat.le_refl 1

theorem run_lt {s s' : Place} {t : Text} {l : List Token} (h : run s (unit '<' :: t) = some (s', l)) : s = .text := by
  by_contra hs
  rw [run, step_lt hs] at h
  cases h

theorem run_piece_le (p : Piece) {s s' : Place} {l : List Token} (h : run s p.text = some (s', l)) : l.length ≤ 1 := by
  have hplain : ∀ {p : Piece} {l : List Token}, p.Plain → run .text p.text = some (s', l) → l.length ≤ 1 := by
    intro p l hp hrun
    rw [run_piece hp] at hrun
    obtain ⟨-, rfl⟩ := Prod.mk.inj (Option.some.inj hrun)
    exact Nat.le_refl 1
  cases p with
  | raw c => exact run_unit_le h
  | escaped c =>
    rcases escapeUnit_cases c with ⟨r, hr, htext⟩ | ⟨htext, -⟩
    · rcases step_amp s with rfl | ⟨name, attributes, key, done, rfl⟩ | hnone
      · exact hplain (p := .escaped c) nofun h
      · rw [Piece.text, htext, run_valueReference hr] at h
        obtain ⟨-, rfl⟩ := Prod.mk.inj (Option.some.inj h)
        exact Nat.zero_le 1
      · rw [Piece.text, htext, run, hnone] at h
        cases h
    · rw [Piece.text, htext] at h
      exact run_unit_le h
  | start name attributes =>
    obtain rfl := run_lt h
    exact hplain (p := .start name attributes) nofun h
  | stop name =>
    obtain rfl := run_lt h
    exact hplain (p := .stop name) nofun h
  | empty name attributes =>
    obtain rfl := run_lt h
    exact hplain (p := .empty name attributes) nofun h

theorem run_opening {c : UInt16} (hc : c = unit '<' ∨ c = unit '&') {s s' : Place} {l : List Token}
    (h : run s [c] = some (s', l)) : l = [] := by
  obtain ⟨token, hstep, rfl⟩ := run_unit h
  rcases hc with rfl | rfl
  · by_cases hs : s = .text
    · subst hs
      obtain ⟨-, rfl⟩ := Prod.mk.inj (Option.some.inj hstep)
      rfl
    · rw [step_lt hs] at hstep
      cases hstep
  · rcases step_amp s with rfl | ⟨name, attributes, key, done, rfl⟩ | hnone
    · obtain ⟨-, rfl⟩ := Prod.mk.inj (Option.some.inj hstep)
      rfl
    · obtain ⟨-, rfl⟩ := Prod.mk.inj (Option.some.inj hstep)
      rfl
    · rw [hnone] at hstep
      cases hstep

theorem run_pieces : ∀ {ps : List Piece}, (∀ p ∈ ps, p.Plain) →
    run .text (ps.flatMap Piece.text) = some (.text, ps.map Piece.token)
  | [], _ => rfl
  | p :: ps, h => by
    have hp := run_piece (h p (.head _))
    have ih := run_pieces fun q hq => h q (.tail _ hq)
    rw [List.flatMap_cons, run_append_of hp, ih]
    rfl

theorem run_pieces_le : ∀ {ps : List Piece} {s s' : Place} {l : List Token},
    run s (ps.flatMap Piece.text) = some (s', l) → l.length ≤ ps.length ∧ ((∃ p ∈ ps, ¬p.Plain) → l.length < ps.length)
  | [], s, s', l, h => by
    obtain ⟨-, rfl⟩ := Prod.mk.inj (Option.some.inj h)
    exact ⟨Nat.le_refl 0, fun ⟨_, hp, _⟩ => absurd hp List.not_mem_nil⟩
  | p :: ps, s, s', l, h => by
    rw [List.flatMap_cons, run_append] at h
    obtain ⟨q, hq, hmap⟩ := Option.bind_eq_some_iff.mp h
    obtain ⟨r, hr, heq⟩ := Option.map_eq_some_iff.mp hmap
    obtain ⟨-, rfl⟩ := Prod.mk.inj heq
    have hone := run_piece_le p (l := q.2) hq
    obtain ⟨hle, hlt⟩ := run_pieces_le hr
    rw [List.length_append, List.length_cons]
    refine ⟨by omega, fun ⟨p', hp', hplain⟩ => ?_⟩
    rcases List.mem_cons.mp hp' with rfl | hp'
    · unfold Piece.Plain at hplain
      push Not at hplain
      obtain ⟨c, rfl, hopening⟩ := hplain
      have hnone : q.2 = [] := by
        refine run_opening (c := c) ?_ (l := q.2) hq
        by_cases hc : c = unit '<'
        · exact .inl hc
        · exact .inr (hopening hc)
      rw [hnone, List.length_nil]
      omega
    · have := hlt ⟨p', hp', hplain⟩
      omega

/-- **The tokens are those of the pieces** exactly when every piece is plain. -/
theorem tokens_pieces_iff {ps : List Piece} :
    tokens (ps.flatMap Piece.text) = some (ps.map Piece.token) ↔ ∀ p ∈ ps, p.Plain := by
  constructor
  · intro h
    by_contra hnot
    push Not at hnot
    unfold tokens at h
    split at h
    · rename_i l hrun
      obtain rfl := Option.some.inj h
      have hlt := (run_pieces_le hrun).2 hnot
      rw [List.length_map] at hlt
      exact Nat.lt_irrefl _ hlt
    · cases h
  · intro h
    rw [tokens, run_pieces h]

/-! ### Forests -/

inductive Node where
  | char (c : UInt16)
  | element (name : Text) (attributes : Attributes) (children : List Node)
  | empty (name : Text) (attributes : Attributes)

mutual

def Node.flatten : Node → List Token
  | .char c => [.char c]
  | .element name attributes children => .start name attributes :: (flattenAll children ++ [.stop name])
  | .empty name attributes => [.empty name attributes]

/-- The tokens of a forest. -/
def flattenAll : List Node → List Token
  | [] => []
  | n :: ns => n.flatten ++ flattenAll ns

end

/-- The elements that are open, the innermost first, each with the nodes before it. -/
abbrev Stack := List (Text × Attributes × List Node)

/-- The forest of the tokens, after the nodes that are there so far. -/
def buildFrom (stack : Stack) (nodes : List Node) : List Token → Option (List Node)
  | [] => if stack.isEmpty then some nodes else none
  | .char c :: l => buildFrom stack (nodes ++ [.char c]) l
  | .start name attributes :: l => buildFrom ((name, attributes, nodes) :: stack) [] l
  | .stop name :: l =>
    match stack with
    | [] => none
    | (opened, attributes, before) :: stack =>
      if opened = name then buildFrom stack (before ++ [.element opened attributes nodes]) l else none
  | .empty name attributes :: l => buildFrom stack (nodes ++ [.empty name attributes]) l

def build (l : List Token) : Option (List Node) := buildFrom [] [] l

/-- A text that is markup, as a forest. -/
def read (t : Text) : Option (List Node) := (tokens t).bind build

mutual

theorem buildFrom_flatten : ∀ (n : Node) (stack : Stack) (nodes : List Node) (l : List Token),
    buildFrom stack nodes (n.flatten ++ l) = buildFrom stack (nodes ++ [n]) l
  | .char c, stack, nodes, l => by rw [Node.flatten, List.singleton_append, buildFrom]
  | .element name attributes children, stack, nodes, l => by
    have hchildren := buildFrom_flattenAll children ((name, attributes, nodes) :: stack) [] (.stop name :: l)
    rw [Node.flatten, List.cons_append, buildFrom, List.append_assoc, List.singleton_append, hchildren, buildFrom,
      if_pos rfl, List.nil_append]
  | .empty name attributes, stack, nodes, l => by rw [Node.flatten, List.singleton_append, buildFrom]

theorem buildFrom_flattenAll : ∀ (ns : List Node) (stack : Stack) (nodes : List Node) (l : List Token),
    buildFrom stack nodes (flattenAll ns ++ l) = buildFrom stack (nodes ++ ns) l
  | [], stack, nodes, l => by rw [flattenAll, List.nil_append, List.append_nil]
  | n :: ns, stack, nodes, l => by
    rw [flattenAll, List.append_assoc, buildFrom_flatten n, buildFrom_flattenAll ns, List.append_assoc,
      List.singleton_append]

end

theorem flattenAll_append : ∀ ns ms : List Node, flattenAll (ns ++ ms) = flattenAll ns ++ flattenAll ms
  | [], ms => rfl
  | n :: ns, ms => by rw [List.cons_append, flattenAll, flattenAll, flattenAll_append ns ms, List.append_assoc]

/-- The tokens that are read already, when these elements are open. -/
def Stack.tokens : Stack → List Token
  | [] => []
  | (name, attributes, before) :: stack => Stack.tokens stack ++ flattenAll before ++ [.start name attributes]

theorem flattenAll_of_buildFrom : ∀ {l : List Token} {stack : Stack} {nodes out : List Node},
    buildFrom stack nodes l = some out → flattenAll out = stack.tokens ++ flattenAll nodes ++ l := by
  intro l
  induction l with
  | nil =>
    intro stack nodes out h
    cases stack with
    | nil =>
      obtain rfl := Option.some.inj h
      simp [Stack.tokens]
    | cons top stack => cases h
  | cons k l ih =>
    intro stack nodes out h
    cases k with
    | char c =>
      rw [ih h, flattenAll_append]
      simp [flattenAll, Node.flatten]
    | start name attributes =>
      rw [ih h]
      simp [Stack.tokens, flattenAll]
    | stop name =>
      cases stack with
      | nil => cases h
      | cons top stack =>
        obtain ⟨opened, attributes, before⟩ := top
        rw [buildFrom] at h
        by_cases hname : opened = name
        · rw [if_pos hname] at h
          rw [ih h, flattenAll_append]
          simp [Stack.tokens, flattenAll, Node.flatten, hname]
        · rw [if_neg hname] at h
          cases h
    | empty name attributes =>
      rw [ih h, flattenAll_append]
      simp [flattenAll, Node.flatten]

/-- **Tokens are those of one forest.** -/
theorem build_eq_iff {l : List Token} {ns : List Node} : build l = some ns ↔ flattenAll ns = l := by
  constructor
  · intro h
    simpa [Stack.tokens, flattenAll] using flattenAll_of_buildFrom h
  · rintro rfl
    have h := buildFrom_flattenAll ns [] [] []
    rwa [List.append_nil, List.nil_append] at h

theorem read_eq_iff {t : Text} {ns : List Node} : read t = some ns ↔ tokens t = some (flattenAll ns) := by
  unfold read
  rw [Option.bind_eq_some_iff]
  constructor
  · rintro ⟨l, hl, hbuild⟩
    rw [hl, build_eq_iff.mp hbuild]
  · intro h
    exact ⟨_, h, build_eq_iff.mpr rfl⟩

/-! ### Documents -/

/-- A forest as it is written: `escaped` is a text with references, `raw` one that stands as it is. -/
inductive Doc where
  | escaped (t : Text)
  | raw (t : Text)
  | element (name : Name) (attributes : List (Name × Text)) (children : List Doc)
  | empty (name : Name) (attributes : List (Name × Text))

mutual

def Doc.pieces : Doc → List Piece
  | .escaped t => t.map .escaped
  | .raw t => t.map .raw
  | .element name attributes children => .start name attributes :: (piecesAll children ++ [.stop name])
  | .empty name attributes => [.empty name attributes]

def piecesAll : List Doc → List Piece
  | [] => []
  | d :: ds => d.pieces ++ piecesAll ds

end

mutual

def Doc.nodes : Doc → List Node
  | .escaped t => t.map .char
  | .raw t => t.map .char
  | .element name attributes children => [.element name.text (attributesOf attributes) (nodesAll children)]
  | .empty name attributes => [.empty name.text (attributesOf attributes)]

/-- The forest. -/
def nodesAll : List Doc → List Node
  | [] => []
  | d :: ds => d.nodes ++ nodesAll ds

end

mutual

def Doc.raws : Doc → List Text
  | .raw t => [t]
  | .element _ _ children => rawsAll children
  | _ => []

/-- The texts that stand as they are. -/
def rawsAll : List Doc → List Text
  | [] => []
  | d :: ds => d.raws ++ rawsAll ds

end

/-- What is written. -/
def print (ds : List Doc) : Text := (piecesAll ds).flatMap Piece.text

theorem flattenAll_chars (t : Text) : flattenAll (t.map .char) = t.map .char := by
  induction t with
  | nil => rfl
  | cons c t ih => rw [List.map_cons, flattenAll, ih, Node.flatten, List.map_cons, List.singleton_append]

mutual

theorem pieces_token : ∀ d : Doc, d.pieces.map Piece.token = flattenAll d.nodes
  | .escaped t => by
    rw [Doc.pieces, Doc.nodes, flattenAll_chars, List.map_map]
    rfl
  | .raw t => by
    rw [Doc.pieces, Doc.nodes, flattenAll_chars, List.map_map]
    rfl
  | .element name attributes children => by
    rw [Doc.pieces, Doc.nodes, List.map_cons, List.map_append, piecesAll_token children]
    simp [flattenAll, Node.flatten, Piece.token]
  | .empty name attributes => rfl

theorem piecesAll_token : ∀ ds : List Doc, (piecesAll ds).map Piece.token = flattenAll (nodesAll ds)
  | [] => rfl
  | d :: ds => by rw [piecesAll, nodesAll, List.map_append, flattenAll_append, pieces_token d, piecesAll_token ds]

end

/-- A text that opens nothing. -/
def PlainText (t : Text) : Prop := ∀ c ∈ t, c ≠ unit '<' ∧ c ≠ unit '&'

mutual

theorem pieces_plain_iff : ∀ d : Doc, (∀ p ∈ d.pieces, p.Plain) ↔ ∀ t ∈ d.raws, PlainText t
  | .escaped t => by simp [Doc.pieces, Doc.raws, Piece.Plain]
  | .raw t => by simp [Doc.pieces, Doc.raws, Piece.Plain, PlainText]
  | .element name attributes children => by
    rw [Doc.raws, ← piecesAll_plain_iff children, Doc.pieces]
    simp [Piece.Plain, or_imp, forall_and]
  | .empty name attributes => by simp [Doc.pieces, Doc.raws, Piece.Plain]

theorem piecesAll_plain_iff : ∀ ds : List Doc, (∀ p ∈ piecesAll ds, p.Plain) ↔ ∀ t ∈ rawsAll ds, PlainText t
  | [] => by simp [piecesAll, rawsAll]
  | d :: ds => by
    rw [piecesAll, rawsAll, List.forall_mem_append, List.forall_mem_append, pieces_plain_iff d, piecesAll_plain_iff ds]

end

/-- **A document is read back** exactly when the texts that stand as they are open nothing. -/
theorem read_print_iff (ds : List Doc) : read (print ds) = some (nodesAll ds) ↔ ∀ t ∈ rawsAll ds, PlainText t := by
  rw [read_eq_iff, print, ← piecesAll_token, tokens_pieces_iff, piecesAll_plain_iff]

end Markup
