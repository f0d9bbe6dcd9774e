/-
# JSON texts of JavaScript

`JSON.parse` and `JSON.stringify` of ECMAScript, on texts of UTF-16 code units.
`JSON.parse` is taken in two steps. `read` is the grammar: a machine that takes
the text unit by unit gives the syntax tree, with the numbers as decimals and the
members of an object as they stand, repeated names included. `Json.eval` is the
value: numbers are binary64, a repeated name keeps its last value, and the names
of an object are in property order (array indices in ascending order, then the
others in the order of their first appearance). Resource limits are left out.

Key definitions: `JsonText.Json`, `JsonText.Machine`, `JsonText.read`, `Json.eval`,
`JsonText.parse`, `JsonText.stringify`.
-/
import Mathlib.Data.Nat.Digits.Defs
import AgentDesk.Binary64

namespace JsonText

open Binary64

/-- UTF-16 code units. -/
abbrev Text := List UInt16

instance instLawfulBEqText : LawfulBEq Text := inferInstance

/-- The code units of a character. -/
def utf16 (c : Char) : Text :=
  if c.toNat < 0x10000 then [UInt16.ofNat c.toNat]
  else [UInt16.ofNat (0xd800 + (c.toNat - 0x10000) / 0x400), UInt16.ofNat (0xdc00 + (c.toNat - 0x10000) % 0x400)]

def ofString (s : String) : Text := s.toList.flatMap utf16

theorem scalar (c : Char) : c.toNat < 0xd800 ∨ (0xdfff < c.toNat ∧ c.toNat < 0x110000) := c.valid

theorem unit_inj {m n : ℕ} (hm : m < 0x10000) (hn : n < 0x10000) (h : UInt16.ofNat m = UInt16.ofNat n) : m = n := by
  have h' := congrArg UInt16.toNat h
  rw [UInt16.toNat_ofNat_of_lt' hm, UInt16.toNat_ofNat_of_lt' hn] at h'
  exact h'

theorem utf16_append_inj {c d : Char} {t u : Text} (h : utf16 c ++ t = utf16 d ++ u) : c = d ∧ t = u := by
  have hc := scalar c
  have hd := scalar d
  rw [utf16, utf16] at h
  split at h <;> split at h
  · obtain ⟨hunit, hrest⟩ := List.cons.inj h
    have hn := unit_inj (by omega) (by omega) hunit
    exact ⟨Char.toNat_inj.mp hn, hrest⟩
  · obtain ⟨hunit, -⟩ := List.cons.inj h
    have hn := unit_inj (by omega) (by omega) hunit
    omega
  · obtain ⟨hunit, -⟩ := List.cons.inj h
    have hn := unit_inj (by omega) (by omega) hunit
    omega
  · obtain ⟨hlead, hmore⟩ := List.cons.inj h
    obtain ⟨htrail, hrest⟩ := List.cons.inj hmore
    have hn := unit_inj (by omega) (by omega) hlead
    have hn' := unit_inj (by omega) (by omega) htrail
    exact ⟨Char.toNat_inj.mp (by omega), hrest⟩

theorem utf16_ne_nil (c : Char) : utf16 c ≠ [] := by
  unfold utf16
  split <;> exact List.cons_ne_nil _ _

theorem flatMap_utf16_inj : ∀ {l m : List Char}, l.flatMap utf16 = m.flatMap utf16 → l = m
  | [], [], _ => rfl
  | [], d :: _, h => absurd (List.append_eq_nil_iff.mp h.symm).1 (utf16_ne_nil d)
  | c :: _, [], h => absurd (List.append_eq_nil_iff.mp h).1 (utf16_ne_nil c)
  | c :: l, d :: m, h => by
    rw [List.flatMap_cons, List.flatMap_cons] at h
    obtain ⟨rfl, hrest⟩ := utf16_append_inj h
    rw [flatMap_utf16_inj hrest]

theorem ofString_inj {s t : String} (h : ofString s = ofString t) : s = t :=
  String.toList_inj.mp (flatMap_utf16_inj h)

/-- The first half of a pair. -/
def isLead (c : UInt16) : Bool := 0xd800 ≤ c && c ≤ 0xdbff

/-- The second half. -/
def isTrail (c : UInt16) : Bool := 0xdc00 ≤ c && c ≤ 0xdfff

/-- The UTF-8 of a unit that is no half of a pair; of a half alone, that of U+FFFD. -/
def utf8Unit (c : UInt16) : List ℕ :=
  let n := c.toNat
  if n < 0x80 then [n]
  else if n < 0x800 then [0xc0 + n / 0x40, 0x80 + n % 0x40]
  else if isLead c || isTrail c then [0xef, 0xbf, 0xbd]
  else [0xe0 + n / 0x1000, 0x80 + n / 0x40 % 0x40, 0x80 + n % 0x40]

/-- The bytes a text is encoded as. -/
def utf8 : Text → List ℕ
  | [] => []
  | [c] => utf8Unit c
  | c :: d :: rest =>
    if isLead c && isTrail d then
      let n := 0x10000 + (c.toNat - 0xd800) * 0x400 + (d.toNat - 0xdc00)
      [0xf0 + n / 0x40000, 0x80 + n / 0x1000 % 0x40, 0x80 + n / 0x40 % 0x40, 0x80 + n % 0x40] ++ utf8 rest
    else utf8Unit c ++ utf8 (d :: rest)

/-- JSON, with the numbers in `ν`. -/
inductive Json (ν : Type) where
  | null
  | bool (b : Bool)
  | num (x : ν)
  | str (s : Text)
  | arr (l : List (Json ν))
  | obj (fields : List (Text × Json ν))

/-- The syntax tree of a text. -/
abbrev Tree := Json Decimal

/-- What JavaScript has for it. -/
abbrev Value := Json Double

/-- The unit of an ASCII character. -/
def unit (c : Char) : UInt16 := UInt16.ofNat c.toNat

/-! ### Number literals -/

/-- The value of a decimal digit. -/
def digit? (c : UInt16) : Option ℕ := if unit '0' ≤ c ∧ c ≤ unit '9' then some (c.toNat - 48) else none

/-- What the literal has come to; `mark` is after the `e`. -/
inductive NumPhase where
  | minus | zero | int | point | frac | mark | sign | exp
  deriving DecidableEq, Repr

/-- A literal so far: its digits without the point, how many stand after the point, and the exponent. -/
structure NumState where
  phase : NumPhase
  neg : Bool
  digits : ℕ
  scale : ℕ
  expNeg : Bool
  exp : ℕ
  deriving DecidableEq, Repr

def NumState.decimal (s : NumState) : Decimal :=
  ⟨s.neg, s.digits, (if s.expNeg then -(s.exp : ℤ) else s.exp) - s.scale⟩

/-- The literal may end here. -/
def NumState.accepting (s : NumState) : Bool :=
  s.phase = .zero || s.phase = .int || s.phase = .frac || s.phase = .exp

def NumState.digit (s : NumState) (d : ℕ) : NumState := { s with digits := 10 * s.digits + d }

def NumState.fracDigit (s : NumState) (d : ℕ) : NumState :=
  { s with phase := .frac, digits := 10 * s.digits + d, scale := s.scale + 1 }

def NumState.expDigit (s : NumState) (d : ℕ) : NumState := { s with phase := .exp, exp := 10 * s.exp + d }

def NumState.afterFrac (s : NumState) (c : UInt16) : Option NumState :=
  if c = unit 'e' ∨ c = unit 'E' then some { s with phase := .mark } else none

def NumState.afterInt (s : NumState) (c : UInt16) : Option NumState :=
  if c = unit '.' then some { s with phase := .point } else s.afterFrac c

/-- The literal with one more unit; `none` where the unit is not part of it. -/
def NumState.step (s : NumState) (c : UInt16) : Option NumState :=
  match s.phase with
  | .minus => (digit? c).map fun d => { s with phase := if d = 0 then .zero else .int, digits := d }
  | .zero => s.afterInt c
  | .int => match digit? c with
    | some d => some (s.digit d)
    | none => s.afterInt c
  | .point => (digit? c).map s.fracDigit
  | .frac => match digit? c with
    | some d => some (s.fracDigit d)
    | none => s.afterFrac c
  | .mark =>
    if c = unit '+' then some { s with phase := .sign }
    else if c = unit '-' then some { s with phase := .sign, expNeg := true }
    else (digit? c).map s.expDigit
  | .sign | .exp => (digit? c).map s.expDigit

/-- A literal that begins with the unit. -/
def NumState.begin (c : UInt16) : Option NumState :=
  if c = unit '-' then some ⟨.minus, true, 0, 0, false, 0⟩
  else NumState.step ⟨.minus, false, 0, 0, false, 0⟩ c

/-! ### The machine -/

/-- Where the text is in a token. A string is kept with its last unit first. -/
inductive Lex where
  | start
  | word (rest : Text) (v : Tree)
  | str (acc : Text)
  | escape (acc : Text)
  | hex (acc : Text) (left : ℕ) (value : ℕ)
  | num (s : NumState)

/-- What may come next between tokens. -/
inductive Want where
  | value
  /-- After `[`: a value or `]`. -/
  | element
  | key
  /-- After `{`: a name or `}`. -/
  | member
  | colon
  /-- After an element or a member: a comma or the end. -/
  | more
  | done (v : Tree)

/-- What is open, with what it has so far, the last first. -/
inductive Frame where
  | arr (elements : List Tree)
  | obj (fields : List (Text × Tree))
  /-- A member whose value is to come. -/
  | member (fields : List (Text × Tree)) (key : Text)

structure Machine where
  lex : Lex
  want : Want
  stack : List Frame

def Machine.init : Machine := ⟨.start, .value, []⟩

/-- A value is complete. -/
def Machine.complete (stack : List Frame) (v : Tree) : Option Machine :=
  match stack with
  | [] => some ⟨.start, .done v, []⟩
  | .arr elements :: stack => some ⟨.start, .more, .arr (v :: elements) :: stack⟩
  | .member fields key :: stack => some ⟨.start, .more, .obj ((key, v) :: fields) :: stack⟩
  | .obj _ :: _ => none

/-- A value where one may stand. -/
def Machine.value (m : Machine) (v : Tree) : Option Machine :=
  match m.want with
  | .value | .element => Machine.complete m.stack v
  | _ => none

/-- A string: a name, or a value. -/
def Machine.string (m : Machine) (s : Text) : Option Machine :=
  match m.want, m.stack with
  | .key, .obj fields :: stack | .member, .obj fields :: stack =>
    some ⟨.start, .colon, .member fields s :: stack⟩
  | _, _ => m.value (.str s)

def Machine.enter (m : Machine) (frame : Frame) (want : Want) : Option Machine :=
  match m.want with
  | .value | .element => some ⟨.start, want, frame :: m.stack⟩
  | _ => none

def Machine.closeArr (m : Machine) : Option Machine :=
  match m.want, m.stack with
  | .element, .arr elements :: stack | .more, .arr elements :: stack =>
    Machine.complete stack (.arr elements.reverse)
  | _, _ => none

def Machine.closeObj (m : Machine) : Option Machine :=
  match m.want, m.stack with
  | .member, .obj fields :: stack | .more, .obj fields :: stack =>
    Machine.complete stack (.obj fields.reverse)
  | _, _ => none

def Machine.comma (m : Machine) : Option Machine :=
  match m.want, m.stack with
  | .more, .arr _ :: _ => some { m with want := .value }
  | .more, .obj _ :: _ => some { m with want := .key }
  | _, _ => none

def Machine.colon (m : Machine) : Option Machine :=
  match m.want with
  | .colon => some { m with want := .value }
  | _ => none

def isSpace (c : UInt16) : Bool := c = 0x20 || c = 0x09 || c = 0x0a || c = 0x0d

/-- A unit between tokens. -/
def Machine.token (m : Machine) (c : UInt16) : Option Machine :=
  if isSpace c then some m
  else if c = unit '"' then some { m with lex := .str [] }
  else if c = unit '[' then m.enter (.arr []) .element
  else if c = unit '{' then m.enter (.obj []) .member
  else if c = unit ']' then m.closeArr
  else if c = unit '}' then m.closeObj
  else if c = unit ',' then m.comma
  else if c = unit ':' then m.colon
  else if c = unit 't' then some { m with lex := .word ("rue".toList.map unit) (.bool true) }
  else if c = unit 'f' then some { m with lex := .word ("alse".toList.map unit) (.bool false) }
  else if c = unit 'n' then some { m with lex := .word ("ull".toList.map unit) .null }
  else (NumState.begin c).map fun s => { m with lex := .num s }

/-- A pending literal ends, where it may. -/
def Machine.settle (m : Machine) : Option Machine :=
  match m.lex with
  | .num s => if s.accepting then m.value (.num s.decimal) else none
  | _ => some m

def hexDigit? (c : UInt16) : Option ℕ :=
  if unit '0' ≤ c ∧ c ≤ unit '9' then some (c.toNat - 48)
  else if unit 'a' ≤ c ∧ c ≤ unit 'f' then some (c.toNat - 87)
  else if unit 'A' ≤ c ∧ c ≤ unit 'F' then some (c.toNat - 55)
  else none

/-- The unit that a backslash and this one stand for. -/
def escaped? (c : UInt16) : Option UInt16 :=
  if c = unit '"' ∨ c = unit '\\' ∨ c = unit '/' then some c
  else if c = unit 'b' then some 0x08
  else if c = unit 'f' then some 0x0c
  else if c = unit 'n' then some 0x0a
  else if c = unit 'r' then some 0x0d
  else if c = unit 't' then some 0x09
  else none

def Machine.step (m : Machine) (c : UInt16) : Option Machine :=
  match m.lex with
  | .start => m.token c
  | .word rest v => match rest with
    | [] => none
    | [w] => if c = w then Machine.value m v else none
    | w :: ws => if c = w then some { m with lex := .word ws v } else none
  | .str acc =>
    if c = unit '"' then m.string acc.reverse
    else if c = unit '\\' then some { m with lex := .escape acc }
    else if c < 0x20 then none
    else some { m with lex := .str (c :: acc) }
  | .escape acc =>
    if c = unit 'u' then some { m with lex := .hex acc 3 0 }
    else (escaped? c).map fun e => { m with lex := .str (e :: acc) }
  | .hex acc left value => (hexDigit? c).map fun d => match left with
    | 0 => { m with lex := .str (UInt16.ofNat (16 * value + d) :: acc) }
    | left + 1 => { m with lex := .hex acc left (16 * value + d) }
  | .num s => match s.step c with
    | some s => some { m with lex := .num s }
    | none => m.settle.bind fun m => m.token c

def Machine.run (m : Machine) : Text → Option Machine
  | [] => some m
  | c :: cs => (m.step c).bind fun m => m.run cs

/-- The value, when the text ends here. -/
def Machine.result (m : Machine) : Option Tree :=
  m.settle.bind fun m => match m.lex, m.want with
    | .start, .done v => some v
    | _, _ => none

/-- The syntax tree of a text, when it is a JSON text. -/
def read (text : Text) : Option Tree := (Machine.init.run text).bind Machine.result

/-! ### The value of a tree -/

def digitUnit (d : ℕ) : UInt16 := UInt16.ofNat (48 + d)

/-- The digits, the most significant first. -/
def decimalDigits (n : ℕ) : List ℕ := if n = 0 then [0] else (Nat.digits 10 n).reverse

def decimalText (n : ℕ) : Text := (decimalDigits n).map digitUnit

/-- The number a name would be, were it one. -/
def numeral (key : Text) : ℕ := key.foldl (fun n c => 10 * n + (c.toNat - 48)) 0

/-- A name that is an array index. -/
def arrayIndex (key : Text) : Option ℕ :=
  let n := numeral key
  if key = decimalText n ∧ n < 4294967295 then some n else none

/-- `a` comes before a later `b` in the order of an object's properties. -/
def before (a b : Text) : Bool :=
  match arrayIndex a, arrayIndex b with
  | some i, some j => i < j
  | some _, none => true
  | none, some _ => false
  | none, none => true

/-- `CreateDataProperty`. -/
def insertField {α : Type} (fields : List (Text × α)) (key : Text) (v : α) : List (Text × α) :=
  if fields.any fun f => f.1 = key then fields.map fun f => if f.1 = key then (key, v) else f
  else fields.takeWhile (fun f => before f.1 key) ++ (key, v) :: fields.dropWhile (fun f => before f.1 key)

mutual

def Json.eval : Tree → Value
  | .null => .null
  | .bool b => .bool b
  | .num c => .num (.ofDecimal c)
  | .str s => .str s
  | .arr l => .arr (evalList l)
  | .obj fields => .obj (evalFields [] fields)

def evalList : List Tree → List Value
  | [] => []
  | t :: l => t.eval :: evalList l

/-- The members in turn, added to those before. -/
def evalFields (acc : List (Text × Value)) : List (Text × Tree) → List (Text × Value)
  | [] => acc
  | (key, t) :: fields => evalFields (insertField acc key t.eval) fields

end

/-- `JSON.parse`; `none` where it throws. -/
def parse (text : Text) : Option Value := (read text).map Json.eval

/-! ### Writing -/

def hexUnit (d : ℕ) : UInt16 := UInt16.ofNat (if d < 10 then 48 + d else 87 + d)

/-- `\u` and four hexadecimal digits. -/
def hexEscape (c : UInt16) : Text :=
  [unit '\\', unit 'u', hexUnit (c.toNat / 4096), hexUnit (c.toNat / 256 % 16), hexUnit (c.toNat / 16 % 16),
    hexUnit (c.toNat % 16)]

/-- A unit that is not half of a pair. -/
def escapeUnit (c : UInt16) : Text :=
  if c = unit '"' ∨ c = unit '\\' then [unit '\\', c]
  else if c = 0x08 then [unit '\\', unit 'b']
  else if c = 0x09 then [unit '\\', unit 't']
  else if c = 0x0a then [unit '\\', unit 'n']
  else if c = 0x0c then [unit '\\', unit 'f']
  else if c = 0x0d then [unit '\\', unit 'r']
  else if c < 0x20 || isLead c || isTrail c then hexEscape c
  else [c]

/-- Surrogates stay where they are a pair. -/
def escapeText : Text → Text
  | [] => []
  | [c] => escapeUnit c
  | c :: d :: rest =>
    if isLead c && isTrail d then c :: d :: escapeText rest else escapeUnit c ++ escapeText (d :: rest)

def quote (s : Text) : Text := unit '"' :: (escapeText s ++ [unit '"'])

/-- `Number::toString` of a positive number with these digits. -/
def magnitudeText (c : Decimal) : Text :=
  let ds := decimalText c.digits
  let k := ds.length
  let n := k + c.exponent
  if k ≤ n ∧ n ≤ 21 then ds ++ List.replicate (n - k).toNat (unit '0')
  else if 0 < n ∧ n ≤ 21 then ds.take n.toNat ++ unit '.' :: ds.drop n.toNat
  else if -6 < n ∧ n ≤ 0 then unit '0' :: unit '.' :: (List.replicate (-n).toNat (unit '0') ++ ds)
  else
    let fraction := if k = 1 then [] else unit '.' :: ds.drop 1
    let sign := if n - 1 < 0 then unit '-' else unit '+'
    ds.take 1 ++ fraction ++ unit 'e' :: sign :: decimalText (n - 1).natAbs

/-- A number in a JSON text: both zeros are `0`, an infinity is `null`. -/
def numberText : Double → Text
  | .infinity _ => "null".toList.map unit
  | .finite neg n _ =>
    if n = 0 then [unit '0']
    else (if neg then [unit '-'] else []) ++ magnitudeText (shortest n)

mutual

/-- `JSON.stringify`. -/
def stringify : Value → Text
  | .null => "null".toList.map unit
  | .bool true => "true".toList.map unit
  | .bool false => "false".toList.map unit
  | .num x => numberText x
  | .str s => quote s
  | .arr [] => [unit '[', unit ']']
  | .arr (v :: l) => unit '[' :: (stringify v ++ (elementsText l ++ [unit ']']))
  | .obj [] => [unit '{', unit '}']
  | .obj ((key, v) :: fields) =>
    unit '{' :: (quote key ++ unit ':' :: (stringify v ++ (membersText fields ++ [unit '}'])))

/-- Further elements. -/
def elementsText : List Value → Text
  | [] => []
  | v :: l => unit ',' :: (stringify v ++ elementsText l)

/-- Further members. -/
def membersText : List (Text × Value) → Text
  | [] => []
  | (key, v) :: fields => unit ',' :: (quote key ++ unit ':' :: (stringify v ++ membersText fields))

end

-- a repeated name, an index, an infinity, an escape
example : (parse (ofString "\x7b\"a\":1, \"b\":-0, \"a\":[1e400, \"\\u0041\"], \"7\":true\x7d")).map stringify =
    some (ofString "\x7b\"7\":true,\"a\":[null,\"A\"],\"b\":0\x7d") := by decide +kernel

example : (parse (ofString "[1,]")).map stringify = none := by decide +kernel

end JsonText
