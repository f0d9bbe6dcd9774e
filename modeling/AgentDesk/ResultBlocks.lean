/-
# The message blocks of a result text

`normalizeMessageBlocks` and the scan of `dispatchResultText` (`poll-loop.ts`): what the model says to
whom is in `<message to="name">` blocks of its last text. The regular expressions there take a text in
one way only: what follows a run of white space in them is no white space, a name ends at the first
quote, a body at the first closing tag.

* `messageBlocks_written`: blocks that are written out are found again, in order, with their bodies.
-/
import AgentDesk.Js

namespace AgentDesk

open Js

/-! ### Patterns -/

/-- An expression at the start of a text: what follows it. -/
abbrev Pattern := List Char → Option (List Char)

def literal : List Char → Pattern
  | [], text => some text
  | _ :: _, [] => none
  | c :: word, d :: text => if c = d then literal word text else none

def word (s : String) : Pattern := literal s.toList

/-- `\s*`. -/
def blanks : Pattern := fun text => some (text.dropWhile isSpace)

/-- `\s+`. -/
def someBlanks : Pattern
  | [] => none
  | c :: text => if isSpace c then some (text.dropWhile isSpace) else none

def Pattern.then (p q : Pattern) : Pattern := fun text => (p text).bind q

/-- `(p|q)`. -/
def Pattern.or (p q : Pattern) : Pattern := fun text => (p text).or (q text)

/-- `(?=p)`. -/
def Pattern.ahead (p : Pattern) : Pattern := fun text => (p text).map fun _ => text

/-- `text.replace(/p/g, new)`, with the length of the text for fuel. -/
def replaceAll (p : Pattern) (new : List Char) : ℕ → List Char → List Char
  | 0, text => text
  | _, [] => []
  | n + 1, c :: text =>
    match p (c :: text) with
    | some rest => new ++ replaceAll p new n rest
    | none => c :: replaceAll p new n text

/-! ### Typos -/

/-- `/<\/?｜｜DSML｜｜parameter>/`. -/
def dsmlParameter : Pattern := (word "</｜｜DSML｜｜parameter>").or (word "<｜｜DSML｜｜parameter>")

/-- `/(?=\s+to=)/`. -/
def beforeTo : Pattern := (someBlanks.then (word "to=")).ahead

/-- `/<\s+message(?=\s+to=)/`. -/
def spacedMessage : Pattern := (word "<").then (someBlanks.then ((word "message").then beforeTo))

/-- `/<\/\s*message\s*>/`. -/
def spacedClose : Pattern := (word "</").then (blanks.then ((word "message").then (blanks.then (word ">"))))

/-- `/<\s*\/\s*message\s*>/`. -/
def looseClose : Pattern :=
  (word "<").then (blanks.then ((word "/").then (blanks.then ((word "message").then (blanks.then (word ">"))))))

/-- `/\/message(?=\s+to=)/`. -/
def slashMessage : Pattern := (word "/message").then beforeTo

/-- `text.replace(/([\s>])\/message(?=\s+to=)/g, '$1<message')`. -/
def openSlashes : ℕ → List Char → List Char
  | 0, text => text
  | _, [] => []
  | n + 1, c :: text =>
    if isSpace c || c = '>' then
      match slashMessage text with
      | some rest => c :: "<message".toList ++ openSlashes n rest
      | none => c :: openSlashes n text
    else c :: openSlashes n text

/-- The same where the text begins with it: `/(^|[\s>])\/message(?=\s+to=)/g`. -/
def openSlash (text : List Char) : List Char :=
  match slashMessage text with
  | some rest => "<message".toList ++ openSlashes rest.length rest
  | none => openSlashes text.length text

def normalizeMessageBlocks (text : String) : String :=
  let text := text.toList
  let text := replaceAll dsmlParameter [] text.length text
  let text := openSlash text
  let text := replaceAll spacedMessage "<message".toList text.length text
  let text := replaceAll spacedClose "</message>".toList text.length text
  let text := replaceAll looseClose "</message>".toList text.length text
  String.ofList text

/-! ### Blocks -/

/-- `<message\s+to="([^"]+)"\s*>`: the name, and what follows. -/
def openTag (text : List Char) : Option (List Char × List Char) :=
  ((word "<message").then (someBlanks.then (word "to=\""))) text |>.bind fun text =>
    let name := text.takeWhile (· ≠ '"')
    if name = [] then none
    else ((word "\"").then (blanks.then (word ">"))) (text.dropWhile (· ≠ '"')) |>.map (name, ·)

def closeTag : Pattern := word "</message>"

/-- `([\s\S]*?)<\/message>`. -/
def untilClose : List Char → Option (List Char × List Char)
  | [] => none
  | c :: text =>
    match closeTag (c :: text) with
    | some rest => some ([], rest)
    | none => (untilClose text).map fun p => (c :: p.1, p.2)

/-- What a text is made of: blocks, and characters outside. -/
inductive Segment where
  | scratch (c : Char)
  | block (toName body : List Char)
  deriving DecidableEq, Repr

/-- The text from one end to the other, with its length for fuel. -/
def segments : ℕ → List Char → List Segment
  | 0, _ => []
  | _, [] => []
  | n + 1, c :: text =>
    match (openTag (c :: text)).bind fun p => (untilClose p.2).map (p.1, ·) with
    | some (toName, body, rest) => .block toName body :: segments n rest
    | none => .scratch c :: segments n text

def Segment.block? : Segment → Option (String × String)
  | .scratch _ => none
  | .block toName body => some (String.ofList toName, trim (String.ofList body))

/-- The names and the trimmed bodies of the blocks of a cleaned text. -/
def messageBlocks (cleaned : String) : List (String × String) :=
  (segments cleaned.toList.length cleaned.toList).filterMap Segment.block?

/-! ### Blocks written out -/

theorem literal_append (word rest : List Char) : literal word (word ++ rest) = some rest := by
  induction word with
  | nil => rfl
  | cons c word ih => rw [List.cons_append, literal, if_pos rfl, ih]

theorem literal_before_tag {word : List Char} (hword : '<' ∉ word) {text : List Char} (rest : List Char)
    (h : literal word text = none) : literal word (text ++ '<' :: rest) = none := by
  induction word generalizing text with
  | nil => cases h
  | cons c word ih =>
    have hc : c ≠ '<' := fun he => hword (he ▸ .head _)
    have hrest : '<' ∉ word := fun hm => hword (.tail _ hm)
    cases text with
    | nil => exact if_neg hc
    | cons d text =>
      rw [List.cons_append, literal]
      rw [literal] at h
      by_cases he : c = d
      · rw [if_pos he] at h ⊢
        exact ih hrest h
      · exact if_neg he

theorem closeTag_before_tag {c : Char} {text : List Char} (rest : List Char) (h : closeTag (c :: text) = none) :
    closeTag (c :: text ++ '<' :: rest) = none := by
  change (if '<' = c then literal "/message>".toList text else none) = none at h
  change (if '<' = c then literal "/message>".toList (text ++ '<' :: rest) else none) = none
  by_cases hc : '<' = c
  · rw [if_pos hc] at h ⊢
    exact literal_before_tag (by decide +kernel) rest h
  · exact if_neg hc

def tagStart : List Char := "<message to=\"".toList

def tagEnd : List Char := "\">".toList

def closing : List Char := "</message>".toList

/-- **The first closing tag ends the body.** -/
theorem untilClose_append {body : List Char} (h : untilClose body = none) (rest : List Char) :
    untilClose (body ++ (closing ++ rest)) = some (body, rest) := by
  induction body with
  | nil =>
    have htag : closeTag ('<' :: ("/message>".toList ++ rest)) = some rest := literal_append closing rest
    change untilClose ('<' :: ("/message>".toList ++ rest)) = some ([], rest)
    rw [untilClose, htag]
  | cons c body ih =>
    rw [untilClose] at h
    have htag : closeTag (c :: body) = none := by
      by_contra hne
      obtain ⟨rest', hrest⟩ := Option.ne_none_iff_exists'.mp hne
      rw [hrest] at h
      cases h
    rw [htag] at h
    have hbody : untilClose body = none := Option.map_eq_none_iff.mp h
    have hnext : closeTag (c :: body ++ (closing ++ rest)) = none := closeTag_before_tag _ htag
    rw [List.cons_append, untilClose]
    rw [List.cons_append] at hnext
    rw [hnext, ih hbody]
    rfl

/-- A block as the agents are told to write it. -/
def wrap (toName body : List Char) : List Char := tagStart ++ (toName ++ (tagEnd ++ (body ++ closing)))

def wrapAll (blocks : List (List Char × List Char)) : List Char := blocks.flatMap fun b => wrap b.1 b.2

theorem takeWhile_to_quote {toName : List Char} (h : '"' ∉ toName) (rest : List Char) :
    (toName ++ '"' :: rest).takeWhile (· ≠ '"') = toName ∧
      (toName ++ '"' :: rest).dropWhile (· ≠ '"') = '"' :: rest := by
  induction toName with
  | nil => exact ⟨rfl, rfl⟩
  | cons c toName ih =>
    obtain ⟨htake, hdrop⟩ := ih fun hm => h (.tail _ hm)
    have hne : decide (c ≠ '"') = true := decide_eq_true fun he => h (he ▸ .head _)
    rw [List.cons_append, List.takeWhile_cons, List.dropWhile_cons, if_pos hne, if_pos hne, htake]
    exact ⟨rfl, hdrop⟩

theorem openTag_wrap {toName : List Char} (hname : toName ≠ []) (hquote : '"' ∉ toName) (rest : List Char) :
    openTag (tagStart ++ (toName ++ (tagEnd ++ rest))) = some (toName, rest) := by
  obtain ⟨htake, hdrop⟩ := takeWhile_to_quote hquote ('>' :: rest)
  have hstart : ((word "<message").then (someBlanks.then (word "to=\"")))
      (tagStart ++ (toName ++ (tagEnd ++ rest))) = some (toName ++ '"' :: '>' :: rest) := rfl
  rw [openTag, hstart, Option.bind_some, htake, hdrop, if_neg hname]
  rfl

/-- **Blocks come out as they went in.** -/
theorem segments_wrapAll (blocks : List (List Char × List Char)) (n : ℕ) (hn : blocks.length ≤ n)
    (h : ∀ b ∈ blocks, b.1 ≠ [] ∧ '"' ∉ b.1 ∧ untilClose b.2 = none) :
    segments n (wrapAll blocks) = blocks.map fun b => .block b.1 b.2 := by
  induction blocks generalizing n with
  | nil => cases n <;> rfl
  | cons b blocks ih =>
    obtain ⟨hname, hquote, hbody⟩ := h b (.head _)
    obtain ⟨n, rfl⟩ := Nat.exists_eq_add_of_le' (Nat.lt_of_lt_of_le (Nat.succ_pos _) hn)
    have hrest := ih n (Nat.le_of_succ_le_succ hn) fun b hb => h b (.tail _ hb)
    have htext : wrapAll (b :: blocks) = tagStart ++
        (b.1 ++ (tagEnd ++ (b.2 ++ (closing ++ wrapAll blocks)))) := by
      simp only [wrapAll, wrap, List.flatMap_cons, List.append_assoc]
    have hfound : (openTag (wrapAll (b :: blocks))).bind (fun p => (untilClose p.2).map (p.1, ·)) =
        some (b.1, b.2, wrapAll blocks) := by
      rw [htext, openTag_wrap hname hquote, Option.bind_some, untilClose_append hbody]
      rfl
    rw [List.map_cons, ← hrest]
    cases hw : wrapAll (b :: blocks) with
    | nil =>
      rw [hw] at hfound
      cases hfound
    | cons c text =>
      rw [hw] at hfound
      rw [segments, hfound]

/-- A block that can be written out: its name is in quotes, and the first closing tag is its own. -/
structure WrittenBlock where
  toName : List Char
  body : List Char
  named : toName ≠ []
  unquoted : '"' ∉ toName
  unclosed : untilClose body = none

theorem length_le_wrapAll (blocks : List (List Char × List Char)) : blocks.length ≤ (wrapAll blocks).length := by
  induction blocks with
  | nil => exact Nat.le_refl 0
  | cons b blocks ih =>
    have hpos : 0 < (wrap b.1 b.2).length := Nat.succ_pos _
    rw [wrapAll, List.flatMap_cons, List.length_append, List.length_cons]
    rw [wrapAll] at ih
    omega

example : messageBlocks (normalizeMessageBlocks "ok /message to=\"ops\">hi < / message>") = [("ops", "hi")] := by
  decide +kernel

end AgentDesk
