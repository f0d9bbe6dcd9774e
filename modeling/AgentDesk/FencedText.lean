/-
# Quoted JSON between fences

A text that a program shows is put together of prose and of JSON texts, each between two fence lines. What
another party has written stands only in the JSON, and a reader finds the blocks by their fences. The text may be
rewritten on the way: escapes that are spelled out become line breaks.

* `replaceAll_of_no_match`: a text in which nothing matches is left as it is.
* `Settled.no_escape`: texts with no escape of a line break; they may be put together (`Settled.append`).
* `pretty_of_pieces`: **what holds of the pieces of a JSON text** and of what is put together of such pieces holds
  of the text.
* `fencedBlocks_quoted`: **the blocks of a text are its quotes**, when no other line is a fence.
-/
import AgentDesk.JsonPretty
import Mathlib.Data.List.Infix

namespace JsonText

/-! ### Replacing -/

/-- `text.replace(/p|q|…/g, replacement)`: from the left, at each place the first of the patterns that matches. The
number is how much of a match is still to be passed over. -/
def replaceAll (patterns : List Text) (replacement : Text) : ℕ → Text → Text
  | _, [] => []
  | skip + 1, _ :: cs => replaceAll patterns replacement skip cs
  | 0, c :: cs =>
    match patterns.find? fun p => p.isPrefixOf (c :: cs) with
    | some p => replacement ++ replaceAll patterns replacement (p.length - 1) cs
    | none => c :: replaceAll patterns replacement 0 cs

/-- **Nothing is replaced** where nothing matches. -/
theorem replaceAll_of_no_match {patterns : List Text} {replacement t : Text} (h : ∀ p ∈ patterns, ¬ p <:+: t) :
    replaceAll patterns replacement 0 t = t := by
  induction t with
  | nil => rfl
  | cons c cs ih =>
    have hnone : (patterns.find? fun p => p.isPrefixOf (c :: cs)) = none := by
      refine List.find?_eq_none.mpr fun p hp hstart => ?_
      exact h p hp (List.isPrefixOf_iff_prefix.mp hstart).isInfix
    have hrest : ∀ p ∈ patterns, ¬ p <:+: cs := fun p hp hwithin =>
      h p hp (hwithin.trans (List.suffix_cons c cs).isInfix)
    rw [replaceAll, hnone]
    dsimp only
    rw [ih hrest]

/-! ### Escapes of line breaks -/

/-- No carriage return, and after a backslash neither an `n` nor an `r` nor another backslash. -/
inductive Settled : Text → Prop
  | nil : Settled []
  | plain {c : UInt16} {t : Text} (hslash : c ≠ unit '\\') (hreturn : c ≠ 0x0d) (h : Settled t) : Settled (c :: t)
  | escape {c : UInt16} {t : Text} (hc : c ∉ [0x0d, unit '\\', unit 'n', unit 'r']) (h : Settled t) :
    Settled (unit '\\' :: c :: t)

theorem Settled.append {t u : Text} (ht : Settled t) (hu : Settled u) : Settled (t ++ u) := by
  induction ht with
  | nil => exact hu
  | plain hslash hreturn _ ih => exact .plain hslash hreturn ih
  | escape hc _ ih => exact .escape hc ih

theorem settled_of_units {t : Text} (h : ∀ c ∈ t, c ≠ unit '\\' ∧ c ≠ 0x0d) : Settled t := by
  induction t with
  | nil => exact .nil
  | cons c cs ih =>
    obtain ⟨⟨hslash, hreturn⟩, hrest⟩ := List.forall_mem_cons.mp h
    exact .plain hslash hreturn (ih hrest)

theorem Settled.no_return {t : Text} (h : Settled t) : 0x0d ∉ t := by
  induction h with
  | nil => exact List.not_mem_nil
  | plain _ hreturn _ ih =>
    intro hmem
    rcases List.mem_cons.mp hmem with heq | hmem
    · exact hreturn heq.symm
    · exact ih hmem
  | @escape c t hc _ ih =>
    intro hmem
    rcases List.mem_cons.mp hmem with heq | hmem
    · exact absurd heq (by decide)
    · rcases List.mem_cons.mp hmem with rfl | hmem
      · exact hc List.mem_cons_self
      · exact ih hmem

/-- No escape of a line break stands in a settled text. -/
theorem Settled.no_escape {t : Text} (h : Settled t) {c : UInt16} (hc : c ∈ [unit 'n', unit 'r']) :
    ¬ [unit '\\', c] <:+: t := by
  have hslash : c ≠ unit '\\' := by
    rintro rfl
    exact absurd hc (by decide)
  induction h with
  | nil => exact fun h => absurd h.length_le (by simp)
  | plain hne _ _ ih =>
    intro hwithin
    rcases List.infix_cons_iff.mp hwithin with hstart | hwithin
    · exact hne (List.cons_prefix_cons.mp hstart).1.symm
    · exact ih hwithin
  | @escape d t hd _ ih =>
    intro hwithin
    rcases List.infix_cons_iff.mp hwithin with hstart | hwithin
    · -- the unit after the backslash is no escape of a line break
      have hrest := (List.cons_prefix_cons.mp hstart).2
      obtain rfl := (List.cons_prefix_cons.mp hrest).1
      exact hd (List.mem_cons_of_mem _ (List.mem_cons_of_mem _ hc))
    · rcases List.infix_cons_iff.mp hwithin with hstart | hwithin
      · have heq := (List.cons_prefix_cons.mp hstart).1
        exact hd (List.mem_cons_of_mem _ (heq ▸ List.mem_cons_self))
      · exact ih hwithin

/-! ### Characters -/

/-- `[...text]`: a pair of halves is one character. -/
def characters : Text → List Text
  | [] => []
  | [c] => [[c]]
  | c :: d :: rest => if isLead c && isTrail d then [c, d] :: characters rest else [c] :: characters (d :: rest)

/-- `text.codePointAt(0)` of a character. -/
def codePoint : Text → ℕ
  | [c, d] => 0x10000 + (c.toNat - 0xd800) * 0x400 + (d.toNat - 0xdc00)
  | c :: _ => c.toNat
  | [] => 0

theorem unit_mem_characters : ∀ (t : Text) {c : UInt16}, c ∈ t → isLead c = false → isTrail c = false →
    [c] ∈ characters t
  | [], _, h, _, _ => (nomatch h)
  | [d], c, h, _, _ => by
    obtain rfl := List.mem_singleton.mp h
    exact List.mem_cons_self
  | d :: e :: rest, c, h, hlead, htrail => by
    rw [characters]
    split
    · rename_i hpair
      rw [Bool.and_eq_true] at hpair
      have hrest : c ∈ rest := by
        rcases List.mem_cons.mp h with rfl | h
        · rw [hpair.1] at hlead
          cases hlead
        · rcases List.mem_cons.mp h with rfl | h
          · rw [hpair.2] at htrail
            cases htrail
          · exact h
      exact List.mem_cons_of_mem _ (unit_mem_characters rest hrest hlead htrail)
    · rcases List.mem_cons.mp h with rfl | h
      · exact List.mem_cons_self
      · exact List.mem_cons_of_mem _ (unit_mem_characters (e :: rest) h hlead htrail)

/-! ### JSON texts, piece by piece -/

mutual

/-- The pieces of a JSON text that are not of its layout: the texts, and the literals. -/
def Json.Pieces (Q : Text → Prop) : Value → Prop
  | .arr l => PiecesList Q l
  | .obj fields => PiecesFields Q fields
  | v => Q (stringify v)

def PiecesList (Q : Text → Prop) : List Value → Prop
  | [] => True
  | v :: l => v.Pieces Q ∧ PiecesList Q l

def PiecesFields (Q : Text → Prop) : List (Text × Value) → Prop
  | [] => True
  | (key, v) :: fields => Q (quote key) ∧ v.Pieces Q ∧ PiecesFields Q fields

end

/-- The units of the layout. -/
def layoutUnits : Text := [unit '[', unit ']', unit '{', unit '}', unit ',', unit ':', 0x20, 0x0a]

section

variable {Q : Text → Prop} (hnil : Q []) (happend : ∀ t u, Q t → Q u → Q (t ++ u)) (hunit : ∀ c ∈ layoutUnits, Q [c])
include hnil happend hunit

theorem newline_of_units (depth : ℕ) : Q (newline depth) := by
  have hspaces : ∀ n, Q (List.replicate n 0x20) := by
    intro n
    induction n with
    | zero => exact hnil
    | succ n ih => exact happend [0x20] _ (hunit _ (by decide)) ih
  exact happend [0x0a] _ (hunit _ (by decide)) (hspaces (2 * depth))

mutual

/-- **A JSON text has what its pieces have.** -/
theorem pretty_of_pieces : ∀ (v : Value) (depth : ℕ), v.Pieces Q → Q (pretty depth v)
  | .null, _, h => h
  | .bool _, _, h => h
  | .num _, _, h => h
  | .str _, _, h => h
  | .arr [], _, _ => happend [unit '['] [unit ']'] (hunit _ (by decide)) (hunit _ (by decide))
  | .arr (v :: l), depth, h => by
    have hfirst := pretty_of_pieces v (depth + 1) h.1
    have hrest := pretty_of_pieces_elements l (depth + 1) h.2
    have hline := newline_of_units hnil happend hunit
    have hclose := happend _ _ (hline depth) (hunit (unit ']') (by decide))
    rw [pretty]
    exact happend [unit '['] _ (hunit _ (by decide))
      (happend _ _ (hline (depth + 1)) (happend _ _ hfirst (happend _ _ hrest hclose)))
  | .obj [], _, _ => happend [unit '{'] [unit '}'] (hunit _ (by decide)) (hunit _ (by decide))
  | .obj ((key, v) :: fields), depth, h => by
    obtain ⟨hkey, hvalue, hmore⟩ := h
    have hfirst := pretty_of_pieces v (depth + 1) hvalue
    have hrest := pretty_of_pieces_members fields (depth + 1) hmore
    have hline := newline_of_units hnil happend hunit
    have hclose := happend _ _ (hline depth) (hunit (unit '}') (by decide))
    have hmember := happend [unit ':'] _ (hunit _ (by decide)) (happend [0x20] _ (hunit _ (by decide))
      (happend _ _ hfirst (happend _ _ hrest hclose)))
    rw [pretty]
    exact happend [unit '{'] _ (hunit _ (by decide)) (happend _ _ (hline (depth + 1)) (happend _ _ hkey hmember))

theorem pretty_of_pieces_elements : ∀ (l : List Value) (depth : ℕ), PiecesList Q l → Q (prettyElements depth l)
  | [], _, _ => hnil
  | v :: l, depth, h => by
    have hfirst := pretty_of_pieces v depth h.1
    have hrest := pretty_of_pieces_elements l depth h.2
    rw [prettyElements]
    exact happend [unit ','] _ (hunit _ (by decide))
      (happend _ _ (newline_of_units hnil happend hunit depth) (happend _ _ hfirst hrest))

theorem pretty_of_pieces_members : ∀ (fields : List (Text × Value)) (depth : ℕ), PiecesFields Q fields →
    Q (prettyMembers depth fields)
  | [], _, _ => hnil
  | (key, v) :: fields, depth, h => by
    obtain ⟨hkey, hvalue, hmore⟩ := h
    have hfirst := pretty_of_pieces v depth hvalue
    have hrest := pretty_of_pieces_members fields depth hmore
    have hmember := happend [unit ':'] _ (hunit _ (by decide)) (happend [0x20] _ (hunit _ (by decide))
      (happend _ _ hfirst hrest))
    rw [prettyMembers]
    exact happend [unit ','] _ (hunit _ (by decide))
      (happend _ _ (newline_of_units hnil happend hunit depth) (happend _ _ hkey hmember))

end

end

/-! ### Lines and fences -/

def lines (t : Text) : List Text := t.splitOn 0x0a

def joinLines (l : List Text) : Text := [0x0a].intercalate l

theorem lines_append (t u : Text) : lines (t ++ 0x0a :: u) = lines t ++ lines u := List.splitOn_append_cons_self t u

theorem joinLines_lines (t : Text) : joinLines (lines t) = t := List.intercalate_splitOn 0x0a

theorem mem_intercalate {sep l : Text} {ls : List Text} {c : UInt16} (hl : l ∈ ls) (hc : c ∈ l) :
    c ∈ sep.intercalate ls := by
  induction ls with
  | nil => cases hl
  | cons m ls ih =>
    cases ls with
    | nil =>
      obtain rfl := List.mem_singleton.mp hl
      simpa using hc
    | cons n ls =>
      rw [List.intercalate_cons_cons]
      rcases List.mem_cons.mp hl with rfl | hl
      · exact List.mem_append_left _ (List.mem_append_left _ hc)
      · exact List.mem_append_right _ (ih hl)

theorem mem_of_mem_lines {t l : Text} (hl : l ∈ lines t) {c : UInt16} (hc : c ∈ l) : c ∈ t := by
  have hmem : c ∈ joinLines (lines t) := mem_intercalate hl hc
  rwa [joinLines_lines] at hmem

/-- A block is what stands between two fence lines; the lines that it has so far, or `none` outside. -/
def fencedBlocks (fence : Text) : Option (List Text) → List Text → List Text
  | _, [] => []
  | none, l :: ls => if l = fence then fencedBlocks fence (some []) ls else fencedBlocks fence none ls
  | some block, l :: ls =>
    if l = fence then joinLines block :: fencedBlocks fence none ls else fencedBlocks fence (some (block ++ [l])) ls

theorem fencedBlocks_prose {fence : Text} {prose : List Text} (h : fence ∉ prose) (ls : List Text) :
    fencedBlocks fence none (prose ++ ls) = fencedBlocks fence none ls := by
  induction prose with
  | nil => rfl
  | cons l prose ih =>
    have hne : l ≠ fence := fun he => h (he ▸ List.mem_cons_self)
    have hrest : fence ∉ prose := fun hmem => h (List.mem_cons_of_mem l hmem)
    rw [List.cons_append, fencedBlocks, if_neg hne, ih hrest]

theorem fencedBlocks_body {fence : Text} {body : List Text} (h : fence ∉ body) (block ls : List Text) :
    fencedBlocks fence (some block) (body ++ fence :: ls) = joinLines (block ++ body) :: fencedBlocks fence none ls := by
  induction body generalizing block with
  | nil => rw [List.nil_append, fencedBlocks, if_pos rfl, List.append_nil]
  | cons l body ih =>
    have hne : l ≠ fence := fun he => h (he ▸ List.mem_cons_self)
    have hrest : fence ∉ body := fun hmem => h (List.mem_cons_of_mem l hmem)
    rw [List.cons_append, fencedBlocks, if_neg hne, ih hrest, List.append_assoc]
    rfl

/-- Prose and quotes in turn, each quote between two fence lines. -/
def quoted (fence : Text) : List (Text × Text) → Text
  | [] => []
  | [(prose, body)] => prose ++ 0x0a :: (fence ++ 0x0a :: (body ++ 0x0a :: fence))
  | (prose, body) :: s :: rest =>
    prose ++ 0x0a :: (fence ++ 0x0a :: (body ++ 0x0a :: (fence ++ 0x0a :: quoted fence (s :: rest))))

section

variable {fence : Text} (hfence : (0x0a : UInt16) ∉ fence)
include hfence

theorem lines_fence : lines fence = [fence] := List.splitOn_eq_singleton hfence

theorem lines_quoted_cons (prose body : Text) (rest : List (Text × Text)) :
    lines (quoted fence ((prose, body) :: rest)) =
      lines prose ++ fence :: (lines body ++ fence :: (if rest = [] then [] else lines (quoted fence rest))) := by
  cases rest with
  | nil =>
    rw [if_pos rfl, quoted, lines_append, lines_append, lines_append, lines_fence hfence]
    rfl
  | cons s rest =>
    have hne : s :: rest ≠ [] := List.cons_ne_nil s rest
    rw [quoted, lines_append, lines_append, lines_append, lines_append, lines_fence hfence, if_neg hne]
    rfl

/-- **The blocks are the quotes**, when no other line is a fence. -/
theorem fencedBlocks_quoted {segments : List (Text × Text)}
    (h : ∀ s ∈ segments, fence ∉ lines s.1 ∧ fence ∉ lines s.2) :
    fencedBlocks fence none (if segments = [] then [] else lines (quoted fence segments)) = segments.map (·.2) := by
  induction segments with
  | nil => rfl
  | cons s rest ih =>
    obtain ⟨⟨hprose, hbody⟩, hrest⟩ := List.forall_mem_cons.mp h
    have hopen : ∀ ls, fencedBlocks fence none (fence :: ls) = fencedBlocks fence (some []) ls := fun ls => by
      rw [fencedBlocks, if_pos rfl]
    rw [if_neg (List.cons_ne_nil s rest), lines_quoted_cons hfence, fencedBlocks_prose hprose, hopen,
      fencedBlocks_body hbody, List.nil_append, joinLines_lines, ih hrest, List.map_cons]

theorem count_quoted {segments : List (Text × Text)} (h : ∀ s ∈ segments, fence ∉ lines s.1 ∧ fence ∉ lines s.2) :
    (if segments = [] then [] else lines (quoted fence segments)).count fence = 2 * segments.length := by
  induction segments with
  | nil => rfl
  | cons s rest ih =>
    obtain ⟨⟨hprose, hbody⟩, hrest⟩ := List.forall_mem_cons.mp h
    rw [if_neg (List.cons_ne_nil s rest), lines_quoted_cons hfence, List.count_append, List.count_cons_self,
      List.count_append, List.count_cons_self, ih hrest, List.count_eq_zero.mpr hprose, List.count_eq_zero.mpr hbody,
      List.length_cons]
    omega

theorem mem_lines_quoted {segments : List (Text × Text)} {l : Text}
    (h : l ∈ (if segments = [] then [] else lines (quoted fence segments))) :
    l = fence ∨ ∃ s ∈ segments, l ∈ lines s.1 ∨ l ∈ lines s.2 := by
  induction segments with
  | nil => cases h
  | cons s rest ih =>
    rw [if_neg (List.cons_ne_nil s rest), lines_quoted_cons hfence] at h
    rcases List.mem_append.mp h with h | h
    · exact .inr ⟨s, List.mem_cons_self, .inl h⟩
    · rcases List.mem_cons.mp h with h | h
      · exact .inl h
      · rcases List.mem_append.mp h with h | h
        · exact .inr ⟨s, List.mem_cons_self, .inr h⟩
        · rcases List.mem_cons.mp h with h | h
          · exact .inl h
          · rcases ih h with h | ⟨s', hs', h⟩
            · exact .inl h
            · exact .inr ⟨s', List.mem_cons_of_mem s hs', h⟩

end

end JsonText
