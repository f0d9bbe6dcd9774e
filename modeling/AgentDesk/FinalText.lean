/-
# Whom the final text reaches

`dispatchResultText` sends the body of each block to the destination that the block names, and drops a block whose
destination is unknown. When it has sent nothing, it sends the whole text, to where the turn came from or to the
only destination. It counts the blocks it has sent, not those there are: a text whose only block names nobody goes
out whole, with the block in it. And what is in `<internal>` elements is left out of the log, not of what is sent.

A write is taken as a span of the cleaned text, so that two places where the text says the same are two.

* `dispatchResultText_eq`: the rows are those of the writes, with their spans for texts.
* `reaches_named_iff`: **the text reaches only whom it names** exactly when no block that is sent has internal text
  in it, and no text goes out whole that has a block, or internal text.
* `unknown_block_delivered`: a block for nobody is delivered to where the turn came from.
-/
import AgentDesk.RunnerWrites

namespace AgentDesk

open Js
open JsonText (ofString)

/-! ### Spans -/

/-- Places of a text, from `start` to before `stop`. -/
structure Span where
  start : ℕ
  stop : ℕ
  deriving DecidableEq, Repr

namespace Span

def Contains (s : Span) (i : ℕ) : Prop := s.start ≤ i ∧ i < s.stop

/-- The spans have a place in common. -/
def Meets (s t : Span) : Prop := ∃ i, s.Contains i ∧ t.Contains i

end Span

def slice (text : List Char) (s : Span) : List Char := (text.drop s.start).take (s.stop - s.start)

def trimChars (t : List Char) : List Char := ((t.dropWhile isSpace).reverse.dropWhile isSpace).reverse

/-- Where the trimmed text of a span is. -/
def trimSpan (text : List Char) (s : Span) : Span :=
  let start := s.start + ((slice text s).takeWhile isSpace).length
  ⟨start, start + (trimChars (slice text s)).length⟩

/-- What an expression matches at the start of a text: something of its opening tag, what follows that tag, what is
between the tags, and what follows the closing tag. -/
abbrev Finder (α : Type) := List Char → Option (α × List Char × List Char × List Char)

/-- All matches in a text, each with the place of what is between its tags; with the length of the text for fuel. -/
def scanSpans {α : Type} (find : Finder α) (offset : ℕ) : ℕ → List Char → List (α × Span)
  | 0, _ => []
  | _, [] => []
  | n + 1, c :: text =>
    match find (c :: text) with
    | some (a, tail, content, rest) =>
      let start := offset + ((c :: text).length - tail.length)
      (a, ⟨start, start + content.length⟩) :: scanSpans find (offset + ((c :: text).length - rest.length)) n rest
    | none => scanSpans find (offset + 1) n text

/-- `MESSAGE_RE`: the name, and the body between the tags. -/
def findBlock : Finder (List Char) := fun text =>
  (openTag text).bind fun p => (untilClose p.2).map (p.1, p.2, ·)

/-- `([\s\S]*?)<\/internal>`. -/
def untilInternalClose : List Char → Option (List Char × List Char)
  | [] => none
  | c :: text =>
    match word "</internal>" (c :: text) with
    | some rest => some ([], rest)
    | none => (untilInternalClose text).map fun p => (c :: p.1, p.2)

/-- `/<internal>[\s\S]*?<\/internal>/`. -/
def findInternal : Finder Unit := fun text =>
  (word "<internal>" text).bind fun tail => (untilInternalClose tail).map ((), tail, ·)

/-- The text that is scanned. -/
def cleanedText (text : String) : List Char := (normalizeMessageBlocks text).toList

/-- The message blocks of a final text: the name in the tag, and where the body is. -/
def blocksOf (text : String) : List (List Char × Span) :=
  scanSpans findBlock 0 (cleanedText text).length (cleanedText text)

/-- What is in the internal elements of a final text. -/
def internalsOf (text : String) : List Span :=
  (scanSpans findInternal 0 (cleanedText text).length (cleanedText text)).map (·.2)

def wholeSpan (text : String) : Span := trimSpan (cleanedText text) ⟨0, (cleanedText text).length⟩

/-! ### Writes -/

namespace AgentRunner

variable (w : AgentRunner)

/-- Does the gate let a text go to the destination? -/
def permits (dest : DestinationEntry) : Bool :=
  let candidateThreadId := if w.isOriginChannel dest then w.turnRouting.threadId else none
  match enforceRoutingDestination w.gate dest.sendChannel dest.sendPlatform candidateThreadId with
  | .refused _ _ => false
  | .allowed _ => true

/-- Where a text goes that names nobody: to where the turn came from, or to the only destination. -/
def fallbackDestination : Option DestinationEntry :=
  (w.findByRouting w.turnRouting.channelType w.turnRouting.platformId).or (match w.destinations with
    | [only] => some only
    | _ => none)

/-- The destination that a block names. -/
def named (b : List Char × Span) : Option DestinationEntry := w.findByName (String.ofList b.1)

/-- The blocks whose destination is known, each with its trimmed body. -/
def namedBodies (text : String) : List (DestinationEntry × Span) :=
  (blocksOf text).filterMap fun b => (w.named b).map (·, trimSpan (cleanedText text) b.2)

/-- What is handed to `sendToDestination`. -/
def plannedSends (text : String) : List (DestinationEntry × Span) :=
  if w.namedBodies text = [] then
    if trimChars (cleanedText text) = [] then [] else w.fallbackDestination.toList.map (·, wholeSpan text)
  else w.namedBodies text

/-- What goes out. -/
def writes (text : String) : List (DestinationEntry × Span) := (w.plannedSends text).filter fun p => w.permits p.1

end AgentRunner

/-- The final text reaches only whom it names. -/
structure ReachesNamed (w : AgentRunner) (text : String) : Prop where
  /-- What is written of a block goes where the block says. -/
  named : ∀ p ∈ w.writes text, ∀ b ∈ blocksOf text, p.2.Meets b.2 → w.named b = some p.1
  /-- Nothing of an internal element is written. -/
  internal : ∀ p ∈ w.writes text, ∀ i ∈ internalsOf text, ¬p.2.Meets i
  /-- What is written is the body of a block, unless there is no block. -/
  bare : ∀ p ∈ w.writes text, (∃ b ∈ blocksOf text, p.2 = trimSpan (cleanedText text) b.2) ∨ blocksOf text = []

/-- Nothing can come out: no block that is sent has internal text in its body, and where no block names a known
destination, there is nowhere to send the whole, or it has no block and no internal text. -/
structure Sealed (w : AgentRunner) (text : String) : Prop where
  bodies : ∀ b ∈ blocksOf text, ∀ dest, w.named b = some dest → w.permits dest = true →
    ∀ i ∈ internalsOf text, ¬(trimSpan (cleanedText text) b.2).Meets i
  whole : (∀ b ∈ blocksOf text, w.named b = none) → ∀ dest, w.fallbackDestination = some dest → w.permits dest = true →
    blocksOf text = [] ∧ ∀ i ∈ internalsOf text, i.start = i.stop

/-! ### The scan -/

theorem literal_eq {word text rest : List Char} (h : literal word text = some rest) : text = word ++ rest := by
  induction word generalizing text with
  | nil => exact Option.some.inj h
  | cons c word ih =>
    cases text with
    | nil => cases h
    | cons d text =>
      rw [literal] at h
      by_cases hc : c = d
      · rw [if_pos hc] at h
        rw [ih h, hc, List.cons_append]
      · rw [if_neg hc] at h
        cases h

theorem someBlanks_suffix {text rest : List Char} (h : someBlanks text = some rest) : rest <:+ text := by
  cases text with
  | nil => cases h
  | cons c text =>
    rw [someBlanks] at h
    by_cases hc : isSpace c = true
    · rw [if_pos hc] at h
      rw [← Option.some.inj h]
      exact (List.dropWhile_suffix isSpace).trans (List.suffix_cons c text)
    · rw [if_neg hc] at h
      cases h

theorem word_suffix {s : String} {text rest : List Char} (h : word s text = some rest) : rest <:+ text :=
  ⟨s.toList, (literal_eq h).symm⟩

/-- What is matched: a tag, what is between, and another tag. -/
def Finder.Sound {α : Type} (find : Finder α) : Prop :=
  ∀ t a tail content rest, find t = some (a, tail, content, rest) → ∃ tag more,
    t = '<' :: (tag ++ tail) ∧ tail = content ++ '<' :: (more ++ rest)

theorem untilClose_eq {t content rest : List Char} (h : untilClose t = some (content, rest)) :
    t = content ++ (closing ++ rest) := by
  induction t generalizing content with
  | nil => cases h
  | cons c t ih =>
    rw [untilClose] at h
    cases htag : closeTag (c :: t) with
    | some rest' =>
      rw [htag] at h
      obtain ⟨rfl, rfl⟩ := Prod.mk.inj (Option.some.inj h)
      exact (literal_eq htag : c :: t = closing ++ rest')
    | none =>
      rw [htag] at h
      obtain ⟨p, hp, heq⟩ := Option.map_eq_some_iff.mp h
      obtain ⟨rfl, rfl⟩ := Prod.mk.inj heq
      rw [ih hp, List.cons_append]

theorem untilInternalClose_eq {t content rest : List Char} (h : untilInternalClose t = some (content, rest)) :
    t = content ++ ("</internal>".toList ++ rest) := by
  induction t generalizing content with
  | nil => cases h
  | cons c t ih =>
    rw [untilInternalClose] at h
    cases htag : word "</internal>" (c :: t) with
    | some rest' =>
      rw [htag] at h
      obtain ⟨rfl, rfl⟩ := Prod.mk.inj (Option.some.inj h)
      exact (literal_eq htag : c :: t = "</internal>".toList ++ rest')
    | none =>
      rw [htag] at h
      obtain ⟨p, hp, heq⟩ := Option.map_eq_some_iff.mp h
      obtain ⟨rfl, rfl⟩ := Prod.mk.inj heq
      rw [ih hp, List.cons_append]

theorem findInternal_sound : findInternal.Sound := by
  intro t a tail content rest h
  obtain ⟨tail', htail, hmap⟩ := Option.bind_eq_some_iff.mp h
  obtain ⟨p, hp, heq⟩ := Option.map_eq_some_iff.mp hmap
  obtain ⟨-, rfl, rfl⟩ : () = a ∧ tail' = tail ∧ p = (content, rest) := by simpa using heq
  exact ⟨"internal>".toList, "/internal>".toList, literal_eq htail, untilInternalClose_eq hp⟩

theorem findBlock_sound : findBlock.Sound := by
  intro t a tail content rest h
  obtain ⟨⟨toName, tail'⟩, hopen, hmap⟩ := Option.bind_eq_some_iff.mp h
  obtain ⟨p, hp, heq⟩ := Option.map_eq_some_iff.mp hmap
  obtain ⟨rfl, rfl, rfl⟩ : toName = a ∧ tail' = tail ∧ p = (content, rest) := by simpa using heq
  obtain ⟨quoted, hquoted, hname⟩ := Option.bind_eq_some_iff.mp hopen
  obtain ⟨spaced, hstart, hto⟩ := Option.bind_eq_some_iff.mp hquoted
  obtain ⟨named, hblanks, hto⟩ := Option.bind_eq_some_iff.mp hto
  have hend : tail' <:+ quoted := by
    by_cases hempty : quoted.takeWhile (· ≠ '"') = []
    · rw [if_pos hempty] at hname
      cases hname
    · rw [if_neg hempty] at hname
      obtain ⟨after, hafter, heq⟩ := Option.map_eq_some_iff.mp hname
      obtain ⟨-, rfl⟩ := Prod.mk.inj heq
      obtain ⟨unquoted, hquote, hafter⟩ := Option.bind_eq_some_iff.mp hafter
      obtain ⟨ended, hblank, hclose⟩ := Option.bind_eq_some_iff.mp hafter
      have hspace : ended <:+ unquoted := Option.some.inj hblank ▸ List.dropWhile_suffix isSpace
      exact (word_suffix hclose).trans (hspace.trans ((word_suffix hquote).trans (List.dropWhile_suffix _)))
  have hsuffix : tail' <:+ spaced := hend.trans ((word_suffix hto).trans (someBlanks_suffix hblanks))
  obtain ⟨more, hmore⟩ := hsuffix
  refine ⟨"message".toList ++ more, "/message>".toList, ?_, untilClose_eq hp⟩
  rw [literal_eq hstart, ← hmore]
  simp

/-- Where a match is in the whole text. -/
structure Matched (whole : List Char) (offset next : ℕ) (s : Span) : Prop where
  opens : whole[offset]? = some '<'
  starts : offset < s.start
  ordered : s.start ≤ s.stop
  closes : whole[s.stop]? = some '<'
  ends : s.stop < next

theorem matched_of_find {α : Type} {find : Finder α} (hfind : find.Sound) {whole t : List Char} {offset : ℕ}
    (hdrop : whole.drop offset = t) {a : α} {tail content rest : List Char}
    (h : find t = some (a, tail, content, rest)) :
    Matched whole offset (offset + (t.length - rest.length))
        ⟨offset + (t.length - tail.length), offset + (t.length - tail.length) + content.length⟩ ∧
      whole.drop (offset + (t.length - rest.length)) = rest ∧ tail = whole.drop (offset + (t.length - tail.length)) ∧
      content = tail.take content.length := by
  obtain ⟨tag, more, ht, htail⟩ := hfind t a tail content rest h
  have hlen : t.length = 1 + tag.length + tail.length := by
    rw [ht, List.length_cons, List.length_append]
    omega
  have hlen' : tail.length = content.length + 1 + more.length + rest.length := by
    rw [htail, List.length_append, List.length_cons, List.length_append]
    omega
  have hat : ∀ k, whole[offset + k]? = t[k]? := fun k => by rw [← hdrop, List.getElem?_drop]
  have htagdrop : t.drop (1 + tag.length) = tail := by
    rw [ht, Nat.add_comm, List.drop_succ_cons, List.drop_left]
  have hcontentdrop : tail.drop (content.length + 1 + more.length) = rest := by
    rw [htail, Nat.add_assoc, ← List.drop_drop, List.drop_left, Nat.add_comm, List.drop_succ_cons, List.drop_left]
  have hstart : t.length - tail.length = 1 + tag.length := by omega
  have hnext : t.length - rest.length = 1 + tag.length + (content.length + 1 + more.length) := by omega
  refine ⟨⟨?_, by dsimp only; omega, by dsimp only; omega, ?_, by dsimp only; omega⟩, ?_, ?_, ?_⟩
  · have h0 := hat 0
    rwa [Nat.add_zero, ht] at h0
  · rw [hstart, Nat.add_assoc, hat, ← List.getElem?_drop, htagdrop, htail, List.getElem?_append_right (Nat.le_refl _),
      Nat.sub_self]
    rfl
  · rw [hnext, ← List.drop_drop, hdrop, ← List.drop_drop, htagdrop, hcontentdrop]
  · rw [hstart, ← List.drop_drop, hdrop, htagdrop]
  · rw [htail, List.take_left]

section

variable {α : Type} {find : Finder α} (hfind : find.Sound) (whole : List Char)
include hfind

theorem scanSpans_matched : ∀ (n offset : ℕ) (text : List Char), whole.drop offset = text →
    ∀ p ∈ scanSpans find offset n text, ∃ k next, offset ≤ k ∧ Matched whole k next p.2
  | 0, _, _, _, p, hp => absurd hp List.not_mem_nil
  | n + 1, offset, [], _, p, hp => absurd hp List.not_mem_nil
  | n + 1, offset, c :: text, hdrop, p, hp => by
    rw [scanSpans] at hp
    cases hf : find (c :: text) with
    | none =>
      rw [hf] at hp
      have hnext : whole.drop (offset + 1) = text := by rw [← List.drop_drop, hdrop, List.drop_one, List.tail_cons]
      obtain ⟨k, next, hk, hmatched⟩ := scanSpans_matched n (offset + 1) text hnext p hp
      exact ⟨k, next, by omega, hmatched⟩
    | some found =>
      obtain ⟨a, tail, content, rest⟩ := found
      rw [hf] at hp
      obtain ⟨hmatched, hrest, -⟩ := matched_of_find hfind hdrop hf
      rcases List.mem_cons.mp hp with rfl | hp
      · exact ⟨offset, _, Nat.le_refl _, hmatched⟩
      · obtain ⟨k, next, hk, hlater⟩ := scanSpans_matched n _ rest hrest p hp
        exact ⟨k, next, by omega, hlater⟩

theorem scanSpans_pairwise : ∀ (n offset : ℕ) (text : List Char), whole.drop offset = text →
    (scanSpans find offset n text).Pairwise fun p q => p.2.stop < q.2.start
  | 0, _, _, _ => List.Pairwise.nil
  | n + 1, offset, [], _ => List.Pairwise.nil
  | n + 1, offset, c :: text, hdrop => by
    rw [scanSpans]
    cases hf : find (c :: text) with
    | none =>
      have hnext : whole.drop (offset + 1) = text := by rw [← List.drop_drop, hdrop, List.drop_one, List.tail_cons]
      exact scanSpans_pairwise n (offset + 1) text hnext
    | some found =>
      obtain ⟨a, tail, content, rest⟩ := found
      obtain ⟨hmatched, hrest, -⟩ := matched_of_find hfind hdrop hf
      refine List.pairwise_cons.mpr ⟨fun q hq => ?_, scanSpans_pairwise n _ rest hrest⟩
      obtain ⟨k, next, hk, hlater⟩ := scanSpans_matched hfind whole n _ rest hrest q hq
      exact (hmatched.ends.trans_le hk).trans hlater.starts

end

theorem scanSpans_segments (whole : List Char) : ∀ (n offset : ℕ) (text : List Char), whole.drop offset = text →
    (segments n text).filterMap Segment.block? = (scanSpans findBlock offset n text).map fun b =>
      (String.ofList b.1, trim (String.ofList (slice whole b.2)))
  | 0, _, _, _ => rfl
  | n + 1, offset, [], _ => rfl
  | n + 1, offset, c :: text, hdrop => by
    rw [segments, scanSpans]
    have hsame : (openTag (c :: text)).bind (fun p => (untilClose p.2).map (p.1, ·)) =
        (findBlock (c :: text)).map fun f => (f.1, f.2.2.1, f.2.2.2) := by
      unfold findBlock
      cases openTag (c :: text) with
      | none => rfl
      | some p =>
        rw [Option.bind_some, Option.bind_some, Option.map_map]
        rfl
    rw [hsame]
    cases hf : findBlock (c :: text) with
    | none =>
      have hnext : whole.drop (offset + 1) = text := by rw [← List.drop_drop, hdrop, List.drop_one, List.tail_cons]
      exact scanSpans_segments whole n (offset + 1) text hnext
    | some found =>
      obtain ⟨a, tail, content, rest⟩ := found
      obtain ⟨-, hrest, htail, hcontent⟩ := matched_of_find findBlock_sound hdrop hf
      have ih := scanSpans_segments whole n _ rest hrest
      have hslice : slice whole ⟨offset + ((c :: text).length - tail.length),
          offset + ((c :: text).length - tail.length) + content.length⟩ = content := by
        rw [slice, ← htail, Nat.add_sub_cancel_left, ← hcontent]
      dsimp only [Option.map_some]
      rw [List.filterMap_cons, List.map_cons, ih, hslice]
      rfl

theorem messageBlocks_eq (text : String) : messageBlocks (normalizeMessageBlocks text) =
    (blocksOf text).map fun b => (String.ofList b.1, trim (String.ofList (slice (cleanedText text) b.2))) :=
  scanSpans_segments (cleanedText text) (cleanedText text).length 0 (cleanedText text) rfl

/-! ### Trimming -/

theorem trimChars_decomp (t : List Char) : ∃ trailing, (∀ c ∈ trailing, isSpace c = true) ∧
    t = t.takeWhile isSpace ++ (trimChars t ++ trailing) := by
  refine ⟨((t.dropWhile isSpace).reverse.takeWhile isSpace).reverse, fun c hc => ?_, ?_⟩
  · exact List.mem_takeWhile_imp (List.mem_reverse.mp hc)
  · rw [trimChars, ← List.reverse_append, List.takeWhile_append_dropWhile, List.reverse_reverse,
      List.takeWhile_append_dropWhile]

theorem trim_toList (s : String) : (trim s).toList = trimChars s.toList := by
  rw [trim, String.toList_ofList]
  rfl

theorem trim_ofList (t : List Char) : trim (String.ofList t) = String.ofList (trimChars t) := by
  rw [trim, String.toList_ofList]
  rfl

variable {whole : List Char} {s : Span}

variable (whole s) in
theorem trim_lengths : ((slice whole s).takeWhile isSpace).length + (trimChars (slice whole s)).length ≤
    (slice whole s).length ∧ (slice whole s).length ≤ s.stop - s.start := by
  obtain ⟨trailing, -, hdecomp⟩ := trimChars_decomp (slice whole s)
  have hlen := congrArg List.length hdecomp
  rw [List.length_append, List.length_append] at hlen
  exact ⟨by omega, List.length_take_le _ _⟩

theorem slice_trimSpan : slice whole (trimSpan whole s) = trimChars (slice whole s) := by
  obtain ⟨trailing, -, hdecomp⟩ := trimChars_decomp (slice whole s)
  obtain ⟨hinner, houter⟩ := trim_lengths whole s
  have hdrop : (slice whole s).drop ((slice whole s).takeWhile isSpace).length =
      trimChars (slice whole s) ++ trailing := by
    nth_rewrite 2 [hdecomp]
    exact List.drop_left
  have htake : (trimChars (slice whole s) ++ trailing).take (trimChars (slice whole s)).length =
      trimChars (slice whole s) := List.take_left
  have hwhole : (slice whole s).drop ((slice whole s).takeWhile isSpace).length =
      (whole.drop (s.start + ((slice whole s).takeWhile isSpace).length)).take
        (s.stop - s.start - ((slice whole s).takeWhile isSpace).length) := by
    rw [slice, List.drop_take, List.drop_drop]
  rw [← hdrop, hwhole, List.take_take, Nat.min_eq_left (by omega)] at htake
  rw [trimSpan, slice, Nat.add_sub_cancel_left]
  exact htake

theorem contains_of_trimSpan {i : ℕ} (h : (trimSpan whole s).Contains i) : s.Contains i := by
  obtain ⟨hinner, houter⟩ := trim_lengths whole s
  obtain ⟨hstart, hstop⟩ := h
  simp only [trimSpan] at hstart hstop
  exact ⟨by omega, by omega⟩

theorem trimSpan_contains {i : ℕ} (hi : s.Contains i) {c : Char} (hc : whole[i]? = some c)
    (hspace : isSpace c = false) : (trimSpan whole s).Contains i := by
  obtain ⟨trailing, htrailing, hdecomp⟩ := trimChars_decomp (slice whole s)
  obtain ⟨hstart, hstop⟩ := hi
  have hat : (slice whole s)[i - s.start]? = some c := by
    rw [slice, List.getElem?_take_of_lt (by omega), List.getElem?_drop, Nat.add_sub_cancel' hstart, hc]
  have hspaces : ∀ l : List Char, (∀ d ∈ l, isSpace d = true) → c ∉ l := by
    intro l hl hmem
    rw [hl c hmem] at hspace
    cases hspace
  have hlead := hspaces ((slice whole s).takeWhile isSpace) fun d hd => List.mem_takeWhile_imp hd
  have htrail := hspaces trailing htrailing
  rw [hdecomp] at hat
  have hafter : ((slice whole s).takeWhile isSpace).length ≤ i - s.start := by
    by_contra hlt
    rw [List.getElem?_append_left (by omega)] at hat
    exact hlead (List.mem_of_getElem? hat)
  have hbefore : i - s.start < ((slice whole s).takeWhile isSpace).length + (trimChars (slice whole s)).length := by
    by_contra hge
    rw [List.getElem?_append_right hafter, List.getElem?_append_right (by omega)] at hat
    exact htrail (List.mem_of_getElem? hat)
  exact ⟨by simp only [trimSpan]; omega, by simp only [trimSpan]; omega⟩

/-! ### The rows -/

variable {w : AgentRunner} {text : String}

theorem sendToDestination_isSome (dest : DestinationEntry) (body : String) :
    (w.sendToDestination dest body).isSome = w.permits dest := by
  unfold AgentRunner.sendToDestination AgentRunner.permits
  dsimp only
  cases enforceRoutingDestination w.gate dest.sendChannel dest.sendPlatform
    (if w.isOriginChannel dest then w.turnRouting.threadId else none) <;> rfl

/-- **The rows are those of the writes**, with their spans for texts. -/
theorem dispatchResultText_eq (w : AgentRunner) (text : String) : w.dispatchResultText text =
    (w.writes text).filterMap fun p => w.sendToDestination p.1 (String.ofList (slice (cleanedText text) p.2)) := by
  have hsends : w.blockSends (normalizeMessageBlocks text) =
      (w.namedBodies text).map fun p => (p.1, String.ofList (slice (cleanedText text) p.2)) := by
    rw [AgentRunner.blockSends, messageBlocks_eq, AgentRunner.namedBodies, List.filterMap_map, List.map_filterMap]
    congr 1
    funext b
    rw [Function.comp_apply, Option.map_map]
    congr 1
    funext dest
    rw [Function.comp_apply, slice_trimSpan, trim_ofList]
  have hwhole : slice (cleanedText text) (wholeSpan text) = trimChars (cleanedText text) := by
    have hall : slice (cleanedText text) ⟨0, (cleanedText text).length⟩ = cleanedText text := by
      rw [slice, List.drop_zero, Nat.sub_zero, List.take_length]
    rw [wholeSpan, slice_trimSpan, hall]
  have hbare : (w.bareSend (trim (normalizeMessageBlocks text))).toList =
      (if trimChars (cleanedText text) = [] then [] else w.fallbackDestination.toList.map (·, wholeSpan text)).map
        fun p => (p.1, String.ofList (slice (cleanedText text) p.2)) := by
    have hbare : trim (normalizeMessageBlocks text) = String.ofList (trimChars (cleanedText text)) := rfl
    unfold AgentRunner.bareSend
    dsimp only
    rw [hbare]
    by_cases hblank : trimChars (cleanedText text) = []
    · rw [if_pos hblank, hblank, if_pos rfl]
      rfl
    · have hne : String.ofList (trimChars (cleanedText text)) ≠ "" := by
        intro h
        have hlist := congrArg String.toList h
        rw [String.toList_ofList] at hlist
        exact hblank hlist
      rw [if_neg hblank, if_neg hne, List.map_map, Option.toList_map]
      refine List.map_congr_left fun dest _ => ?_
      rw [Function.comp_apply, hwhole]
  have hplanned : (if w.blockSends (normalizeMessageBlocks text) = [] then
      (w.bareSend (trim (normalizeMessageBlocks text))).toList else w.blockSends (normalizeMessageBlocks text)) =
      (w.plannedSends text).map fun p => (p.1, String.ofList (slice (cleanedText text) p.2)) := by
    rw [AgentRunner.plannedSends, hbare, hsends]
    by_cases hnone : w.namedBodies text = []
    · rw [if_pos hnone, hnone, List.map_nil, if_pos rfl]
    · rw [if_neg hnone, if_neg (mt List.map_eq_nil_iff.mp hnone)]
  unfold AgentRunner.dispatchResultText
  dsimp only
  rw [hplanned, AgentRunner.writes, List.filterMap_map, List.filterMap_filter]
  refine List.filterMap_congr fun p _ => ?_
  rw [Function.comp_apply]
  by_cases hpermits : w.permits p.1 = true
  · rw [if_pos hpermits]
  · rw [if_neg hpermits]
    rw [← sendToDestination_isSome] at hpermits
    exact Option.not_isSome_iff_eq_none.mp hpermits

/-! ### What is written, and what is inside -/

theorem matched_block {b : List Char × Span} (hb : b ∈ blocksOf text) :
    ∃ k next, Matched (cleanedText text) k next b.2 := by
  obtain ⟨k, next, -, hmatched⟩ := scanSpans_matched findBlock_sound (cleanedText text) _ 0 _ rfl b hb
  exact ⟨k, next, hmatched⟩

theorem matched_internal {i : Span} (hi : i ∈ internalsOf text) : ∃ k next, Matched (cleanedText text) k next i := by
  obtain ⟨p, hp, rfl⟩ := List.mem_map.mp hi
  obtain ⟨k, next, -, hmatched⟩ := scanSpans_matched findInternal_sound (cleanedText text) _ 0 _ rfl p hp
  exact ⟨k, next, hmatched⟩

theorem trimSpan_all_contains {i : ℕ} {c : Char} (hc : whole[i]? = some c) (hspace : isSpace c = false) :
    (trimSpan whole ⟨0, whole.length⟩).Contains i := by
  obtain ⟨hlt, -⟩ := List.getElem?_eq_some_iff.mp hc
  exact trimSpan_contains ⟨Nat.zero_le i, hlt⟩ hc hspace

theorem wholeSpan_contains {k next : ℕ} {s : Span} (h : Matched (cleanedText text) k next s) :
    (wholeSpan text).Contains k ∧ (wholeSpan text).Contains s.stop := by
  have hspace : isSpace '<' = false := by decide
  exact ⟨trimSpan_all_contains h.opens hspace, trimSpan_all_contains h.closes hspace⟩

theorem not_contains_of_blank (hblank : trimChars whole = []) (k : ℕ) :
    ¬(trimSpan whole ⟨0, whole.length⟩).Contains k := by
  have hall : slice whole ⟨0, whole.length⟩ = whole := by
    rw [slice, List.drop_zero, Nat.sub_zero, List.take_length]
  rintro ⟨hstart, hstop⟩
  simp only [trimSpan, hall, hblank, List.length_nil, Nat.add_zero] at hstart hstop
  omega

theorem unique_of_pairwise {α : Type} {l : List (α × Span)} (h : l.Pairwise fun p q => p.2.stop < q.2.start)
    {p q : α × Span} (hp : p ∈ l) (hq : q ∈ l) {i : ℕ} (hi : p.2.Contains i) (hi' : q.2.Contains i) : p = q := by
  obtain ⟨hstart, hstop⟩ := hi
  obtain ⟨hstart', hstop'⟩ := hi'
  induction h with
  | nil => cases hp
  | cons hfirst _ ih =>
    rcases List.mem_cons.mp hp with rfl | hp'
    · rcases List.mem_cons.mp hq with rfl | hq'
      · rfl
      · have hlt := hfirst q hq'
        omega
    · rcases List.mem_cons.mp hq with rfl | hq'
      · have hlt := hfirst p hp'
        omega
      · exact ih hp' hq'

theorem block_unique {b b' : List Char × Span} (hb : b ∈ blocksOf text) (hb' : b' ∈ blocksOf text) {i : ℕ}
    (hi : b.2.Contains i) (hi' : b'.2.Contains i) : b = b' :=
  unique_of_pairwise (scanSpans_pairwise findBlock_sound (cleanedText text) (cleanedText text).length 0 _ rfl) hb hb' hi
    hi'

theorem mem_writes {p : DestinationEntry × Span} : p ∈ w.writes text ↔ p ∈ w.plannedSends text ∧ w.permits p.1 = true :=
  List.mem_filter

theorem mem_namedBodies {p : DestinationEntry × Span} : p ∈ w.namedBodies text ↔
    ∃ b ∈ blocksOf text, w.named b = some p.1 ∧ p.2 = trimSpan (cleanedText text) b.2 := by
  unfold AgentRunner.namedBodies
  rw [List.mem_filterMap]
  refine exists_congr fun b => and_congr_right fun _ => ?_
  rw [Option.map_eq_some_iff]
  constructor
  · rintro ⟨dest, hdest, rfl⟩
    exact ⟨hdest, rfl⟩
  · rintro ⟨hdest, hspan⟩
    exact ⟨p.1, hdest, Prod.ext rfl hspan.symm⟩

theorem namedBodies_eq_nil : w.namedBodies text = [] ↔ ∀ b ∈ blocksOf text, w.named b = none := by
  unfold AgentRunner.namedBodies
  simp [List.filterMap_eq_nil_iff]

/-- **The final text reaches only whom it names** exactly when nothing can come out. -/
theorem reaches_named_iff (w : AgentRunner) (text : String) : ReachesNamed w text ↔ Sealed w text := by
  constructor
  · intro h
    refine ⟨fun b hb dest hdest hpermits i hi => ?_, fun hnone dest hdest hpermits => ?_⟩
    · have hmem : (dest, trimSpan (cleanedText text) b.2) ∈ w.namedBodies text :=
        mem_namedBodies.mpr ⟨b, hb, hdest, rfl⟩
      have hplanned : (dest, trimSpan (cleanedText text) b.2) ∈ w.plannedSends text := by
        rw [AgentRunner.plannedSends, if_neg (List.ne_nil_of_mem hmem)]
        exact hmem
      exact h.internal _ (mem_writes.mpr ⟨hplanned, hpermits⟩) i hi
    · have hnil := namedBodies_eq_nil.mpr hnone
      by_cases hblank : trimChars (cleanedText text) = []
      · -- a blank text has no tag in it
        have hempty := not_contains_of_blank hblank
        refine ⟨List.eq_nil_iff_forall_not_mem.mpr fun b hb => ?_, fun i hi => ?_⟩
        · obtain ⟨k, next, hmatched⟩ := matched_block hb
          exact hempty k (wholeSpan_contains hmatched).1
        · obtain ⟨k, next, hmatched⟩ := matched_internal hi
          exact absurd (wholeSpan_contains hmatched).1 (hempty k)
      · have hwrite : (dest, wholeSpan text) ∈ w.writes text := by
          refine mem_writes.mpr ⟨?_, hpermits⟩
          rw [AgentRunner.plannedSends, if_pos hnil, if_neg hblank, hdest]
          exact .head _
        have hblocks : blocksOf text = [] := by
          rcases h.bare _ hwrite with ⟨b, hb, hspan⟩ | hblocks
          · obtain ⟨k, next, hmatched⟩ := matched_block hb
            have hk : (dest, wholeSpan text).2.Contains k := (wholeSpan_contains hmatched).1
            rw [hspan] at hk
            have hstart := (contains_of_trimSpan hk).1
            exact absurd hmatched.starts (Nat.not_lt.mpr hstart)
          · exact hblocks
        refine ⟨hblocks, fun i hi => ?_⟩
        obtain ⟨k, next, hmatched⟩ := matched_internal hi
        obtain ⟨hk, hstop⟩ := wholeSpan_contains hmatched
        by_contra hne
        refine h.internal _ hwrite i hi ⟨i.start, ?_, Nat.le_refl _, ?_⟩
        · have hstarts := hmatched.starts
          have hordered := hmatched.ordered
          exact ⟨by have := hk.1; dsimp only; omega, by have := hstop.2; dsimp only; omega⟩
        · have hordered := hmatched.ordered
          omega
  · intro h
    have hcases : ∀ p ∈ w.writes text, p ∈ w.namedBodies text ∨
        (blocksOf text = [] ∧ ∀ i ∈ internalsOf text, i.start = i.stop) := by
      intro p hp
      obtain ⟨hplanned, hpermits⟩ := mem_writes.mp hp
      rw [AgentRunner.plannedSends] at hplanned
      by_cases hnil : w.namedBodies text = []
      · rw [if_pos hnil] at hplanned
        by_cases hblank : trimChars (cleanedText text) = []
        · rw [if_pos hblank] at hplanned
          cases hplanned
        · rw [if_neg hblank] at hplanned
          obtain ⟨dest, hdest, rfl⟩ := List.mem_map.mp hplanned
          exact .inr (h.whole (namedBodies_eq_nil.mp hnil) dest (Option.mem_toList.mp hdest) hpermits)
      · rw [if_neg hnil] at hplanned
        exact .inl hplanned
    refine ⟨fun p hp b hb hmeets => ?_, fun p hp i hi hmeets => ?_, fun p hp => ?_⟩
    · obtain ⟨k, hk, hk'⟩ := hmeets
      rcases hcases p hp with hnamed | ⟨hblocks, -⟩
      · obtain ⟨b', hb', hdest, hspan⟩ := mem_namedBodies.mp hnamed
        rw [hspan] at hk
        obtain rfl := block_unique hb' hb (contains_of_trimSpan hk) hk'
        exact hdest
      · rw [hblocks] at hb
        cases hb
    · rcases hcases p hp with hnamed | ⟨-, hinternals⟩
      · obtain ⟨b, hb, hdest, hspan⟩ := mem_namedBodies.mp hnamed
        rw [hspan] at hmeets
        exact h.bodies b hb p.1 hdest (mem_writes.mp hp).2 i hi hmeets
      · obtain ⟨k, -, hstart, hstop⟩ := hmeets
        have hempty := hinternals i hi
        omega
    · rcases hcases p hp with hnamed | ⟨hblocks, -⟩
      · obtain ⟨b, hb, -, hspan⟩ := mem_namedBodies.mp hnamed
        exact .inl ⟨b, hb, hspan⟩
      · exact .inr hblocks

/-! ### A block for nobody -/

def opsDestination : DestinationEntry where
  name := "ops"
  type := .channel
  channelType := some (ofString "feishu")
  platformId := some (ofString "oc_ops")
  agentGroupId := none

/-- A runner in a turn from its only destination. -/
def opsRunner : AgentRunner where
  loop := Loop.fresh [] [] 0
  turnRouting := { channelType := some (ofString "feishu"), platformId := some (ofString "oc_ops"), threadId := none
                   inReplyTo := none }
  gateRow := none
  messagesOut := []
  destinations := [opsDestination]
  sessionRouting := none
  pending := []
  installed := none
  inherited := false

/-- The model has mistyped the name of the destination `boss`. -/
def misnamedText : String := "<message to=\"bos\">pay 9k</message>"

/-- A block for nobody is delivered to where the turn came from. -/
theorem unknown_block_delivered :
    (opsRunner.dispatchResultText misnamedText).map (fun row => (row.surface.platformId, row.text)) =
      [(some (ofString "oc_ops"), some misnamedText)] ∧
    ¬∀ (w : AgentRunner) (text : String), ReachesNamed w text := by
  refine ⟨by decide, fun h => ?_⟩
  have hwrites : opsRunner.writes misnamedText = [(opsDestination, ⟨0, 34⟩)] := by decide
  have hblocks : blocksOf misnamedText = [("bos".toList, ⟨18, 24⟩)] := by decide
  have hnamed : opsRunner.named ("bos".toList, ⟨18, 24⟩) = none := by decide
  have hmem : (opsDestination, ⟨0, 34⟩) ∈ opsRunner.writes misnamedText := by
    rw [hwrites]
    exact .head _
  have hblock : ("bos".toList, ⟨18, 24⟩) ∈ blocksOf misnamedText := by
    rw [hblocks]
    exact .head _
  have hsome := (h opsRunner misnamedText).named _ hmem _ hblock ⟨18, ⟨by decide, by decide⟩, ⟨by decide, by decide⟩⟩
  rw [hnamed] at hsome
  cases hsome

end AgentDesk
