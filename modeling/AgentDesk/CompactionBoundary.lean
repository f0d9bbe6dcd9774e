/-
# Where a transcript is cut for its summary

`computeCompactionBoundary` of `providers/openai.ts` keeps the newest items that two limits allow, and then moves
the boundary back so that it does not come between a function call and its output. It looks at two neighbouring
items for that: the boundary goes back over the outputs that the kept part begins with and over one call. When the
model made several calls at once that is only the last of them.

* `recentItems_eq`: the walk from the end finds the longest tail within the limits.
* `pullBack_output`, `pullBack_other`: where the boundary is moved to.
* `keepsExchanges_iff`: **when no exchange is split**, for any transcript and any limits.
-/
import Mathlib.Data.Nat.Find
import AgentDesk.Transcripts

namespace AgentDesk

open JsonText

/-! ### Exchanges -/

/-- Item `i` is the call with the id. -/
def CallAt (t : List JsonObject) (i : ℕ) (callId : Text) : Prop :=
  typeAt t i = some functionCallType ∧ (t[i]?.bind fun item => item.readString callIdKey) = some callId

/-- Item `i` is an output for the id. -/
def OutputAt (t : List JsonObject) (i : ℕ) (callId : Text) : Prop :=
  typeAt t i = some functionCallOutputType ∧ (t[i]?.bind fun item => item.readString callIdKey) = some callId

/-- Every output comes after its call. -/
def AnswersCalls (t : List JsonObject) : Prop :=
  ∀ j, typeAt t j = some functionCallOutputType → ∃ callId i, OutputAt t j callId ∧ CallAt t i callId ∧ i < j

/-- No call before the index is answered from it on, and there is something on both sides of a positive one. -/
def KeepsExchanges (t : List JsonObject) (boundary : ℕ) : Prop :=
  (∀ i j callId, CallAt t i callId → OutputAt t j callId → ¬ (i < boundary ∧ boundary ≤ j)) ∧
    (0 < boundary → boundary < t.length)

/-! ### The tail that the limits allow -/

/-- The last `n` items are within the limits, or it is one item. -/
def FitsTail (t : List JsonObject) (keepItems keepChars n : ℕ) : Prop :=
  n ≤ 1 ∨ (n ≤ keepItems ∧ totalTranscriptChars (t.drop (t.length - n)) ≤ keepChars)

instance (t : List JsonObject) (keepItems keepChars : ℕ) : DecidablePred (FitsTail t keepItems keepChars) :=
  fun _ => inferInstanceAs (Decidable (_ ∨ _))

/-- The length of the longest tail within the limits. -/
def longestTail (t : List JsonObject) (keepItems keepChars : ℕ) : ℕ :=
  Nat.findGreatest (FitsTail t keepItems keepChars) t.length

theorem recentItems_spec (keepItems keepChars : ℕ) : ∀ (l : List JsonObject) (items chars : ℕ),
    ∃ m, recentItems keepItems keepChars l items chars = items + m ∧ m ≤ l.length ∧
      (0 < m → items + m ≤ 1 ∨ (items + m ≤ keepItems ∧ chars + totalTranscriptChars (l.take m) ≤ keepChars)) ∧
      (m < l.length → 1 ≤ items + m ∧
        (keepItems < items + m + 1 ∨ keepChars < chars + totalTranscriptChars (l.take (m + 1))))
  | [], items, chars => ⟨0, rfl, Nat.le_refl _, fun h => absurd h (Nat.lt_irrefl 0), fun h => absurd h (Nat.not_lt_zero _)⟩
  | item :: older, items, chars => by
    rw [recentItems]
    by_cases hstop : 1 ≤ items ∧ (keepItems < items + 1 ∨ keepChars < chars + transcriptSize item)
    · rw [if_pos hstop]
      refine ⟨0, rfl, Nat.zero_le _, fun h => absurd h (Nat.lt_irrefl 0), fun _ => ⟨hstop.1, ?_⟩⟩
      simpa [totalTranscriptChars] using hstop.2
    · rw [if_neg hstop]
      obtain ⟨m, heq, hle, hfits, hmore⟩ :=
        recentItems_spec keepItems keepChars older (items + 1) (chars + transcriptSize item)
      have hchars : ∀ n, chars + totalTranscriptChars ((item :: older).take (n + 1)) =
          chars + transcriptSize item + totalTranscriptChars (older.take n) := by
        intro n
        simp only [totalTranscriptChars, List.take_succ_cons, List.map_cons, List.sum_cons]
        omega
      refine ⟨m + 1, by omega, by simpa using hle, fun _ => ?_, fun h => ?_⟩
      · rw [hchars]
        by_cases hm : 0 < m
        · have := hfits hm
          omega
        · have hzero : m = 0 := by omega
          subst hzero
          have hnone : totalTranscriptChars (older.take 0) = 0 := rfl
          omega
      · rw [hchars]
        have hshort : m < older.length := by simpa using h
        have := hmore hshort
        omega

theorem chars_tail (t : List JsonObject) (n : ℕ) :
    totalTranscriptChars (t.drop (t.length - n)) = totalTranscriptChars (t.reverse.take n) := by
  rw [List.take_reverse, totalTranscriptChars, totalTranscriptChars, List.map_reverse, List.sum_reverse]

theorem FitsTail.mono {t : List JsonObject} {keepItems keepChars m n : ℕ} (hmn : m ≤ n)
    (h : FitsTail t keepItems keepChars n) : FitsTail t keepItems keepChars m := by
  rcases h with hone | ⟨hitems, hchars⟩
  · exact .inl (by omega)
  · refine .inr ⟨by omega, ?_⟩
    have hsuffix : t.drop (t.length - m) <:+ t.drop (t.length - n) :=
      List.drop_suffix_drop_left t (by omega)
    obtain ⟨front, hfront⟩ := hsuffix
    have hsum : totalTranscriptChars (t.drop (t.length - n)) =
        totalTranscriptChars front + totalTranscriptChars (t.drop (t.length - m)) := by
      rw [← hfront, totalTranscriptChars, List.map_append, List.sum_append]
      rfl
    omega

/-- The walk from the end finds the longest tail within the limits. -/
theorem recentItems_eq (t : List JsonObject) (keepItems keepChars : ℕ) :
    recentItems keepItems keepChars t.reverse 0 0 = longestTail t keepItems keepChars := by
  obtain ⟨m, heq, hle, hfits, hmore⟩ := recentItems_spec keepItems keepChars t.reverse 0 0
  rw [List.length_reverse] at hle hmore
  rw [heq, Nat.zero_add]
  symm
  refine Nat.findGreatest_eq_iff.mpr ⟨hle, fun hm => ?_, fun n hmn hn hfit => ?_⟩
  · unfold FitsTail
    have hgot := hfits (Nat.pos_of_ne_zero hm)
    rw [chars_tail]
    omega
  · have hnext := hfit.mono (m := m + 1) hmn
    have hstop := hmore (by omega)
    unfold FitsTail at hnext
    rw [chars_tail] at hnext
    omega

/-! ### Where the boundary goes from there -/

/-- The first of the outputs that item `k` stands among; `k` itself when it is no output, or the first. -/
def outputsStart (t : List JsonObject) : ℕ → ℕ
  | 0 => 0
  | k + 1 =>
    if typeAt t (k + 1) = some functionCallOutputType ∧ typeAt t k = some functionCallOutputType then outputsStart t k
    else k + 1

theorem pullBack_other {t : List JsonObject} {k : ℕ} (h : typeAt t k ≠ some functionCallOutputType) :
    pullBack t k = k := by
  cases k with
  | zero => rfl
  | succ k => rw [pullBack, if_neg fun hout => h hout.1]

theorem outputsStart_other {t : List JsonObject} {k : ℕ} (h : typeAt t k ≠ some functionCallOutputType) :
    outputsStart t k = k := by
  cases k with
  | zero => rfl
  | succ k => rw [outputsStart, if_neg fun hout => h hout.1]

/-- From an output the boundary goes to the first of its run, and over a call that is directly before that. -/
theorem pullBack_output {t : List JsonObject} : ∀ {k : ℕ}, typeAt t k = some functionCallOutputType →
    typeAt t (outputsStart t k) = some functionCallOutputType ∧ outputsStart t k ≤ k ∧
      pullBack t k =
        if 0 < outputsStart t k ∧ typeAt t (outputsStart t k - 1) = some functionCallType then outputsStart t k - 1
        else outputsStart t k
  | 0, h => ⟨h, Nat.le_refl _, by rw [outputsStart, if_neg (fun h => Nat.lt_irrefl 0 h.1), pullBack]⟩
  | k + 1, h => by
    by_cases hout : typeAt t k = some functionCallOutputType
    · obtain ⟨htype, hle, hpull⟩ := pullBack_output hout
      have hstart : outputsStart t (k + 1) = outputsStart t k := by rw [outputsStart, if_pos ⟨h, hout⟩]
      have hback : pullBack t (k + 1) = pullBack t k := by rw [pullBack, if_pos ⟨h, .inr hout⟩]
      rw [hstart, hback]
      exact ⟨htype, by omega, hpull⟩
    · have hstart : outputsStart t (k + 1) = k + 1 := by rw [outputsStart, if_neg fun hboth => hout hboth.2]
      rw [hstart, Nat.add_sub_cancel]
      refine ⟨h, Nat.le_refl _, ?_⟩
      by_cases hcall : typeAt t k = some functionCallType
      · rw [pullBack, if_pos ⟨h, .inl hcall⟩, pullBack_other hout, if_pos ⟨Nat.succ_pos k, hcall⟩]
      · rw [pullBack, if_neg fun hboth => hboth.2.elim hcall hout, if_neg fun hboth => hcall hboth.2]

/-! ### When no exchange is split -/

/-- With the tail from item `k` on: no exchange is open where its outputs begin but that of a call directly before
them, and that only when item `k` is an output. -/
def CutsNoBatch (t : List JsonObject) (k : ℕ) : Prop :=
  ∀ i j callId, CallAt t i callId → OutputAt t j callId → i < outputsStart t k → outputsStart t k ≤ j →
    typeAt t k = some functionCallOutputType ∧ i + 1 = outputsStart t k

theorem computeCompactionBoundary_eq (t : List JsonObject) (keepItems keepChars : ℕ) :
    computeCompactionBoundary t keepItems keepChars = pullBack t (t.length - longestTail t keepItems keepChars) := by
  rw [computeCompactionBoundary, recentItems_eq]
  by_cases hshort : t.length ≤ 1
  · rw [if_pos hshort]
    have hall : longestTail t keepItems keepChars = t.length := by
      refine Nat.findGreatest_eq_iff.mpr ⟨Nat.le_refl _, fun _ => .inl hshort, fun n hn hle => ?_⟩
      omega
    rw [hall, Nat.sub_self, pullBack]
  · rw [if_neg hshort]

theorem pullBack_keeps_iff (t : List JsonObject) (k : ℕ) :
    (∀ i j callId, CallAt t i callId → OutputAt t j callId → ¬ (i < pullBack t k ∧ pullBack t k ≤ j)) ↔
      CutsNoBatch t k := by
  unfold CutsNoBatch
  by_cases hout : typeAt t k = some functionCallOutputType
  · obtain ⟨hstart, -, hpull⟩ := pullBack_output hout
    by_cases hcall : 0 < outputsStart t k ∧ typeAt t (outputsStart t k - 1) = some functionCallType
    · rw [hpull, if_pos hcall]
      constructor
      · intro h i j callId hi hj hlt hle
        have hkeep := h i j callId hi hj
        exact ⟨hout, by omega⟩
      · intro h i j callId hi hj ⟨hlt, hle⟩
        -- the item the boundary is at is a call, so the output is after it
        have hne : j ≠ outputsStart t k - 1 := by
          intro he
          have htype := he ▸ hj.1
          rw [hcall.2] at htype
          exact functionCallType_ne (Option.some.inj htype)
        have hopen := (h i j callId hi hj (by omega) (by omega)).2
        omega
    · rw [hpull, if_neg hcall]
      constructor
      · intro h i j callId hi hj hlt hle
        exact absurd ⟨hlt, hle⟩ (h i j callId hi hj)
      · intro h i j callId hi hj ⟨hlt, hle⟩
        have hopen := (h i j callId hi hj hlt hle).2
        refine hcall ⟨by omega, ?_⟩
        have hbefore : outputsStart t k - 1 = i := by omega
        rw [hbefore]
        exact hi.1
  · rw [pullBack_other hout, outputsStart_other hout]
    constructor
    · intro h i j callId hi hj hlt hle
      exact absurd ⟨hlt, hle⟩ (h i j callId hi hj)
    · intro h i j callId hi hj ⟨hlt, hle⟩
      exact hout (h i j callId hi hj hlt hle).1

/-- **When no exchange is split.** The longest tail within the limits begins outside every exchange, or among the
outputs of an exchange whose call is directly before them. -/
theorem keepsExchanges_iff (t : List JsonObject) (keepItems keepChars : ℕ) :
    KeepsExchanges t (computeCompactionBoundary t keepItems keepChars) ↔
      CutsNoBatch t (t.length - longestTail t keepItems keepChars) := by
  rw [← pullBack_keeps_iff, ← computeCompactionBoundary_eq]
  constructor
  · intro h
    exact h.1
  · intro h
    refine ⟨h, fun hpos => ?_⟩
    have hne : t ≠ [] := by
      intro hnil
      rw [hnil] at hpos
      exact absurd hpos (Nat.lt_irrefl 0)
    exact computeCompactionBoundary_lt keepItems keepChars hne

/-- The id of a call of a batch. -/
def batchId (n : ℕ) : Text := ofString "call_" ++ decimalText n

/-- A request, eleven calls that the model makes at once, and their outputs. -/
def batchTranscript : List JsonObject :=
  userMessageInput (ofString "all") ::
    ((List.range 11).map (fun n => functionCall (batchId n) (ofString "lookup")) ++
      (List.range 11).map fun n => functionCallOutput (batchId n) (ofString "ok"))

/-- The first two calls of the batch go into the summary, and their outputs stay. -/
theorem batch_split : AnswersCalls batchTranscript ∧
    ¬ KeepsExchanges batchTranscript (computeCompactionBoundary batchTranscript keepRecentItems keepRecentChars) := by
  constructor
  · intro j hj
    have hshort : j < 23 := by
      by_contra hlong
      rw [typeAt, List.getElem?_eq_none (by simpa [batchTranscript] using hlong)] at hj
      cases hj
    have hpaired : ∀ j < 23, typeAt batchTranscript j = some functionCallOutputType →
        ((batchTranscript[j]?.bind fun item => item.readString callIdKey) = some (batchId (j - 12)) ∧
          typeAt batchTranscript (j - 11) = some functionCallType ∧
          (batchTranscript[j - 11]?.bind fun item => item.readString callIdKey) = some (batchId (j - 12)) ∧
          j - 11 < j) := by
      decide
    obtain ⟨hout, htype, hcall, hlt⟩ := hpaired j hshort hj
    exact ⟨batchId (j - 12), j - 11, ⟨hj, hout⟩, ⟨htype, hcall⟩, hlt⟩
  · intro h
    have hboundary : computeCompactionBoundary batchTranscript keepRecentItems keepRecentChars = 3 := by decide
    rw [hboundary] at h
    have hcall : CallAt batchTranscript 1 (batchId 0) := ⟨by decide, by decide⟩
    have hout : OutputAt batchTranscript 12 (batchId 0) := ⟨by decide, by decide⟩
    exact h.1 1 12 (batchId 0) hcall hout ⟨by omega, by omega⟩

end AgentDesk
