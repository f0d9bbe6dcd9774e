/-
# A continuation that is stored and restored again and again

Between two turns the provider's state is a text: `serializeContinuationState` writes it and
`parseContinuationState` reads it, and both take the tool items out of the transcript and cut off its beginning
(`providers/openai.ts`). The first time through may lose history. What has been restored once is settled: it has
no tool items, is within the bounds, and consists of copies through JSON, which are their own copies; so it comes
back as it is, however often it is stored.

* `dropOldest_of_bounded`, `dropOldest_bounded`: what has been trimmed stays.
* `storedTranscript_eq`: what is restored is the copy of an end of the transcript without its tool items.
* `reload_settled`: what is settled comes back.
* `continuation_stable`: **both halves of it**, for every text and every state.
-/
import AgentDesk.JsonCopies
import AgentDesk.Transcripts

namespace AgentDesk

open JsonText

/-- One cycle of storing and restoring. -/
def reload (state : ContinuationState) : ContinuationState :=
  parseContinuationState (some (serializeContinuationState state))

/-! ### Trimming twice -/

/-- Within the characters, or no more than one item. -/
def BoundedTo (maxChars : ℕ) (items : List JsonObject) : Prop :=
  totalTranscriptChars items ≤ maxChars ∨ items.length ≤ 1

theorem dropOldest_of_bounded {maxChars : ℕ} : ∀ {items : List JsonObject}, BoundedTo maxChars items →
    dropOldest maxChars items = items
  | [], _ => rfl
  | [_], _ => rfl
  | item :: next :: items, h => by
    have hchars : ¬ maxChars < totalTranscriptChars (item :: next :: items) := by
      rcases h with hchars | hone
      · omega
      · simp at hone
    rw [dropOldest, if_neg hchars]

theorem dropOldest_bounded (maxChars : ℕ) : ∀ items : List JsonObject, BoundedTo maxChars (dropOldest maxChars items)
  | [] => .inr (Nat.zero_le 1)
  | [_] => .inr (Nat.le_refl 1)
  | item :: next :: items => by
    rw [dropOldest]
    by_cases hbig : maxChars < totalTranscriptChars (item :: next :: items)
    · rw [if_pos hbig]
      exact dropOldest_bounded maxChars (next :: items)
    · rw [if_neg hbig]
      exact .inl (Nat.le_of_not_lt hbig)

theorem trimTranscriptTo_bounded (items : List JsonObject) (maxChars : ℕ) :
    (trimTranscriptTo items maxChars).length ≤ maxReplayTranscriptItems ∧
      BoundedTo maxChars (trimTranscriptTo items maxChars) := by
  refine ⟨?_, dropOldest_bounded _ _⟩
  have hle := (dropOldest_suffix maxChars (items.drop (items.length - maxReplayTranscriptItems))).length_le
  rw [List.length_drop] at hle
  rw [trimTranscriptTo]
  omega

theorem trimTranscriptTo_of_bounded {items : List JsonObject} {maxChars : ℕ}
    (hlength : items.length ≤ maxReplayTranscriptItems) (h : BoundedTo maxChars items) :
    trimTranscriptTo items maxChars = items := by
  have hnone : items.length - maxReplayTranscriptItems = 0 := by omega
  rw [trimTranscriptTo, hnone, List.drop_zero, dropOldest_of_bounded h]

/-! ### Copies -/

theorem transcriptSize_cloneJson (item : JsonObject) : transcriptSize (cloneJson item) = transcriptSize item :=
  congrArg List.length (stringify_cloneJson item)

theorem totalTranscriptChars_clones (items : List JsonObject) :
    totalTranscriptChars (items.map cloneJson) = totalTranscriptChars items := by
  have hsizes : (items.map cloneJson).map transcriptSize = items.map transcriptSize := by
    rw [List.map_map]
    exact List.map_congr_left fun item _ => transcriptSize_cloneJson item
  rw [totalTranscriptChars, hsizes, totalTranscriptChars]

theorem BoundedTo.clones {maxChars : ℕ} {items : List JsonObject} (h : BoundedTo maxChars items) :
    BoundedTo maxChars (items.map cloneJson) := by
  unfold BoundedTo
  rw [totalTranscriptChars_clones, List.length_map]
  exact h

theorem clones_clones (items : List JsonObject) : (items.map cloneJson).map cloneJson = items.map cloneJson := by
  rw [List.map_map]
  exact List.map_congr_left fun item _ => cloneJson_cloneJson item

theorem strip_of_plain {items : List JsonObject} (h : ∀ item ∈ items, isToolItem item = false) :
    stripStaleToolCallTranscript items = items := by
  refine List.filter_eq_self.mpr fun item hitem => ?_
  rw [h item hitem]
  rfl

theorem trimmed_plain (items : List JsonObject) (maxChars : ℕ) :
    ∀ item ∈ trimTranscriptTo (stripStaleToolCallTranscript items) maxChars, isToolItem item = false := by
  intro item hitem
  have hmem := (trimTranscriptTo_suffix _ _).subset hitem
  simpa using (List.mem_filter.mp hmem).2

/-- **What is restored of a transcript**: the copy of what is stored of it. -/
theorem storedTranscript_eq (items : List JsonObject) :
    storedTranscript items = (trimTranscriptForPersist (stripStaleToolCallTranscript items)).map cloneJson := by
  have hplain : ∀ item ∈ (trimTranscriptForPersist (stripStaleToolCallTranscript items)).map cloneJson,
      isToolItem item = false := by
    intro item hitem
    obtain ⟨item', hitem', rfl⟩ := List.mem_map.mp hitem
    rw [isToolItem_cloneJson]
    exact trimmed_plain items _ item' hitem'
  obtain ⟨hlength, hbounded⟩ := trimTranscriptTo_bounded (stripStaleToolCallTranscript items) maxPersistTranscriptChars
  rw [storedTranscript, clones_clones, strip_of_plain hplain]
  exact trimTranscriptTo_of_bounded (by rw [List.length_map]; exact hlength) hbounded.clones

/-! ### Settled states -/

/-- What restoring gives: the transcript is bounded, plain, and its own copy. -/
structure ContinuationState.Restored (state : ContinuationState) : Prop where
  mode : state.transport = .chatCompletions → state.mode = .stateless
  responseId : state.responseId.bind nonBlank = state.responseId
  plain : ∀ item ∈ state.transcript, isToolItem item = false
  length : state.transcript.length ≤ maxReplayTranscriptItems
  bounded : BoundedTo maxPersistTranscriptChars state.transcript
  copies : state.transcript.map cloneJson = state.transcript

theorem nonBlank_bind (t : Option Text) : (t.bind nonBlank).bind nonBlank = t.bind nonBlank := by
  cases h : t.bind nonBlank with
  | none => rfl
  | some u =>
    obtain ⟨t', -, ht'⟩ := Option.bind_eq_some_iff.mp h
    exact nonBlank_of_nonBlank ht'

theorem cloneFields_copy {fields : List (Text × Value)} (ho : (Json.obj fields : Value).Ordered) :
    cloneJson (cloneFields fields) = cloneFields fields := cloneJson_cloneJson ⟨fields, ho⟩

theorem clonedRecords_copies {items : List Value} (ho : AllNamesList InOrder items) :
    ∀ item ∈ clonedRecords items, cloneJson item = item := by
  intro item hitem
  obtain ⟨v, hv, hclone⟩ := List.mem_filterMap.mp hitem
  have hordered : v.Ordered := allNamesList_mem ho hv
  cases v with
  | obj fields =>
    obtain rfl := Option.some.inj hclone
    exact cloneFields_copy hordered
  | _ => cases hclone

theorem map_cloneJson_of {items : List JsonObject} (h : ∀ item ∈ items, cloneJson item = item) :
    items.map cloneJson = items := by
  rw [List.map_congr_left h, List.map_id']

theorem restored_transcript {v : Option Value} (ho : ∀ v' ∈ v, v'.Ordered) (state : ContinuationState)
    (htranscript : state.transcript = restoredTranscript v)
    (hmode : state.transport = .chatCompletions → state.mode = .stateless)
    (hid : state.responseId.bind nonBlank = state.responseId) : state.Restored := by
  have hkept : ∀ items : List JsonObject, (∀ item ∈ items, cloneJson item = item) →
      state.transcript = trimTranscriptForPersist (stripStaleToolCallTranscript items) → state.Restored := by
    intro items hcopies heq
    obtain ⟨hlength, hbounded⟩ :=
      trimTranscriptTo_bounded (stripStaleToolCallTranscript items) maxPersistTranscriptChars
    refine ⟨hmode, hid, ?_, heq ▸ hlength, heq ▸ hbounded, map_cloneJson_of fun item hitem => ?_⟩
    · rw [heq]
      exact trimmed_plain items _
    · rw [heq] at hitem
      have hmem := (trimTranscriptTo_suffix _ _).subset hitem
      exact hcopies item (List.mem_filter.mp hmem).1
  unfold restoredTranscript at htranscript
  split at htranscript
  · rename_i items
    exact hkept _ (clonedRecords_copies (ho _ rfl)) htranscript
  · have hnone : trimTranscriptForPersist (stripStaleToolCallTranscript []) = [] :=
      List.suffix_nil.mp (trimTranscriptTo_suffix _ _)
    exact hkept [] (fun item hitem => absurd hitem List.not_mem_nil) (htranscript.trans hnone.symm)

/-- **What is read is settled**, whatever the text. -/
theorem parseContinuationState_restored (raw : Option Text) : (parseContinuationState raw).Restored := by
  have hfresh : ∀ responseId : Option Text, responseId.bind nonBlank = responseId →
      (⟨2, .responses, .responses, responseId, []⟩ : ContinuationState).Restored := by
    intro responseId hid
    exact restored_transcript (v := none) (fun v hv => absurd hv (Option.not_mem_none v)) _ rfl (fun h => by cases h) hid
  unfold parseContinuationState
  cases hblank : raw.bind nonBlank with
  | none => exact hfresh none rfl
  | some legacyResponseId =>
    have hlegacy : (some legacyResponseId).bind nonBlank = some legacyResponseId := by
      have htwice := nonBlank_bind raw
      rw [hblank] at htwice
      exact htwice
    dsimp only
    split
    · rename_i fields hparse
      have hordered : (Json.obj fields : Value).Ordered := parse_ordered hparse
      split
      · exact hfresh _ hlegacy
      · refine restored_transcript (v := fields.lookup (ofString "transcript"))
          (fun v hv => lookup_ordered hordered hv) _ rfl (fun htransport => ?_) (nonBlank_bind _)
        dsimp only at htransport
        exact if_pos htransport
    · exact hfresh _ hlegacy

/-- What is settled comes back; an older version is stored as the newer. -/
theorem reload_settled {state : ContinuationState} (h : state.Restored) : reload state = { state with v := 2 } := by
  have hmode : (if state.transport = .chatCompletions then .stateless else state.mode) = state.mode := by
    by_cases hchat : state.transport = .chatCompletions
    · rw [if_pos hchat, h.mode hchat]
    · rw [if_neg hchat]
  have htranscript : storedTranscript state.transcript = state.transcript := by
    rw [storedTranscript_eq, strip_of_plain h.plain, trimTranscriptForPersist,
      trimTranscriptTo_of_bounded h.length h.bounded, h.copies]
  rw [reload, parse_serializeContinuationState, hmode, h.responseId, htranscript]

theorem reload_restored (state : ContinuationState) : (reload state).Restored := parseContinuationState_restored _

theorem reload_reload (state : ContinuationState) : reload (reload state) = reload state := by
  rw [reload_settled (reload_restored state), reload, parse_serializeContinuationState]

theorem reload_iterate (state : ContinuationState) : ∀ n, reload^[n + 1] state = reload state
  | 0 => by rw [Function.iterate_succ_apply', Function.iterate_zero_apply]
  | n + 1 => by rw [Function.iterate_succ_apply', reload_iterate state n, reload_reload]

/-! ### Both halves -/

/-- **Storing and restoring is stable and bounded.** What a text is read as comes back but for its version. Of any
state, what comes back has no tool items and is within the bounds, or is the last item alone; it is, copied through
JSON, an end of the transcript without its tool items; and no further cycle changes it. -/
theorem continuation_stable :
    (∀ raw, reload (parseContinuationState raw) = { parseContinuationState raw with v := 2 }) ∧
      ∀ state : ContinuationState,
        (∀ item ∈ (reload state).transcript, isToolItem item = false) ∧
        (reload state).transcript.length ≤ maxReplayTranscriptItems ∧
        (totalTranscriptChars (reload state).transcript ≤ maxPersistTranscriptChars ∨
          ∃ item, (stripStaleToolCallTranscript state.transcript).getLast? = some item ∧
            (reload state).transcript = [cloneJson item]) ∧
        (∃ kept, kept <:+ stripStaleToolCallTranscript state.transcript ∧
          (reload state).transcript = kept.map cloneJson ∧
          ∀ item ∈ kept, cloneJson item = item ∨ (Json.obj item.fields : Value).writable = false) ∧
        ∀ n, reload^[n + 1] state = reload state := by
  refine ⟨fun raw => reload_settled (parseContinuationState_restored raw), fun state => ?_⟩
  have hrestored := reload_restored state
  have htranscript : (reload state).transcript =
      (trimTranscriptForPersist (stripStaleToolCallTranscript state.transcript)).map cloneJson := by
    rw [← storedTranscript_eq, reload, parse_serializeContinuationState]
  have hsuffix : trimTranscriptForPersist (stripStaleToolCallTranscript state.transcript) <:+
      stripStaleToolCallTranscript state.transcript := trimTranscriptTo_suffix _ _
  have hlast := getLast?_trimTranscriptTo (stripStaleToolCallTranscript state.transcript) maxPersistTranscriptChars
  refine ⟨hrestored.plain, hrestored.length, ?_, ⟨_, hsuffix, htranscript, fun item _ => ?_⟩, reload_iterate state⟩
  · rcases hrestored.bounded with hchars | hone
    · exact .inl hchars
    · rw [htranscript, List.length_map] at hone
      rw [htranscript]
      rw [← trimTranscriptForPersist] at hlast
      rcases hkept : trimTranscriptForPersist (stripStaleToolCallTranscript state.transcript) with _ | ⟨item, rest⟩
      · exact .inl (Nat.zero_le _)
      · rw [hkept] at hone hlast
        have hrest : rest = [] := List.length_eq_zero_iff.mp (by simpa using hone)
        subst hrest
        exact .inr ⟨item, hlast.symm, rfl⟩
  · cases hwritable : (Json.obj item.fields : Value).writable with
    | true => exact .inl (cloneJson_of_writable hwritable)
    | false => exact .inr rfl

end AgentDesk
