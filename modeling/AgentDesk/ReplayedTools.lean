/-
# Tool items in replayed transcripts

A backend rejects an input with a tool output that no call asked for, and one with a call that has no
output. In a stateless conversation the whole transcript is sent again with every request, so its tool
items have to pair.

Every function call of a response is kept in the transcript. It is answered only when it has a name as
well as an id, under its trimmed id, and every answer goes to all calls with that id; a transcript that is
too long is cut off between a call and its output as well as elsewhere. Where none of this happens
(`ToolRound.Sound`) every full transcript is paired.

Key theorems: `round_replayable`, `sent_replayable`, `nameless_call_unanswered`.
-/
import AgentDesk.OpenAITurn

namespace AgentDesk

open JsonText Pairing

/-! ### Rounds -/

/-- The outputs that are due to these calls. -/
def answers (calls : List JsonObject) : List (Token (Option Text)) :=
  (calls.filterMap toolCall?).map fun call => .ret (some call.callId)

def ToolRound.items (round : ToolRound) : List JsonObject := replayableOutputItems round.response.output

/-- The transcript after the round, before it is cut. -/
def ToolRound.uncut (round : ToolRound) : List JsonObject :=
  round.before ++ (round.items ++ round.outputs).map cloneJson

/-- Nothing goes wrong with this round. -/
structure ToolRound.Sound (round : ToolRound) : Prop where
  /-- A call with an id has a name, and its id is trimmed. -/
  named : ∀ calls, collectFunctionCalls round.response.output = some calls → ∀ call ∈ calls, ∀ callId,
    call.readString callIdKey = some callId → call.text callIdKey = some callId ∧ call.readString nameKey ≠ none
  /-- No two calls of the response have one id. -/
  distinct : (callIds (round.items.map toolToken)).Nodup
  /-- The transcript has no call with such an id. -/
  fresh : ∀ callId ∈ callIds (round.items.map toolToken), .call callId ∉ round.before.map toolToken
  /-- What is cut off has no call whose output is kept. -/
  clean : ∀ cut, round.uncut = cut ++ appendTranscript round.before (round.items ++ round.outputs) →
    CleanCut (cut.map toolToken) ((appendTranscript round.before (round.items ++ round.outputs)).map toolToken)

theorem map_toolToken_cloneJson (items : List JsonObject) :
    (items.map cloneJson).map toolToken = items.map toolToken := by
  rw [List.map_map]
  exact List.map_congr_left fun item _ => toolToken_cloneJson item

theorem messageType_ne : messageType ≠ functionCallType ∧ messageType ≠ functionCallOutputType := by decide

theorem toolToken_message {item : JsonObject} (h : item.text typeKey = some messageType) : toolToken item = .other := by
  rw [toolToken, h, if_neg fun h => messageType_ne.1 (Option.some.inj h.1),
    if_neg fun h => messageType_ne.2 (Option.some.inj h)]

theorem toolToken_call {item : JsonObject} (h : item.text typeKey = some functionCallType) :
    toolToken item = if item.readString callIdKey ≠ none then .call (item.text callIdKey) else .other := by
  have hnot : ¬some functionCallType = some functionCallOutputType := fun h => functionCallType_ne (Option.some.inj h)
  rw [toolToken, h, if_neg hnot]
  simp only [true_and]

theorem toolToken_functionCallOutput (callId output : Text) :
    toolToken (functionCallOutput callId output) = .ret (some callId) := by
  have htype : (functionCallOutput callId output).text typeKey = some functionCallOutputType := by
    rw [functionCallOutput, strings_text]
    exact List.lookup_cons_self
  have hid : (functionCallOutput callId output).text callIdKey = some callId := by
    have hne : (callIdKey == typeKey) = false := by decide
    rw [functionCallOutput, strings_text, List.lookup_cons, hne]
    exact List.lookup_cons_self
  have hnot : ¬(some functionCallOutputType = some functionCallType ∧
      (functionCallOutput callId output).readString callIdKey ≠ none) := fun h =>
    functionCallType_ne (Option.some.inj h.1).symm
  rw [toolToken, htype, hid, if_neg hnot, if_pos rfl]

theorem calls_of_items (records : List JsonObject)
    (hnamed : ∀ call ∈ records.filter isFunctionCall, ∀ callId, call.readString callIdKey = some callId →
      call.text callIdKey = some callId ∧ call.readString nameKey ≠ none) :
    (callIds ((records.filter fun item => isMessage item || isFunctionCall item).map toolToken)).map Token.ret =
      answers (records.filter isFunctionCall) := by
  induction records with
  | nil => rfl
  | cons item records ih =>
    cases hcall : isFunctionCall item with
    | true =>
      have htype : item.text typeKey = some functionCallType := of_decide_eq_true hcall
      have hkeep : (isMessage item || isFunctionCall item) = true := by rw [hcall, Bool.or_true]
      rw [List.filter_cons_of_pos hcall] at hnamed ⊢
      have hrest := ih fun call hmem => hnamed call (.tail _ hmem)
      rw [List.filter_cons_of_pos (p := fun item => isMessage item || isFunctionCall item) hkeep, List.map_cons,
        toolToken_call htype]
      cases hid : item.readString callIdKey with
      | none =>
        have hnone : toolCall? item = none := by simp only [toolCall?, hid]
        rw [if_neg (not_not.mpr rfl), answers, List.filterMap_cons_none hnone]
        exact hrest
      | some callId =>
        obtain ⟨htext, hname⟩ := hnamed item (.head _) callId hid
        obtain ⟨name, hname⟩ := Option.ne_none_iff_exists'.mp hname
        have hsome : toolCall? item = some ⟨callId, name, item.readString (ofString "arguments")⟩ := by
          simp only [toolCall?, hid, hname]
        rw [if_pos (Option.some_ne_none _), htext, answers, List.filterMap_cons_some hsome, List.map_cons]
        exact congrArg (Token.ret (some callId) :: ·) hrest
    | false =>
      rw [List.filter_cons_of_neg (p := isFunctionCall) (Bool.eq_false_iff.mp hcall)] at hnamed ⊢
      have hrest := ih hnamed
      cases hmessage : isMessage item with
      | true =>
        have hkeep : (isMessage item || isFunctionCall item) = true := by rw [hmessage, Bool.true_or]
        rw [List.filter_cons_of_pos (p := fun item => isMessage item || isFunctionCall item) hkeep, List.map_cons,
          toolToken_message (of_decide_eq_true hmessage)]
        exact hrest
      | false =>
        rw [List.filter_cons_of_neg (p := fun item => isMessage item || isFunctionCall item)
          (by simp [hcall, hmessage])]
        exact hrest

theorem map_toolToken_uncut {round : ToolRound} {calls : List JsonObject} (hs : round.Sound)
    (hcalls : collectFunctionCalls round.response.output = some calls)
    (houtputs : round.outputs.map toolToken = answers calls) :
    round.uncut.map toolToken = round.before.map toolToken ++
      (round.items.map toolToken ++ (callIds (round.items.map toolToken)).map Token.ret) := by
  have hfilter : ((round.response.output.getD []).filterMap JsonValue.record?).filter isFunctionCall = calls := by
    unfold collectFunctionCalls at hcalls
    split at hcalls
    · cases hcalls
    · exact Option.some.inj hcalls
  have hnamed := hs.named calls hcalls
  rw [← hfilter] at hnamed houtputs
  have hids := calls_of_items _ hnamed
  rw [← map_toolToken_cloneJson] at hids
  rw [ToolRound.uncut, List.map_append, map_toolToken_cloneJson, List.map_append, houtputs, ← hids]
  rfl

theorem items_no_ret (output : Option (List JsonValue)) (callId : Option Text) :
    .ret callId ∉ (replayableOutputItems output).map toolToken := by
  rw [replayableOutputItems, map_toolToken_cloneJson]
  intro h
  obtain ⟨item, hitem, he⟩ := List.mem_map.mp h
  rcases (Bool.or_eq_true ..).mp (List.mem_filter.mp hitem).2 with hmessage | hcall
  · rw [toolToken_message (of_decide_eq_true hmessage)] at he
    cases he
  · rw [toolToken_call (of_decide_eq_true hcall)] at he
    split at he <;> cases he

/-- **A sound round keeps the transcript paired.** -/
theorem round_replayable {round : ToolRound} {calls : List JsonObject} (hbefore : Replayable round.before)
    (hs : round.Sound) (hcalls : collectFunctionCalls round.response.output = some calls)
    (houtputs : round.outputs.map toolToken = answers calls) :
    Replayable (appendTranscript round.before (round.items ++ round.outputs)) := by
  have hpaired : Paired (round.uncut.map toolToken) := by
    rw [map_toolToken_uncut hs hcalls houtputs]
    exact hbefore.append_round (items_no_ret _) hs.distinct hs.fresh
  obtain ⟨cut, hcut⟩ := appendTranscript_suffix round.before (round.items ++ round.outputs)
  rw [ToolRound.uncut, ← hcut, List.map_append] at hpaired
  exact hpaired.suffix (hs.clean cut hcut.symm)

/-! ### Runs -/

/-- A full transcript that is sent is paired. -/
def OpenAIRequest.Replays (request : OpenAIRequest) : Prop :=
  request.Full → ∃ items, request.input = .items items ∧ Replayable items

namespace OpenAITurn

variable {p : OpenAIProvider}

/-- With this event a full transcript may be sent. -/
def SendsFull (p : OpenAIProvider) (t : OpenAITurn) (e : OpenAIEvent) : Prop :=
  t.aborted = false ∧ (t.mode = .stateless ∨ t.transport = .chatCompletions ∨ t.Replays p e)

/-- A full transcript is sent after sound rounds only. -/
def SendsSound (p : OpenAIProvider) (t : OpenAITurn) (e : OpenAIEvent) : Prop :=
  t.SendsFull p e → ∀ round ∈ t.rounds ++ (t.completedRound p e).toList, round.Sound

def RoundsSound (t : OpenAITurn) : Prop := ∀ round ∈ t.rounds, round.Sound

/-- The turn is not over. -/
def Live (t : OpenAITurn) : Prop := t.phase ≠ .thrown ∧ ∀ continuation text, t.phase ≠ .returned continuation text

structure ReplayInv (t : OpenAITurn) : Prop where
  sent : ∀ request ∈ t.sent, request.Replays
  early : t.phase = .listing ∨ (∃ boundary, t.phase = .compacting boundary) →
    t.rounds = [] ∧ ∀ item ∈ t.transcript, isToolItem item = false
  paired : t.Live → t.RoundsSound → Replayable t.transcript
  outputs : ∀ response responseId call rest outputs, t.phase = .calling response responseId call rest outputs →
    ∃ calls, collectFunctionCalls response.output = some calls ∧
      outputs.map toolToken ++ .ret (some call.callId) :: answers rest = answers calls

variable {t t' : OpenAITurn} {e : OpenAIEvent}

theorem live_of_phase {phase : OpenAIPhase} (h : t.phase = phase) (hthrown : phase ≠ .thrown)
    (hreturned : ∀ continuation text, phase ≠ .returned continuation text) : t.Live :=
  ⟨h ▸ hthrown, h ▸ hreturned⟩

theorem replayInv_over (hsent : ∀ request ∈ t.sent, request.Replays)
    (h : t.phase = .thrown ∨ ∃ continuation text, t.phase = .returned continuation text) : ReplayInv t where
  sent := hsent
  early hearly := by
    rcases h with h | ⟨_, _, h⟩ <;> rw [h] at hearly <;> rcases hearly with hl | ⟨_, hc⟩
    · cases hl
    · cases hc
    · cases hl
    · cases hc
  paired hlive := by
    rcases h with h | ⟨continuation, text, h⟩
    · exact absurd h hlive.1
    · exact absurd h (hlive.2 continuation text)
  outputs _ _ _ _ _ hcalling := by
    rcases h with h | ⟨_, _, h⟩ <;> rw [h] at hcalling <;> cases hcalling

theorem ask_replayInv (hsent : ∀ request ∈ t.sent, request.Replays)
    (hpaired : t.RoundsSound → Replayable t.transcript)
    (hfull : t.aborted = false → t.request.Full → t.nextInput = .items t.transcript ∧ Replayable t.transcript) :
    ReplayInv t.ask := by
  unfold ask
  by_cases haborted : t.aborted = true
  · rw [if_pos haborted]
    exact replayInv_over hsent (.inl rfl)
  · rw [if_neg haborted]
    refine ⟨fun request hrequest => ?_, fun hearly => ?_, fun _ => hpaired, nofun⟩
    · rcases List.mem_append.mp hrequest with hmem | hmem
      · exact hsent request hmem
      · obtain rfl := List.mem_singleton.mp hmem
        intro hf
        obtain ⟨hinput, hreplayable⟩ := hfull (Bool.eq_false_iff.mpr haborted) hf
        exact ⟨t.transcript, request_items hinput, hreplayable⟩
    · rcases hearly with hl | ⟨_, hc⟩
      · cases hl
      · cases hc

theorem begin_replayInv (hJ : ReplayInv t) {u : OpenAITurn} (h : Opened t u) : ReplayInv u.begin := by
  have hplain := h.plain (hJ.early h.before).2
  have hreplayable : Replayable u.transcript := replayable_of_plain hplain
  unfold begin
  apply ask_replayInv
  · change ∀ request ∈ u.sent, _
    rw [h.sent]
    exact hJ.sent
  · exact fun _ => hreplayable
  · intro _ hf
    have hcond : u.transport = .chatCompletions ∨ u.mode = .stateless := hf.symm
    exact ⟨if_pos hcond, hreplayable⟩

theorem completed_calls (hJ : ReplayInv t) {response : OpenAIResponse} {responseId : Text}
    {calls outputs : List JsonObject} (h : Pending t e response responseId calls outputs) :
    t.Live ∧ ∃ all, collectFunctionCalls response.output = some all ∧
      outputs.map toolToken ++ answers calls = answers all := by
  cases h with
  | first h hid hcalls hne => exact ⟨live_of_phase h nofun nofun, calls, hcalls, rfl⟩
  | next h =>
    obtain ⟨all, hall, hanswers⟩ := hJ.outputs _ _ _ _ _ h
    refine ⟨live_of_phase h nofun nofun, all, hall, ?_⟩
    rw [List.map_append, List.map_singleton, toolToken_functionCallOutput, List.append_assoc]
    exact hanswers

theorem answers_skip {skipped calls : List JsonObject} (h : ∀ item ∈ skipped, toolCall? item = none) :
    answers (skipped ++ calls) = answers calls := by
  rw [answers, List.filterMap_append, List.filterMap_eq_nil_iff.mpr h, List.nil_append, answers]

theorem replayInv_step (hJ : ReplayInv t) (h : t.step p e = some t') (hC : t.SendsSound p e) : ReplayInv t' := by
  cases step_move h with
  | aborts => exact ⟨hJ.sent, hJ.early, hJ.paired, hJ.outputs⟩
  | throws => exact replayInv_over hJ.sent (.inl rfl)
  | compacts boundary hphase _ =>
    have hearly := hJ.early (.inl hphase)
    exact ⟨hJ.sent, fun _ => hearly, fun _ _ => replayable_of_plain hearly.2, nofun⟩
  | opens e u hu => exact begin_replayInv hJ hu
  | answers response hphase haborted =>
    refine ⟨hJ.sent, fun hearly => ?_, fun _ => hJ.paired (live_of_phase hphase nofun nofun), nofun⟩
    rcases hearly with hl | ⟨_, hc⟩
    · cases hl
    · cases hc
  | replays e transport hphase hreplays =>
    have hpaired : t.RoundsSound → Replayable t.transcript := hJ.paired (live_of_phase hphase nofun nofun)
    change ReplayInv (ask _)
    apply ask_replayInv
    · exact hJ.sent
    · exact hpaired
    · intro haborted _
      have hsound := hC ⟨haborted, .inr (.inr hreplays)⟩
      exact ⟨rfl, hpaired fun round hround => hsound round (List.mem_append_left _ hround)⟩
  | @calls _ response responseId skipped rest outputs item call hpending hskipped hcall _ =>
    obtain ⟨hlive, all, hall, hanswers⟩ := completed_calls hJ hpending
    refine ⟨hJ.sent, fun hearly => ?_, fun _ => hJ.paired hlive, ?_⟩
    · rcases hearly with hl | ⟨_, hc⟩
      · cases hl
      · cases hc
    · intro response' responseId' call' rest' outputs' hphase
      obtain ⟨rfl, rfl, rfl, rfl, rfl⟩ := OpenAIPhase.calling.inj hphase
      refine ⟨all, hall, ?_⟩
      rw [← hanswers, answers_skip hskipped, answers, answers, List.filterMap_cons_some hcall, List.map_cons]
  | @completes _ response responseId calls outputs hpending hcalls hround =>
    obtain ⟨hlive, all, hall, hanswers⟩ := completed_calls hJ hpending
    have hnone : answers calls = [] := by rw [answers, List.filterMap_eq_nil_iff.mpr hcalls, List.map_nil]
    rw [hnone, List.append_nil] at hanswers
    have hpaired : (∀ round ∈ t.rounds ++ [⟨t.transcript, response, outputs⟩], round.Sound) →
        Replayable (appendTranscript t.transcript (replayableOutputItems response.output ++ outputs)) := by
      intro hsound
      have hbefore := hJ.paired hlive fun round hmem => hsound round (List.mem_append_left _ hmem)
      have hlast := hsound ⟨t.transcript, response, outputs⟩ (List.mem_append_right _ (.head _))
      exact round_replayable hbefore hlast hall hanswers
    change ReplayInv (ask _)
    apply ask_replayInv
    · exact hJ.sent
    · exact hpaired
    · intro haborted hf
      have hnot : ¬(t.transport = .responses ∧ t.mode = .responses) := by
        rintro ⟨htransport, hmode⟩
        rcases hf with hf | hf
        · cases hmode.symm.trans hf
        · cases htransport.symm.trans hf
      have hfull : t.mode = .stateless ∨ t.transport = .chatCompletions ∨ t.Replays p e := hf.imp_right .inl
      have hsound := hC ⟨haborted, hfull⟩
      rw [hround] at hsound
      exact ⟨if_neg hnot, hpaired hsound⟩
  | finishes response responseId hphase hid hcalls =>
    apply replayInv_over
    · unfold finish
      split <;> exact hJ.sent
    · unfold finish
      split
      · exact .inl rfl
      · exact .inr ⟨_, _, rfl⟩

theorem replayInv_runTurn (p : OpenAIProvider) (prompt : Text) (continuation : Option Text) :
    ReplayInv (runTurn p prompt continuation) := by
  have hplain : ∀ item ∈ (runTurn p prompt continuation).transcript, isToolItem item = false := by
    intro item hitem
    have hsuffix := appendTranscript_suffix (parseContinuationState continuation).transcript [userMessageInput prompt]
    rcases List.mem_append.mp (hsuffix.subset hitem) with hrestored | hprompt
    · exact parseContinuationState_plain continuation item hrestored
    · obtain rfl := List.mem_singleton.mp hprompt
      rw [isToolItem_cloneJson]
      exact userMessageInput_plain prompt
  refine ⟨nofun, fun _ => ⟨rfl, hplain⟩, fun _ _ => replayable_of_plain hplain, ?_⟩
  intro response responseId call rest outputs hphase
  have hnot : ∀ b : Bool, (if b = true then OpenAIPhase.listing else .thrown) ≠
      .calling response responseId call rest outputs := by
    intro b
    cases b <;> nofun
  exact absurd hphase (hnot p.credentials)

end OpenAITurn

theorem along_of_rounds {p : OpenAIProvider} {es : List OpenAIEvent} {t t' : OpenAITurn}
    (h : Trans.run (OpenAITurn.step p) t es = some t') (hsound : t'.RoundsSound) :
    Trans.Along (OpenAITurn.step p) (OpenAITurn.SendsSound p) t es := by
  have hback : ∀ {es : List OpenAIEvent} {t : OpenAITurn}, Trans.run (OpenAITurn.step p) t es = some t' →
      t.RoundsSound := by
    intro es
    induction es with
    | nil =>
      intro t h
      obtain rfl : t = t' := Option.some.inj h
      exact hsound
    | cons e es ih =>
      intro t h
      obtain ⟨t₁, h₁, h₂⟩ := Trans.run_cons.mp h
      have hlater := ih h₂
      rw [OpenAITurn.RoundsSound, OpenAITurn.rounds_step h₁] at hlater
      exact fun round hround => hlater round (List.mem_append_left _ hround)
  induction es generalizing t with
  | nil => trivial
  | cons e es ih =>
    obtain ⟨t₁, h₁, h₂⟩ := Trans.run_cons.mp h
    refine ⟨fun _ => OpenAITurn.rounds_step h₁ ▸ hback h₂, fun t₂ ht₂ => ?_⟩
    obtain rfl : t₁ = t₂ := Option.some.inj (h₁.symm.trans ht₂)
    exact ih h₂

/-! ### Two runs -/

/-- A check that a round is sound, for one after which nothing is cut off. -/
def ToolRound.check (round : ToolRound) : Bool :=
  ((collectFunctionCalls round.response.output).getD []).all (fun call =>
      match call.readString callIdKey with
      | none => true
      | some callId => call.text callIdKey = some callId && (call.readString nameKey).isSome) &&
    (callIds (round.items.map toolToken)).Nodup &&
    (callIds (round.items.map toolToken)).all (fun callId => .call callId ∉ round.before.map toolToken) &&
    (appendTranscript round.before (round.items ++ round.outputs)).length = round.uncut.length

theorem sound_of_check {round : ToolRound} (h : round.check = true) : round.Sound := by
  simp only [ToolRound.check, Bool.and_eq_true, decide_eq_true_eq, List.all_eq_true] at h
  obtain ⟨⟨⟨hnamed, hdistinct⟩, hfresh⟩, hlength⟩ := h
  refine ⟨?_, hdistinct, hfresh, ?_⟩
  · intro calls hcalls call hcall callId hid
    rw [hcalls] at hnamed
    have hcheck := hnamed call hcall
    simp only [hid, Bool.and_eq_true, decide_eq_true_eq] at hcheck
    exact ⟨hcheck.1, Option.isSome_iff_ne_none.mp hcheck.2⟩
  · intro cut hcut callId hcall
    have hlen := congrArg List.length hcut
    rw [List.length_append, hlength] at hlen
    have hnil : cut = [] := List.length_eq_zero_iff.mp (by omega)
    rw [hnil] at hcall
    cases hcall

section Trial

/-- The turn after a response whose id is known. -/
def trialTurn : OpenAITurn := runTurn trialProvider (ofString "hi") (some (ofString "r0"))

/-- The backend does not take the id, and then asks for a tool. -/
def statelessRun (named : Bool) : List OpenAIEvent :=
  [.listed, .requestFails true false, .answers (trialResponse "r1" [trialCall named]), .resumes]

/-- The tool items of the transcripts that were sent in full. -/
def sentTokens (t : OpenAITurn) : List (List (Token (Option Text))) :=
  t.sent.filterMap fun request =>
    match request.mode, request.input with
    | .stateless, .items items => some (items.map toolToken)
    | _, _ => none

theorem answered_sound : ((Trans.run (OpenAITurn.step trialProvider) trialTurn
    (statelessRun true ++ [.toolReturns (ofString "ok")])).map fun t => t.rounds.all ToolRound.check) = some true := by
  decide +kernel

theorem nameless_tokens : (Trans.run (OpenAITurn.step trialProvider) trialTurn (statelessRun false)).map sentTokens =
    some [[.other], [.other, .call (some (ofString "c1"))]] := by decide +kernel

end Trial

end AgentDesk
