/-
# What a stored continuation is resumed from

The continuation is stored after every round of tools, so that a turn that dies in the middle is taken up
where it stopped. Over the Responses API it holds the id of the last response, and the next turn sends
no more than its own message after that id. In the middle of a turn the last response is the one that
asked for the tools: what its id denotes ends with its own items, and the outputs are not among them.

* `parse_continuation`: what the next turn reads.
* `resumable_iff`: every continuation that is stored in a turn can be resumed exactly when no such round
  is completed in mode `responses`.
-/
import AgentDesk.OpenAITurn

namespace AgentDesk

open JsonText

def OpenAIResponse.records (response : OpenAIResponse) : List JsonObject :=
  (response.output.getD []).filterMap JsonValue.record?

/-- Every function call of the response is answered in what its id denotes, which ends with its items. -/
def OpenAIResponse.Settled (response : OpenAIResponse) : Prop :=
  ∀ before call after, response.records = before ++ call :: after → isFunctionCall call = true →
    ∃ output ∈ after, output.text typeKey = some functionCallOutputType ∧ call.text callIdKey ≠ none ∧
      output.text callIdKey = call.text callIdKey

/-- The id of a response that is settled. -/
def SettledId (received : List OpenAIResponse) (responseId : Text) : Prop :=
  ∃ response ∈ received, response.id.bind nonBlank = some responseId ∧ response.Settled

/-- The continuation refers to no response, or to one whose calls are answered. -/
def Resumable (received : List OpenAIResponse) (continuation : Text) : Prop :=
  ∀ responseId, (parseContinuationState (some continuation)).responseId = some responseId →
    SettledId received responseId

theorem SettledId.append {received : List OpenAIResponse} {responseId : Text} (h : SettledId received responseId)
    (more : List OpenAIResponse) : SettledId (received ++ more) responseId := by
  obtain ⟨response, hmem, hid, hsettled⟩ := h
  exact ⟨response, List.mem_append_left _ hmem, hid, hsettled⟩

theorem settled_of_no_calls {response : OpenAIResponse} (h : collectFunctionCalls response.output = some []) :
    response.Settled := by
  have hfilter : response.records.filter isFunctionCall = [] := by
    unfold collectFunctionCalls at h
    split at h
    · cases h
    · exact Option.some.inj h
  intro before call after hrecords hcall
  have hmem : call ∈ response.records := hrecords ▸ List.mem_append_right before (.head _)
  have hnone := List.filter_eq_nil_iff.mp hfilter call hmem
  exact absurd hcall hnone

namespace OpenAITurn

variable {p : OpenAIProvider} {t t' : OpenAITurn} {e : OpenAIEvent}

/-- The next turn reads the id that was stored. -/
theorem parse_continuation (t : OpenAITurn) {raw responseId : Text} (hid : nonBlank raw = some responseId) :
    (parseContinuationState (some (t.continuation responseId))).responseId =
      if t.mode = .responses then some responseId else none := by
  rw [continuation, parse_serializeContinuationState]
  cases t.mode with
  | responses => exact nonBlank_of_nonBlank hid
  | stateless => rfl

/-- A round that is completed in mode `responses` was asked for by a response that is settled. -/
def SettledRound (p : OpenAIProvider) (t : OpenAITurn) (e : OpenAIEvent) : Prop :=
  p.role = .execution → t.mode = .responses → ∀ round, t.completedRound p e = some round →
    ∀ responseId, round.response.id.bind nonBlank = some responseId → SettledId t.received responseId

structure ResumeInv (t : OpenAITurn) : Prop where
  resumable : ∀ continuation, t.persisted = some continuation → Resumable t.received continuation
  answered : ∀ response, t.phase = .answered response → response ∈ t.received
  calling : ∀ response responseId call rest outputs, t.phase = .calling response responseId call rest outputs →
    response ∈ t.received ∧ response.id.bind nonBlank = some responseId

theorem resumeInv_idle
    (hresumable : ∀ continuation, t.persisted = some continuation → Resumable t.received continuation)
    (hanswered : ∀ response, t.phase ≠ .answered response)
    (hcalling : ∀ response responseId call rest outputs, t.phase ≠ .calling response responseId call rest outputs) :
    ResumeInv t where
  resumable := hresumable
  answered response h := absurd h (hanswered response)
  calling _ _ _ _ _ h := absurd h (hcalling _ _ _ _ _)

theorem ask_resumeInv (hresumable : ∀ continuation, t.persisted = some continuation →
    Resumable t.received continuation) : ResumeInv t.ask := by
  unfold ask
  split
  · exact resumeInv_idle hresumable nofun nofun
  · exact resumeInv_idle hresumable nofun nofun

theorem pending_received (hJ : ResumeInv t) {response : OpenAIResponse} {responseId : Text}
    {calls outputs : List JsonObject} (h : Pending t e response responseId calls outputs) :
    response ∈ t.received ∧ response.id.bind nonBlank = some responseId := by
  cases h with
  | first hphase hid => exact ⟨hJ.answered _ hphase, hid⟩
  | next hphase => exact hJ.calling _ _ _ _ _ hphase

theorem persisted_resumable {u : OpenAITurn} {response : OpenAIResponse} {responseId : Text}
    (hid : response.id.bind nonBlank = some responseId) {persisted : Option Text} {received : List OpenAIResponse}
    (hold : ∀ continuation, persisted = some continuation → Resumable received continuation)
    (hnew : p.role = .execution → u.mode = .responses → SettledId received responseId) :
    ∀ continuation, persistExecution p persisted (u.continuation responseId) = some continuation →
      Resumable received continuation := by
  intro continuation hcontinuation
  obtain ⟨raw, -, hraw⟩ := Option.bind_eq_some_iff.mp hid
  unfold persistExecution at hcontinuation
  split at hcontinuation
  · rename_i hrole
    obtain rfl := Option.some.inj hcontinuation
    intro responseId' hread
    rw [parse_continuation u hraw] at hread
    split at hread
    · rename_i hmode
      obtain rfl := Option.some.inj hread
      exact hnew hrole hmode
    · cases hread
  · exact hold continuation hcontinuation

theorem resumeInv_step (hJ : ResumeInv t) (h : t.step p e = some t') (hC : t.SettledRound p e) : ResumeInv t' := by
  cases step_move h with
  | aborts => exact ⟨hJ.resumable, hJ.answered, hJ.calling⟩
  | throws => exact resumeInv_idle hJ.resumable nofun nofun
  | compacts => exact resumeInv_idle hJ.resumable nofun nofun
  | opens e u hu =>
    apply ask_resumeInv
    change ∀ continuation, u.persisted = some continuation → Resumable u.received continuation
    rw [hu.persisted, hu.received]
    exact hJ.resumable
  | answers response hphase haborted =>
    refine ⟨fun continuation hcontinuation responseId hread => ?_, fun response' hphase' => ?_, nofun⟩
    · exact (hJ.resumable continuation hcontinuation responseId hread).append [response]
    · obtain rfl := OpenAIPhase.answered.inj hphase'
      exact List.mem_append_right _ (.head _)
  | replays e transport hphase hreplays =>
    apply ask_resumeInv
    exact hJ.resumable
  | calls hpending hskipped hcall hround =>
    refine ⟨hJ.resumable, nofun, fun response' responseId' call' rest' outputs' hphase => ?_⟩
    obtain ⟨rfl, rfl, rfl, rfl, rfl⟩ := OpenAIPhase.calling.inj hphase
    exact pending_received hJ hpending
  | @completes _ response responseId calls outputs hpending hcalls hround =>
    have hid := (pending_received hJ hpending).2
    apply ask_resumeInv
    apply persisted_resumable hid hJ.resumable
    intro hrole hmode
    exact hC hrole hmode _ hround responseId hid
  | finishes response responseId hphase hid hcalls =>
    have hmem := hJ.answered response hphase
    have hresumable : ∀ continuation, (t.finish p response responseId).persisted = some continuation →
        Resumable (t.finish p response responseId).received continuation := by
      have hpersisted : ∀ u : OpenAITurn, ∀ continuation,
          persistExecution p t.persisted (u.continuation responseId) = some continuation →
          Resumable t.received continuation := fun u =>
        persisted_resumable hid hJ.resumable fun _ _ => ⟨response, hmem, hid, settled_of_no_calls hcalls⟩
      unfold finish
      split <;> exact hpersisted _
    apply resumeInv_idle hresumable
    · unfold finish
      split <;> nofun
    · unfold finish
      split <;> nofun

theorem ask_persisted (u : OpenAITurn) : u.ask.persisted = u.persisted ∧ u.ask.received = u.received := by
  unfold ask
  split <;> exact ⟨rfl, rfl⟩

theorem completeRound_eq_ask (t : OpenAITurn) (response : OpenAIResponse) (responseId : Text)
    (outputs : List JsonObject) : ∃ u : OpenAITurn, t.completeRound p response responseId outputs = u.ask ∧
      u.mode = t.mode ∧ u.received = t.received ∧
      u.persisted = persistExecution p t.persisted (u.continuation responseId) := ⟨_, rfl, rfl, rfl, rfl⟩

theorem settledRound_of_resumable (hJ : ResumeInv t) (h : t.step p e = some t')
    (hresumable : ∀ continuation, t'.persisted = some continuation → Resumable t'.received continuation) :
    t.SettledRound p e := by
  intro hrole hmode round hround responseId hid
  rcases move_round (step_move h) with ⟨hnone, -⟩ | ⟨response, responseId', calls, outputs, hpending, hsome, rfl⟩
  · cases hnone.symm.trans hround
  · obtain rfl := Option.some.inj (hsome.symm.trans hround)
    have hid' := (pending_received hJ hpending).2
    obtain rfl : responseId' = responseId := Option.some.inj (hid'.symm.trans hid)
    obtain ⟨raw, -, hraw⟩ := Option.bind_eq_some_iff.mp hid
    obtain ⟨u, hu, humode, hureceived, hupersisted⟩ := completeRound_eq_ask (p := p) t response responseId' outputs
    rw [hu, (ask_persisted u).1, (ask_persisted u).2, hureceived] at hresumable
    have hstored : u.persisted = some (u.continuation responseId') := hupersisted.trans (if_pos hrole)
    have hread := hresumable _ hstored responseId'
    rw [parse_continuation u hraw, humode, if_pos hmode] at hread
    exact hread rfl

theorem resumeInv_runTurn (p : OpenAIProvider) (prompt : Text) (continuation : Option Text) :
    ResumeInv (runTurn p prompt continuation) := by
  have hphase : (runTurn p prompt continuation).phase = if p.credentials = true then .listing else .thrown := rfl
  apply resumeInv_idle
  · nofun
  · intro response
    rw [hphase]
    split <;> nofun
  · intro response responseId call rest outputs
    rw [hphase]
    split <;> nofun

theorem resumable_iff_of_inv {es : List OpenAIEvent} (hJ : ResumeInv t) (h : Trans.run (step p) t es = some t') :
    Trans.Always (step p) (fun t => ∀ continuation, t.persisted = some continuation →
        Resumable t.received continuation) t es ↔ Trans.Along (step p) (SettledRound p) t es :=
  Trans.always_iff_along_of (fun _ hJ => hJ.resumable) (fun _ _ _ hJ hstep hC => resumeInv_step hJ hstep hC)
    (fun _ _ _ hJ hstep hresumable => settledRound_of_resumable hJ hstep hresumable) hJ h

end OpenAITurn

/-- **When every stored continuation can be resumed.** -/
theorem resumable_iff (p : OpenAIProvider) (prompt : Text) (continuation : Option Text) (es : List OpenAIEvent)
    (t : OpenAITurn) (h : Trans.run (OpenAITurn.step p) (runTurn p prompt continuation) es = some t) :
    Trans.Always (OpenAITurn.step p) (fun t => ∀ continuation, t.persisted = some continuation →
        Resumable t.received continuation) (runTurn p prompt continuation) es ↔
      Trans.Along (OpenAITurn.step p) (OpenAITurn.SettledRound p) (runTurn p prompt continuation) es :=
  OpenAITurn.resumable_iff_of_inv (OpenAITurn.resumeInv_runTurn p prompt continuation) h

/-! ### A round of tools over the Responses API -/

/-- Calls, and no outputs. -/
def OpenAIResponse.leavesCalls (response : OpenAIResponse) : Bool :=
  response.records.any isFunctionCall &&
    response.records.all fun item => item.text typeKey ≠ some functionCallOutputType

theorem not_settled_of_leavesCalls {response : OpenAIResponse} (h : response.leavesCalls = true) :
    ¬response.Settled := by
  obtain ⟨hany, hall⟩ := (Bool.and_eq_true ..).mp h
  obtain ⟨call, hmem, hcall⟩ := List.any_eq_true.mp hany
  obtain ⟨before, after, hrecords⟩ := List.append_of_mem hmem
  intro hsettled
  obtain ⟨output, houtput, htype, -⟩ := hsettled before call after hrecords hcall
  have hnot := List.all_eq_true.mp hall output (hrecords ▸ List.mem_append_right before (.tail _ houtput))
  exact of_decide_eq_true hnot htype

section Trial

def freshTurn : OpenAITurn := runTurn trialProvider (ofString "hi") none

def askedRun : List OpenAIEvent := [.listed, .answers (trialResponse "r1" [trialCall true]), .resumes]

/-- Before the tool returns: the event will complete a round of the response, which has calls only. -/
def unsettledAt (t : OpenAITurn) (e : OpenAIEvent) : Bool :=
  t.mode = .responses && (t.completedRound trialProvider e).any (fun round =>
    round.response.id.bind nonBlank = some (ofString "r1")) && t.received.all OpenAIResponse.leavesCalls

theorem asked_unsettled : (Trans.run (OpenAITurn.step trialProvider) freshTurn askedRun).map (fun t =>
    unsettledAt t (.toolReturns (ofString "ok"))) = some true := by decide +kernel

theorem asked_returns : ((Trans.run (OpenAITurn.step trialProvider) freshTurn
    (askedRun ++ [.toolReturns (ofString "ok")])).map fun t => t.persisted.isSome) = some true := by decide +kernel

end Trial

/-- The continuation is stored when the tool has returned, before the model was told so. -/
theorem stored_before_outputs : ¬∀ (p : OpenAIProvider) (prompt : Text) (continuation : Option Text)
    (es : List OpenAIEvent) (t : OpenAITurn),
    Trans.run (OpenAITurn.step p) (runTurn p prompt continuation) es = some t →
    ∀ stored, t.persisted = some stored → Resumable t.received stored := by
  intro hall
  obtain ⟨t, ht, hfacts⟩ := Option.map_eq_some_iff.mp asked_unsettled
  obtain ⟨t', ht', -⟩ := Option.map_eq_some_iff.mp asked_returns
  have halways : Trans.Always (OpenAITurn.step trialProvider) (fun t => ∀ continuation,
      t.persisted = some continuation → Resumable t.received continuation) freshTurn
      (askedRun ++ [.toolReturns (ofString "ok")]) := by
    intro es₁ es₂ s₁ _ h₁
    exact hall _ _ _ es₁ s₁ h₁
  have hinv : OpenAITurn.ResumeInv freshTurn := OpenAITurn.resumeInv_runTurn trialProvider (ofString "hi") none
  have halong := (OpenAITurn.resumable_iff_of_inv hinv ht').mp halways
  have hround := halong.at_step ht
  simp only [unsettledAt, Bool.and_eq_true, decide_eq_true_eq] at hfacts
  obtain ⟨⟨hmode, hany⟩, hreceived⟩ := hfacts
  obtain ⟨round, hsome, hid⟩ := (Option.any_eq_true ..).mp hany
  obtain ⟨response, hmem, -, hsettled⟩ := hround rfl hmode round hsome _ (of_decide_eq_true hid)
  exact not_settled_of_leavesCalls (List.all_eq_true.mp hreceived response hmem) hsettled

/-- The same run. -/
theorem one_round_resumable_iff : ∃ t, Trans.run (OpenAITurn.step trialProvider) freshTurn
      (askedRun ++ [.toolReturns (ofString "ok")]) = some t ∧
    (Trans.Always (OpenAITurn.step trialProvider) (fun t => ∀ continuation, t.persisted = some continuation →
        Resumable t.received continuation) freshTurn (askedRun ++ [.toolReturns (ofString "ok")]) ↔
      Trans.Along (OpenAITurn.step trialProvider) (OpenAITurn.SettledRound trialProvider) freshTurn
        (askedRun ++ [.toolReturns (ofString "ok")])) := by
  obtain ⟨t, ht, -⟩ := Option.map_eq_some_iff.mp asked_returns
  exact ⟨t, ht, resumable_iff trialProvider (ofString "hi") none _ t ht⟩

end AgentDesk
