/-
# Prompts that are pushed into a query

`OpenAIProvider.query`: a generator that runs one turn after the other, with one slot for the prompt that
is to come next. A push fills the slot, whatever is in it, and aborts the turn that is running; the next
turn starts from the continuation of the last turn that came to its end. The poll loop reads the events,
and at a `result` it acknowledges the rows of all the prompts there are so far.

* `showInv_step`, `shownInv_step`: a turn that ends with a `result` has sent its prompt.
* `pushed_prompts_answered`: while every push comes after a `result`, with the slot free and before the
  generator goes on, the turns that end with a `result` are those of the prompts, in order, and what is
  acknowledged was shown to the model. In a query that comes to its end this is the only way.
-/
import AgentDesk.OpenAITurn

namespace AgentDesk

open JsonText

/-! ### What a turn shows -/

def RequestInput.shown : RequestInput → List JsonObject
  | .item o => o.toList
  | .items os => os

namespace OpenAITurn

variable {p : OpenAIProvider} {t t' : OpenAITurn} {e : OpenAIEvent} {prompt : Text}

/-- The model was sent the prompt. -/
def Shows (t : OpenAITurn) (prompt : Text) : Prop := ∃ request ∈ t.sent, userMessageInput prompt ∈ request.input.shown

/-- The turn waits for its tools or for a summary. -/
def Opening (t : OpenAITurn) : Prop := t.phase = .listing ∨ ∃ boundary, t.phase = .compacting boundary

/-- Until the first request the prompt ends the transcript. -/
structure ShowInv (prompt : Text) (t : OpenAITurn) : Prop where
  last : t.Opening → t.transcript.getLast? = some (userMessageInput prompt)
  boundary : ∀ boundary, t.phase = .compacting boundary → boundary < t.transcript.length
  shows : t.phase ≠ .thrown → ¬t.Opening → t.Shows prompt

theorem showInv_thrown (h : t.phase = .thrown) : ShowInv prompt t where
  last hopening := by
    rcases hopening with hl | ⟨_, hc⟩
    · cases h.symm.trans hl
    · cases h.symm.trans hc
  boundary _ hc := by cases h.symm.trans hc
  shows hnot := absurd h hnot

theorem showInv_shown (hshows : t.Shows prompt) (hopening : ¬t.Opening) : ShowInv prompt t where
  last h := absurd h hopening
  boundary boundary hc := absurd (.inr ⟨boundary, hc⟩) hopening
  shows _ _ := hshows

theorem not_opening_of_phase {phase : OpenAIPhase} (h : t.phase = phase) (hlisting : phase ≠ .listing)
    (hcompacting : ∀ boundary, phase ≠ .compacting boundary) : ¬t.Opening := by
  rintro (hl | ⟨boundary, hc⟩)
  · exact hlisting (h.symm.trans hl)
  · exact hcompacting boundary (h.symm.trans hc)

theorem ask_showInv (h : userMessageInput prompt ∈ t.request.input.shown ∨ t.Shows prompt) : ShowInv prompt t.ask := by
  unfold ask
  split
  · exact showInv_thrown rfl
  · refine showInv_shown ?_ (not_opening_of_phase rfl nofun nofun)
    rcases h with hrequest | ⟨request, hmem, hshown⟩
    · exact ⟨t.request, List.mem_append_right _ (.head _), hrequest⟩
    · exact ⟨request, List.mem_append_left _ hmem, hshown⟩

theorem request_shows {u : OpenAITurn} (htranscript : u.transcript.getLast? = some (userMessageInput prompt))
    (hinput : u.nextInput = .items u.transcript ∨
      u.transport = .responses ∧ u.nextInput = .item u.transcript.getLast?) :
    userMessageInput prompt ∈ u.request.input.shown := by
  rcases hinput with hitems | ⟨htransport, hitem⟩
  · rw [request_items hitems]
    exact List.mem_of_getLast? htranscript
  · rw [request_item hitem htransport, htranscript]
    exact .head _

theorem begin_showInv (h : t.transcript.getLast? = some (userMessageInput prompt)) : ShowInv prompt t.begin := by
  apply ask_showInv
  left
  apply request_shows
  · exact h
  · by_cases hfull : t.transport = .chatCompletions ∨ t.mode = .stateless
    · exact .inl (if_pos hfull)
    · have htransport : t.transport = .responses := by
        cases htransport : t.transport with
        | responses => rfl
        | chatCompletions => exact absurd (.inl htransport) hfull
      exact .inr ⟨htransport, if_neg hfull⟩

theorem began (hJ : ShowInv prompt t) {phase : OpenAIPhase} (h : t.phase = phase) (hthrown : phase ≠ .thrown)
    (hlisting : phase ≠ .listing) (hcompacting : ∀ boundary, phase ≠ .compacting boundary) : t.Shows prompt :=
  hJ.shows (h ▸ hthrown) (not_opening_of_phase h hlisting hcompacting)

theorem pending_began (hJ : ShowInv prompt t) {response : OpenAIResponse} {responseId : Text}
    {calls outputs : List JsonObject} (h : Pending t e response responseId calls outputs) : t.Shows prompt := by
  cases h with
  | first hphase => exact began hJ hphase nofun nofun nofun
  | next hphase => exact began hJ hphase nofun nofun nofun

theorem showInv_step (hJ : ShowInv prompt t) (h : t.step p e = some t') : ShowInv prompt t' := by
  cases step_move h with
  | aborts => exact ⟨hJ.last, hJ.boundary, hJ.shows⟩
  | throws => exact showInv_thrown rfl
  | compacts boundary hphase hlt =>
    have hlast := hJ.last (.inl hphase)
    have hne : t.transcript ≠ [] := fun hnil => by
      rw [hnil] at hlast
      cases hlast
    refine ⟨fun _ => hlast, fun boundary' hphase' => ?_, fun _ hnot => absurd (.inr ⟨_, rfl⟩) hnot⟩
    obtain rfl := OpenAIPhase.compacting.inj hphase'
    exact hlt hne
  | opens e u hu =>
    have hlast := hJ.last hu.before
    apply begin_showInv
    rcases hu.last hJ.boundary with hsame | hcloned
    · rw [hsame, hlast]
    · rw [hcloned, hlast, Option.map_some, cloneJson_userMessageInput]
  | answers response hphase haborted =>
    have hshows : t.Shows prompt := began hJ hphase nofun nofun nofun
    exact showInv_shown hshows (not_opening_of_phase rfl nofun nofun)
  | replays e transport hphase hreplays =>
    have hshows : t.Shows prompt := began hJ hphase nofun nofun nofun
    exact ask_showInv (.inr hshows)
  | calls hpending =>
    have hshows : t.Shows prompt := pending_began hJ hpending
    exact showInv_shown hshows (not_opening_of_phase rfl nofun nofun)
  | completes hpending =>
    have hshows : t.Shows prompt := pending_began hJ hpending
    exact ask_showInv (.inr hshows)
  | finishes response responseId hphase hid hcalls =>
    have hshows : t.Shows prompt := began hJ hphase nofun nofun nofun
    unfold finish
    split
    · exact showInv_thrown rfl
    · exact showInv_shown hshows (not_opening_of_phase rfl nofun nofun)

theorem showInv_runTurn (p : OpenAIProvider) (prompt : Text) (continuation : Option Text) :
    ShowInv prompt (runTurn p prompt continuation) := by
  have hphase : (runTurn p prompt continuation).phase = if p.credentials = true then .listing else .thrown := rfl
  by_cases hkey : p.credentials = true
  · rw [if_pos hkey] at hphase
    refine ⟨fun _ => ?_, fun boundary hc => ?_, fun _ hnot => absurd (.inl hphase) hnot⟩
    · have hlast :=
        getLast?_appendTranscript (parseContinuationState continuation).transcript [] (userMessageInput prompt)
      rw [cloneJson_userMessageInput] at hlast
      exact hlast
    · cases hphase.symm.trans hc
  · rw [if_neg hkey] at hphase
    exact showInv_thrown hphase

end OpenAITurn

/-! ### The query -/

inductive OpenAIQueryPhase where
  /-- The generator has not been started. -/
  | idle
  | running (turn : OpenAITurn)
  /-- The turn is over, and its events are read, up to the `result`. -/
  | reporting (turn : OpenAITurn)
  /-- The `result` was read, and the generator has not been resumed. -/
  | resulted
  | finished
  | failed

structure OpenAIQuery where
  currentPrompt : Text
  continuation : Option Text
  pendingFollowUp : Option Text
  stopRequested : Bool
  phase : OpenAIQueryPhase
  /-- All the prompts there have been, in order. -/
  prompts : List Text
  /-- The prompts whose rows are acknowledged. -/
  acked : List Text
  /-- The turns that ended with a `result`, with their prompts. -/
  results : List (Text × OpenAITurn)

def OpenAIProvider.query (prompt : Text) (continuation : Option Text) : OpenAIQuery where
  currentPrompt := prompt
  continuation := continuation
  pendingFollowUp := none
  stopRequested := false
  phase := .idle
  prompts := [prompt]
  acked := []
  results := []

inductive OpenAIQueryEvent where
  | push (message : Text)
  | pushSystemReminder (text : Text)
  | abort
  /-- The first `next()`. -/
  | starts
  /-- Something happens to the turn. -/
  | turn (e : OpenAIEvent)
  /-- The promise of the turn is settled. -/
  | settles
  /-- The `result` is read, and the poll loop acknowledges. -/
  | reads
  /-- The `next()` after the `result`. -/
  | resumes

/-- `appendSystemReminderToContinuation`. -/
def appendSystemReminder (continuation : Option Text) (text : Text) : Text :=
  let state := parseContinuationState continuation
  serializeContinuationState
    { state with transcript := trimTranscriptForPersist (state.transcript ++ [userMessageInput text]) }

/-- A turn that is aborted, when there is one. -/
def OpenAIQueryPhase.abortActive : OpenAIQueryPhase → OpenAIQueryPhase
  | .running turn => .running { turn with aborted := true }
  | phase => phase

namespace OpenAIQuery

variable (p : OpenAIProvider)

/-- The prompt that comes next. An empty one is not seen. -/
def followUp (q : OpenAIQuery) : Option Text := q.pendingFollowUp.filter fun message => message ≠ []

/-- The head of the generator's loop. -/
def startTurn (q : OpenAIQuery) : OpenAIQuery :=
  if q.stopRequested ∧ q.followUp = none then { q with phase := .finished }
  else { q with phase := .running (runTurn p q.currentPrompt q.continuation) }

/-- On with the pending prompt. -/
def continueWith (q : OpenAIQuery) (message : Text) : OpenAIQuery :=
  startTurn p { q with currentPrompt := message, pendingFollowUp := none }

/-- After the turn. -/
def settle (q : OpenAIQuery) (turn : OpenAITurn) : Option OpenAIQuery :=
  match turn.phase with
  | .returned continuation _ => some { q with continuation := some continuation, phase := .reporting turn }
  | .thrown =>
    if turn.aborted then
      match q.followUp with
      | some message => some (q.continueWith p message)
      | none => if q.stopRequested then some { q with phase := .finished } else some { q with phase := .failed }
    else some { q with phase := .failed }
  | _ => none

def push (q : OpenAIQuery) (message : Text) : OpenAIQuery :=
  { q with
    pendingFollowUp := some message
    phase := q.phase.abortActive
    prompts := q.prompts ++ [message] }

def step (q : OpenAIQuery) : OpenAIQueryEvent → Option OpenAIQuery
  | .push message => some (q.push message)
  | .pushSystemReminder text => some { q with continuation := some (appendSystemReminder q.continuation text) }
  | .abort => some { q with stopRequested := true, phase := q.phase.abortActive }
  | .starts =>
    match q.phase with
    | .idle => some (q.startTurn p)
    | _ => none
  | .turn e =>
    match q.phase, e with
    | _, .abort => none
    | .running turn, e => (turn.step p e).map fun turn => { q with phase := .running turn }
    | _, _ => none
  | .settles =>
    match q.phase with
    | .running turn => q.settle p turn
    | _ => none
  | .reads =>
    match q.phase with
    | .reporting turn =>
      some { q with
        phase := .resulted
        acked := q.prompts
        results := q.results ++ [(q.currentPrompt, turn)] }
    | _ => none
  | .resumes =>
    match q.phase, q.followUp with
    | .resulted, some message => some (q.continueWith p message)
    | .resulted, none => some { q with phase := .finished }
    | _, _ => none

/-! ### What one event does -/

variable {p : OpenAIProvider} {q q' : OpenAIQuery} {e : OpenAIQueryEvent}

/-- The phase in which a prompt is worked on. -/
def start (p : OpenAIProvider) (q : OpenAIQuery) : OpenAIQueryPhase :=
  if q.stopRequested ∧ q.followUp = none then .finished else .running (runTurn p q.currentPrompt q.continuation)

theorem startTurn_eq (q : OpenAIQuery) : q.startTurn p = { q with phase := q.start p } := by
  unfold startTurn start
  split <;> rfl

/-- What an event does. -/
inductive Move (p : OpenAIProvider) (q : OpenAIQuery) : OpenAIQueryEvent → OpenAIQuery → Prop
  | pushes (message : Text) : Move p q (.push message) (q.push message)
  | reminds (text : Text) : Move p q (.pushSystemReminder text)
      { q with continuation := some (appendSystemReminder q.continuation text) }
  | aborts : Move p q .abort { q with stopRequested := true, phase := q.phase.abortActive }
  | starts (h : q.phase = .idle) : Move p q .starts { q with phase := q.start p }
  | advances {turn turn' : OpenAITurn} {e : OpenAIEvent} (h : q.phase = .running turn) (he : e ≠ .abort)
      (hstep : turn.step p e = some turn') : Move p q (.turn e) { q with phase := .running turn' }
  | reports {turn : OpenAITurn} {continuation : Text} {text : Option Text} (h : q.phase = .running turn)
      (hreturned : turn.phase = .returned continuation text) :
      Move p q .settles { q with continuation := some continuation, phase := .reporting turn }
  | replaces {turn : OpenAITurn} {message : Text} (h : q.phase = .running turn) (haborted : turn.aborted = true)
      (hfollow : q.followUp = some message) : Move p q .settles (q.continueWith p message)
  | ends {turn : OpenAITurn} (h : q.phase = .running turn) (haborted : turn.aborted = true)
      (hstop : q.stopRequested = true) : Move p q .settles { q with phase := .finished }
  | fails {turn : OpenAITurn} (h : q.phase = .running turn) : Move p q .settles { q with phase := .failed }
  | reads {turn : OpenAITurn} (h : q.phase = .reporting turn) : Move p q .reads
      { q with
        phase := .resulted
        acked := q.prompts
        results := q.results ++ [(q.currentPrompt, turn)] }
  | continues {message : Text} (h : q.phase = .resulted) (hfollow : q.followUp = some message) :
      Move p q .resumes (q.continueWith p message)
  | closes (h : q.phase = .resulted) (hfollow : q.followUp = none) : Move p q .resumes { q with phase := .finished }

theorem settle_move {turn : OpenAITurn} (hphase : q.phase = .running turn) (h : q.settle p turn = some q') :
    Move p q .settles q' := by
  unfold settle at h
  split at h
  · rename_i hreturned
    obtain rfl := Option.some.inj h
    exact .reports hphase hreturned
  · split at h
    · rename_i haborted
      split at h
      · rename_i hfollow
        obtain rfl := Option.some.inj h
        exact .replaces hphase haborted hfollow
      · split at h
        · rename_i hstop
          obtain rfl := Option.some.inj h
          exact .ends hphase haborted hstop
        · obtain rfl := Option.some.inj h
          exact .fails hphase
    · obtain rfl := Option.some.inj h
      exact .fails hphase
  · cases h

theorem query_move (h : q.step p e = some q') : Move p q e q' := by
  cases e with
  | push message =>
    obtain rfl := Option.some.inj h
    exact .pushes message
  | pushSystemReminder text =>
    obtain rfl := Option.some.inj h
    exact .reminds text
  | abort =>
    obtain rfl := Option.some.inj h
    exact .aborts
  | starts =>
    simp only [step] at h
    split at h
    · rename_i hphase
      obtain rfl := Option.some.inj h
      rw [startTurn_eq]
      exact .starts hphase
    · cases h
  | turn e =>
    simp only [step] at h
    split at h
    · cases h
    · rename_i turn hphase he
      obtain ⟨turn', hstep, rfl⟩ := Option.map_eq_some_iff.mp h
      exact .advances hphase he hstep
    · cases h
  | settles =>
    simp only [step] at h
    split at h
    · rename_i hphase
      exact settle_move hphase h
    · cases h
  | reads =>
    simp only [step] at h
    split at h
    · rename_i hphase
      obtain rfl := Option.some.inj h
      exact .reads hphase
    · cases h
  | resumes =>
    simp only [step] at h
    split at h
    · rename_i hphase hfollow
      obtain rfl := Option.some.inj h
      exact .continues hphase hfollow
    · rename_i hphase hfollow
      obtain rfl := Option.some.inj h
      exact .closes hphase hfollow
    · cases h

/-! ### Turns with a result -/

/-- Each turn that ended with a `result` has shown its prompt. -/
structure ShownInv (q : OpenAIQuery) : Prop where
  results : ∀ r ∈ q.results, r.2.Shows r.1
  running : ∀ turn, q.phase = .running turn → turn.ShowInv q.currentPrompt
  reporting : ∀ turn, q.phase = .reporting turn → turn.Shows q.currentPrompt

theorem shownInv_of_results (hresults : ∀ r ∈ q.results, r.2.Shows r.1) (hrunning : ∀ turn, q.phase ≠ .running turn)
    (hreporting : ∀ turn, q.phase ≠ .reporting turn) : ShownInv q where
  results := hresults
  running turn h := absurd h (hrunning turn)
  reporting turn h := absurd h (hreporting turn)

theorem start_shownInv (hresults : ∀ r ∈ q.results, r.2.Shows r.1) : ShownInv { q with phase := q.start p } := by
  have hturn := OpenAITurn.showInv_runTurn p q.currentPrompt q.continuation
  unfold start
  generalize runTurn p q.currentPrompt q.continuation = turn at hturn ⊢
  split
  · exact shownInv_of_results hresults (fun _ => nofun) fun _ => nofun
  · refine ⟨hresults, fun turn' hphase => ?_, fun _ => nofun⟩
    obtain rfl := OpenAIQueryPhase.running.inj hphase
    exact hturn

theorem continueWith_shownInv (hresults : ∀ r ∈ q.results, r.2.Shows r.1) (message : Text) :
    ShownInv (q.continueWith p message) := by
  rw [continueWith, startTurn_eq]
  apply start_shownInv
  exact hresults

theorem shownInv_abortActive (hJ : ShownInv q) {q' : OpenAIQuery} (hphase : q'.phase = q.phase.abortActive)
    (hprompt : q'.currentPrompt = q.currentPrompt) (hresults : q'.results = q.results) : ShownInv q' := by
  refine ⟨hresults ▸ hJ.results, fun turn h => ?_, fun turn h => ?_⟩
  · rw [hprompt]
    rw [hphase] at h
    cases hq : q.phase with
    | running turn' =>
      rw [hq] at h
      obtain rfl := OpenAIQueryPhase.running.inj h
      have hturn := hJ.running turn' hq
      exact ⟨hturn.last, hturn.boundary, hturn.shows⟩
    | idle => rw [hq] at h; cases h
    | reporting _ => rw [hq] at h; cases h
    | resulted => rw [hq] at h; cases h
    | finished => rw [hq] at h; cases h
    | failed => rw [hq] at h; cases h
  · rw [hprompt]
    rw [hphase] at h
    cases hq : q.phase with
    | reporting turn' =>
      rw [hq] at h
      obtain rfl := OpenAIQueryPhase.reporting.inj h
      exact hJ.reporting turn' hq
    | idle => rw [hq] at h; cases h
    | running _ => rw [hq] at h; cases h
    | resulted => rw [hq] at h; cases h
    | finished => rw [hq] at h; cases h
    | failed => rw [hq] at h; cases h

theorem shownInv_step (hJ : ShownInv q) (h : q.step p e = some q') : ShownInv q' := by
  cases query_move h with
  | pushes => exact shownInv_abortActive hJ rfl rfl rfl
  | reminds => exact ⟨hJ.results, hJ.running, hJ.reporting⟩
  | aborts => exact shownInv_abortActive hJ rfl rfl rfl
  | starts => exact start_shownInv hJ.results
  | advances hphase _ hstep =>
    refine ⟨hJ.results, fun turn h => ?_, fun _ => nofun⟩
    obtain rfl := OpenAIQueryPhase.running.inj h
    exact OpenAITurn.showInv_step (hJ.running _ hphase) hstep
  | reports hphase hreturned =>
    refine ⟨hJ.results, fun _ => nofun, fun turn h => ?_⟩
    obtain rfl := OpenAIQueryPhase.reporting.inj h
    exact OpenAITurn.began (hJ.running _ hphase) hreturned nofun nofun nofun
  | replaces => exact continueWith_shownInv hJ.results _
  | ends => exact shownInv_of_results hJ.results (fun _ => nofun) fun _ => nofun
  | fails => exact shownInv_of_results hJ.results (fun _ => nofun) fun _ => nofun
  | @reads turn hphase =>
    refine shownInv_of_results ?_ (fun _ => nofun) fun _ => nofun
    intro r hr
    rcases List.mem_append.mp hr with hold | hnew
    · exact hJ.results r hold
    · obtain rfl := List.mem_singleton.mp hnew
      exact hJ.reporting turn hphase
  | continues => exact continueWith_shownInv hJ.results _
  | closes => exact shownInv_of_results hJ.results (fun _ => nofun) fun _ => nofun

theorem shownInv_query (prompt : Text) (continuation : Option Text) :
    ShownInv (OpenAIProvider.query prompt continuation) :=
  shownInv_of_results (fun _ hr => absurd hr List.not_mem_nil) (fun _ => nofun) fun _ => nofun

/-! ### Timely pushes -/

/-- What was read as answered was: the turns with a `result` are those of the acknowledged prompts, and they have
shown them; at the end they are those of all prompts. -/
structure Answered (q : OpenAIQuery) : Prop where
  acked : q.acked = q.results.map (·.1)
  shown : ∀ r ∈ q.results, r.2.Shows r.1
  all : q.phase = .finished → q.stopRequested = false → q.prompts = q.results.map (·.1)

/-- A push comes after a `result`, before the generator goes on, and there is no other one then. -/
def TimelyPush (q : OpenAIQuery) (e : OpenAIQueryEvent) : Prop :=
  ∀ message, e = .push message → q.phase = .resulted ∧ q.followUp = none ∧ message ≠ []

/-- The prompt the generator is at, without a `result` so far. -/
def inFlight (q : OpenAIQuery) : List Text :=
  match q.phase with
  | .idle => [q.currentPrompt]
  | .running _ => [q.currentPrompt]
  | .reporting _ => [q.currentPrompt]
  | _ => []

/-- The prompts that are still to be answered. -/
def outstanding (q : OpenAIQuery) : List Text := q.inFlight ++ q.followUp.toList

structure TimelyInv (q : OpenAIQuery) : Prop where
  acked : q.acked = q.results.map (·.1)
  prompts : q.phase ≠ .failed → (q.phase = .finished → q.stopRequested = false) →
    q.prompts = q.results.map (·.1) ++ q.outstanding
  single : q.inFlight = [] ∨ q.followUp = none
  turn : ∀ turn, q.phase = .running turn → turn.aborted = true → q.stopRequested = true
  closed : q.phase = .finished → q.stopRequested = false → q.followUp = none

theorem inFlight_abortActive {q' : OpenAIQuery} (hphase : q'.phase = q.phase.abortActive)
    (hprompt : q'.currentPrompt = q.currentPrompt) : q'.inFlight = q.inFlight := by
  unfold inFlight
  rw [hphase, hprompt]
  cases q.phase <;> rfl

theorem start_timelyInv (hacked : q.acked = q.results.map (·.1)) (hfollow : q.followUp = none)
    (hprompts : q.prompts = q.results.map (·.1) ++ [q.currentPrompt]) : TimelyInv { q with phase := q.start p } := by
  have hturn : (runTurn p q.currentPrompt q.continuation).aborted = false := rfl
  unfold start
  generalize runTurn p q.currentPrompt q.continuation = turn at hturn ⊢
  split
  · rename_i hstop
    have hnot : q.stopRequested ≠ false := by
      rw [hstop.1]
      exact nofun
    exact ⟨hacked, fun _ h => absurd (h rfl) hnot, .inl rfl, fun _ => nofun, fun _ h => absurd h hnot⟩
  · refine ⟨hacked, fun _ _ => ?_, .inr hfollow, fun turn' hphase haborted => ?_, nofun⟩
    · change q.prompts = q.results.map (·.1) ++ ([q.currentPrompt] ++ q.followUp.toList)
      rw [hfollow]
      exact hprompts
    · obtain rfl := OpenAIQueryPhase.running.inj hphase
      cases hturn.symm.trans haborted

theorem continueWith_timelyInv {message : Text} (hacked : q.acked = q.results.map (·.1))
    (hprompts : q.prompts = q.results.map (·.1) ++ [message]) : TimelyInv (q.continueWith p message) := by
  rw [continueWith, startTurn_eq]
  apply start_timelyInv
  · exact hacked
  · rfl
  · exact hprompts

theorem inFlight_of_running {turn : OpenAITurn} (h : q.phase = .running turn) : q.inFlight = [q.currentPrompt] := by
  rw [inFlight, h]

theorem inFlight_of_reporting {turn : OpenAITurn} (h : q.phase = .reporting turn) : q.inFlight = [q.currentPrompt] := by
  rw [inFlight, h]

theorem inFlight_of_resulted (h : q.phase = .resulted) : q.inFlight = [] := by
  rw [inFlight, h]

theorem TimelyInv.free (hJ : TimelyInv q) (h : q.inFlight = [q.currentPrompt]) : q.followUp = none :=
  hJ.single.resolve_left (h ▸ List.cons_ne_nil _ _)

theorem TimelyInv.prompts_inFlight (hJ : TimelyInv q) (hflight : q.inFlight = [q.currentPrompt])
    (hfailed : q.phase ≠ .failed) (hfinished : q.phase ≠ .finished) :
    q.prompts = q.results.map (·.1) ++ [q.currentPrompt] := by
  rw [hJ.prompts hfailed fun h => absurd h hfinished, outstanding, hflight, hJ.free hflight]
  rfl

theorem TimelyInv.prompts_resulted (hJ : TimelyInv q) (h : q.phase = .resulted) :
    q.prompts = q.results.map (·.1) ++ q.followUp.toList := by
  have hfailed : q.phase ≠ .failed := h ▸ nofun
  have hfinished : q.phase ≠ .finished := h ▸ nofun
  rw [hJ.prompts hfailed fun h => absurd h hfinished, outstanding, inFlight_of_resulted h, List.nil_append]

theorem followUp_push {message : Text} (h : message ≠ []) : (q.push message).followUp = some message :=
  Option.filter_eq_some_iff.mpr ⟨rfl, decide_eq_true h⟩

theorem timelyInv_step (hJ : TimelyInv q) (h : q.step p e = some q') (hC : q.TimelyPush e) : TimelyInv q' := by
  cases query_move h with
  | pushes message =>
    obtain ⟨hphase, hfree, hne⟩ := hC message rfl
    have hsame : (q.push message).inFlight = q.inFlight := inFlight_abortActive rfl rfl
    have hflight : (q.push message).inFlight = [] := hsame.trans (inFlight_of_resulted hphase)
    have hactive : (q.push message).phase = .resulted := by
      change q.phase.abortActive = _
      rw [hphase]
      rfl
    refine ⟨hJ.acked, fun _ _ => ?_, .inl hflight, fun turn hturn => ?_, fun hfinished => ?_⟩
    · have hprompts := hJ.prompts_resulted hphase
      rw [hfree, Option.toList_none, List.append_nil] at hprompts
      rw [outstanding, hflight, followUp_push hne]
      change q.prompts ++ [message] = q.results.map (·.1) ++ [message]
      rw [hprompts]
    · cases hactive.symm.trans hturn
    · cases hactive.symm.trans hfinished
  | reminds => exact ⟨hJ.acked, hJ.prompts, hJ.single, hJ.turn, hJ.closed⟩
  | aborts =>
    have hflight : inFlight { q with stopRequested := true, phase := q.phase.abortActive } = q.inFlight :=
      inFlight_abortActive rfl rfl
    refine ⟨hJ.acked, fun hfailed hfinished => ?_, ?_, fun _ _ _ => rfl, nofun⟩
    · have hfailed' : q.phase ≠ .failed := fun h => hfailed (by
        change q.phase.abortActive = _
        rw [h]
        rfl)
      have hfinished' : q.phase = .finished → q.stopRequested = false := fun h => by
        have hstop := hfinished (by
          change q.phase.abortActive = _
          rw [h]
          rfl)
        cases hstop
      rw [outstanding, hflight]
      exact hJ.prompts hfailed' hfinished'
    · rw [hflight]
      exact hJ.single
  | starts hphase =>
    have hflight : q.inFlight = [q.currentPrompt] := by rw [inFlight, hphase]
    exact start_timelyInv hJ.acked (hJ.free hflight) (hJ.prompts_inFlight hflight (hphase ▸ nofun) (hphase ▸ nofun))
  | @advances turn turn' e hphase he hstep =>
    have hflight := inFlight_of_running hphase
    have hprompts := hJ.prompts_inFlight hflight (hphase ▸ nofun) (hphase ▸ nofun)
    have hfree := hJ.free hflight
    refine ⟨hJ.acked, fun _ _ => ?_, .inr hfree, fun turn'' hturn haborted => ?_, fun h => (nomatch h)⟩
    · change q.prompts = q.results.map (·.1) ++ ([q.currentPrompt] ++ q.followUp.toList)
      rw [hfree]
      exact hprompts
    · obtain rfl := OpenAIQueryPhase.running.inj hturn
      rw [OpenAITurn.step_aborted he hstep] at haborted
      exact hJ.turn turn hphase haborted
  | reports hphase hreturned =>
    have hflight := inFlight_of_running hphase
    have hprompts := hJ.prompts_inFlight hflight (hphase ▸ nofun) (hphase ▸ nofun)
    have hfree := hJ.free hflight
    refine ⟨hJ.acked, fun _ _ => ?_, .inr hfree, fun _ h => (nomatch h), fun h => (nomatch h)⟩
    change q.prompts = q.results.map (·.1) ++ ([q.currentPrompt] ++ q.followUp.toList)
    rw [hfree]
    exact hprompts
  | replaces hphase _ hfollow =>
    have hfree := hJ.free (inFlight_of_running hphase)
    cases hfree.symm.trans hfollow
  | ends hphase _ hstop =>
    have hnot : q.stopRequested ≠ false := hstop ▸ nofun
    exact ⟨hJ.acked, fun _ h => absurd (h rfl) hnot, .inl rfl, fun _ h => (nomatch h), fun _ h => absurd h hnot⟩
  | fails =>
    exact ⟨hJ.acked, fun h => absurd rfl h, .inl rfl, fun _ h => (nomatch h), fun h => (nomatch h)⟩
  | @reads turn hphase =>
    have hflight := inFlight_of_reporting hphase
    have hprompts := hJ.prompts_inFlight hflight (hphase ▸ nofun) (hphase ▸ nofun)
    have hmap : q.prompts = (q.results ++ [(q.currentPrompt, turn)]).map (·.1) := by
      rw [List.map_append, hprompts]
      rfl
    refine ⟨hmap, fun _ _ => ?_, .inl rfl, fun _ h => (nomatch h), fun h => (nomatch h)⟩
    change q.prompts = _ ++ ([] ++ q.followUp.toList)
    rw [hJ.free hflight, Option.toList_none, List.append_nil, List.append_nil]
    exact hmap
  | continues hphase hfollow =>
    have hprompts := hJ.prompts_resulted hphase
    rw [hfollow] at hprompts
    exact continueWith_timelyInv hJ.acked hprompts
  | closes hphase hfollow =>
    have hprompts := hJ.prompts_resulted hphase
    refine ⟨hJ.acked, fun _ _ => ?_, .inl rfl, fun _ h => (nomatch h), fun _ _ => hfollow⟩
    change q.prompts = q.results.map (·.1) ++ ([] ++ q.followUp.toList)
    exact hprompts

theorem timelyInv_query (prompt : Text) (continuation : Option Text) :
    TimelyInv (OpenAIProvider.query prompt continuation) :=
  ⟨rfl, fun _ _ => rfl, .inr rfl, fun _ h => (nomatch h), fun h => (nomatch h)⟩

theorem TimelyInv.answered (hJ : TimelyInv q) (hshown : ShownInv q) : Answered q where
  acked := hJ.acked
  shown := hshown.results
  all hfinished hstop := by
    have hfailed : q.phase ≠ .failed := hfinished ▸ nofun
    have hflight : q.inFlight = [] := by rw [inFlight, hfinished]
    rw [hJ.prompts hfailed fun _ => hstop, outstanding, hflight, hJ.closed hfinished hstop, Option.toList_none,
      List.append_nil, List.append_nil]

/-! ### Other pushes -/

/-- How many prompts can still be answered by a turn of their own. -/
def slots (q : OpenAIQuery) : ℕ :=
  match q.phase with
  | .resulted => q.followUp.toList.length
  | _ => q.inFlight.length

/-- There are more prompts than turns that can answer them. -/
def Lossy (q : OpenAIQuery) : Prop := q.phase = .failed ∨ q.results.length + q.slots < q.prompts.length

theorem followUp_length (q : OpenAIQuery) : q.followUp.toList.length ≤ 1 := by
  cases q.followUp with
  | none => exact Nat.zero_le 1
  | some _ => exact Nat.le_refl 1

theorem inFlight_length (q : OpenAIQuery) : q.inFlight.length ≤ 1 := by
  unfold inFlight
  split <;> simp

theorem slots_le_one (q : OpenAIQuery) : q.slots ≤ 1 := by
  unfold slots
  split
  · exact followUp_length q
  · exact inFlight_length q

theorem slots_of_inFlight (hphase : q.phase ≠ .resulted) (h : q.inFlight = [q.currentPrompt]) : q.slots = 1 := by
  unfold slots
  split
  · rename_i hresulted
    exact absurd hresulted hphase
  · rw [h]
    rfl

theorem slots_of_followUp {message : Text} (hphase : q.phase = .resulted) (h : q.followUp = some message) :
    q.slots = 1 := by
  rw [slots, hphase, h]
  rfl

theorem slots_abortActive {q' : OpenAIQuery} (hphase : q'.phase = q.phase.abortActive)
    (hprompt : q'.currentPrompt = q.currentPrompt) (hfollow : q'.followUp = q.followUp) : q'.slots = q.slots := by
  unfold slots
  rw [inFlight_abortActive hphase hprompt, hphase, hfollow]
  cases q.phase <;> rfl

theorem continueWith_same (message : Text) : (q.continueWith p message).results = q.results ∧
    (q.continueWith p message).prompts = q.prompts := by
  rw [continueWith, startTurn_eq]
  exact ⟨rfl, rfl⟩

theorem lossy_step (hlossy : q.Lossy) (h : q.step p e = some q') : q'.Lossy ∨ ¬q'.Answered := by
  rcases hlossy with hfailed | hmore
  · left
    left
    cases query_move h with
    | pushes message =>
      change q.phase.abortActive = _
      rw [hfailed]
      rfl
    | reminds => exact hfailed
    | aborts =>
      change q.phase.abortActive = _
      rw [hfailed]
      rfl
    | starts hphase => cases hfailed.symm.trans hphase
    | advances hphase => cases hfailed.symm.trans hphase
    | reports hphase => cases hfailed.symm.trans hphase
    | replaces hphase => cases hfailed.symm.trans hphase
    | ends hphase => cases hfailed.symm.trans hphase
    | fails => rfl
    | reads hphase => cases hfailed.symm.trans hphase
    | continues hphase => cases hfailed.symm.trans hphase
    | closes hphase => cases hfailed.symm.trans hphase
  · have hone : q'.results = q.results → q'.prompts = q.prompts → q.slots = 1 → q'.Lossy ∨ ¬q'.Answered := by
      intro hresults hprompts hslots
      left
      right
      rw [hresults, hprompts]
      have hslots' := q'.slots_le_one
      omega
    have hflight : q.inFlight = [q.currentPrompt] → q.phase ≠ .resulted → q.slots = 1 := fun h hphase =>
      slots_of_inFlight hphase h
    cases query_move h with
    | pushes message =>
      left
      right
      have hslots := (q.push message).slots_le_one
      change q.results.length + (q.push message).slots < (q.prompts ++ [message]).length
      rw [List.length_append, List.length_singleton]
      omega
    | reminds => exact .inl (.inr hmore)
    | aborts =>
      have hslots : slots { q with stopRequested := true, phase := q.phase.abortActive } = q.slots :=
        slots_abortActive rfl rfl rfl
      left
      right
      rw [hslots]
      exact hmore
    | starts hphase =>
      have hidle : q.inFlight = [q.currentPrompt] := by rw [inFlight, hphase]
      exact hone rfl rfl (hflight hidle (hphase ▸ nofun))
    | advances hphase => exact hone rfl rfl (hflight (inFlight_of_running hphase) (hphase ▸ nofun))
    | reports hphase => exact hone rfl rfl (hflight (inFlight_of_running hphase) (hphase ▸ nofun))
    | replaces hphase =>
      have hsame := continueWith_same (p := p) (q := q)
      exact hone (hsame _).1 (hsame _).2 (hflight (inFlight_of_running hphase) (hphase ▸ nofun))
    | ends hphase => exact hone rfl rfl (hflight (inFlight_of_running hphase) (hphase ▸ nofun))
    | fails => exact .inl (.inl rfl)
    | @reads turn hphase =>
      -- what is acknowledged now was not shown
      right
      intro hanswered
      have hlength := congrArg List.length hanswered.acked
      rw [List.length_map] at hlength
      change q.prompts.length = (q.results ++ [(q.currentPrompt, turn)]).length at hlength
      have hslots := hflight (inFlight_of_reporting hphase) (hphase ▸ nofun)
      rw [List.length_append, List.length_singleton] at hlength
      omega
    | continues hphase hfollow =>
      have hsame := continueWith_same (p := p) (q := q)
      exact hone (hsame _).1 (hsame _).2 (slots_of_followUp hphase hfollow)
    | closes =>
      left
      right
      change q.results.length + 0 < q.prompts.length
      omega

/-- The prompts are at least the answered ones and those that wait. -/
def Counted (q : OpenAIQuery) : Prop := q.results.length + q.outstanding.length ≤ q.prompts.length

theorem outstanding_length (q : OpenAIQuery) : q.outstanding.length = q.inFlight.length + q.followUp.toList.length :=
  List.length_append

theorem continueWith_counted {message : Text} (h : q.results.length + 1 ≤ q.prompts.length) :
    (q.continueWith p message).Counted := by
  have hnone : (q.continueWith p message).followUp = none := by
    rw [continueWith, startTurn_eq]
    rfl
  obtain ⟨hresults, hprompts⟩ := continueWith_same (p := p) (q := q) message
  have hflight := (q.continueWith p message).inFlight_length
  rw [Counted, outstanding_length, hnone, hresults, hprompts]
  change q.results.length + (_ + 0) ≤ q.prompts.length
  omega

theorem counted_step (hJ : q.Counted) (h : q.step p e = some q') : q'.Counted := by
  rw [Counted, outstanding_length] at hJ
  have hkeep : q'.results = q.results → q'.prompts = q.prompts → q'.followUp = q.followUp →
      q'.inFlight.length ≤ q.inFlight.length → q'.Counted := by
    intro hresults hprompts hfollow hflight
    rw [Counted, outstanding_length, hresults, hprompts, hfollow]
    omega
  cases query_move h with
  | pushes message =>
    have hsame : (q.push message).inFlight = q.inFlight := inFlight_abortActive rfl rfl
    have hfollow := (q.push message).followUp_length
    rw [Counted, outstanding_length, hsame]
    change q.results.length + _ ≤ (q.prompts ++ [message]).length
    rw [List.length_append, List.length_singleton]
    omega
  | reminds => exact hkeep rfl rfl rfl (Nat.le_refl _)
  | aborts =>
    have hsame : inFlight { q with stopRequested := true, phase := q.phase.abortActive } = q.inFlight :=
      inFlight_abortActive rfl rfl
    exact hkeep rfl rfl rfl (Nat.le_of_eq (congrArg List.length hsame))
  | starts hphase =>
    have hidle : q.inFlight = [q.currentPrompt] := by rw [inFlight, hphase]
    refine hkeep rfl rfl rfl ?_
    rw [hidle]
    exact inFlight_length _
  | advances hphase =>
    refine hkeep rfl rfl rfl ?_
    rw [inFlight_of_running hphase]
    exact inFlight_length _
  | reports hphase =>
    refine hkeep rfl rfl rfl ?_
    rw [inFlight_of_running hphase]
    exact inFlight_length _
  | replaces hphase _ hfollow =>
    apply continueWith_counted
    rw [inFlight_of_running hphase, List.length_singleton] at hJ
    omega
  | ends hphase => exact hkeep rfl rfl rfl (Nat.zero_le _)
  | fails hphase => exact hkeep rfl rfl rfl (Nat.zero_le _)
  | @reads turn hphase =>
    rw [inFlight_of_reporting hphase, List.length_singleton] at hJ
    rw [Counted, outstanding_length]
    change (q.results ++ [(q.currentPrompt, turn)]).length + (0 + q.followUp.toList.length) ≤ q.prompts.length
    rw [List.length_append, List.length_singleton]
    omega
  | continues hphase hfollow =>
    apply continueWith_counted
    rw [hfollow] at hJ
    change q.results.length + (_ + 1) ≤ q.prompts.length at hJ
    omega
  | closes => exact hkeep rfl rfl rfl (Nat.zero_le _)

theorem lossy_push {message : Text} (hJ : q.Counted)
    (h : ¬(q.phase = .resulted ∧ q.followUp = none ∧ message ≠ [])) : (q.push message).Lossy := by
  rw [Counted, outstanding_length] at hJ
  have hslots := (q.push message).slots_le_one
  have hlength : (q.prompts ++ [message]).length = q.prompts.length + 1 := by
    rw [List.length_append, List.length_singleton]
  have hone : q.results.length + 1 ≤ q.prompts.length → (q.push message).Lossy := by
    intro hless
    right
    change q.results.length + (q.push message).slots < (q.prompts ++ [message]).length
    omega
  cases hphase : q.phase with
  | idle =>
    have hidle : q.inFlight = [q.currentPrompt] := by rw [inFlight, hphase]
    rw [hidle, List.length_singleton] at hJ
    exact hone (by omega)
  | running turn =>
    rw [inFlight_of_running hphase, List.length_singleton] at hJ
    exact hone (by omega)
  | reporting turn =>
    rw [inFlight_of_reporting hphase, List.length_singleton] at hJ
    exact hone (by omega)
  | resulted =>
    cases hfollow : q.followUp with
    | some other =>
      rw [hfollow] at hJ
      change q.results.length + (_ + 1) ≤ q.prompts.length at hJ
      exact hone (by omega)
    | none =>
      have hempty : message = [] := by
        by_contra hne
        exact h ⟨hphase, hfollow, hne⟩
      have hzero : (q.push message).slots = 0 := by
        have hactive : (q.push message).phase = .resulted := by
          change q.phase.abortActive = _
          rw [hphase]
          rfl
        rw [slots, hactive, followUp, push, hempty]
        rfl
      right
      rw [hzero]
      change q.results.length + 0 < (q.prompts ++ [message]).length
      omega
  | finished =>
    have hzero : (q.push message).slots = 0 := by
      have hactive : (q.push message).phase = .finished := by
        change q.phase.abortActive = _
        rw [hphase]
        rfl
      rw [slots, hactive, inFlight, hactive]
      rfl
    right
    rw [hzero]
    change q.results.length + 0 < (q.prompts ++ [message]).length
    omega
  | failed =>
    left
    change q.phase.abortActive = _
    rw [hphase]
    rfl

theorem lossy_not_answered {es : List OpenAIQueryEvent} (hlossy : q.Lossy) (h : Trans.run (step p) q es = some q')
    (hfinished : q'.phase = .finished) (hstop : q'.stopRequested = false) : ¬Trans.Always (step p) Answered q es := by
  induction es generalizing q with
  | nil =>
    obtain rfl : q = q' := Option.some.inj h
    intro halways
    have hall := (halways [] [] q rfl rfl).all hfinished hstop
    have hlength := congrArg List.length hall
    rw [List.length_map] at hlength
    rcases hlossy with hfailed | hmore
    · cases hfailed.symm.trans hfinished
    · omega
  | cons e es ih =>
    obtain ⟨q₁, h₁, h₂⟩ := Trans.run_cons.mp h
    intro halways
    have hrest := (Trans.always_cons.mp halways).2 q₁ h₁
    rcases lossy_step hlossy h₁ with hlossy₁ | hnot
    · exact ih hlossy₁ h₂ hrest
    · exact hnot (hrest [] es q₁ rfl rfl)

theorem timely_of_answered {es : List OpenAIQueryEvent} (hJ : q.Counted) (h : Trans.run (step p) q es = some q')
    (hfinished : q'.phase = .finished) (hstop : q'.stopRequested = false)
    (halways : Trans.Always (step p) Answered q es) : Trans.Along (step p) TimelyPush q es := by
  induction es generalizing q with
  | nil => trivial
  | cons e es ih =>
    obtain ⟨q₁, h₁, h₂⟩ := Trans.run_cons.mp h
    have hrest := (Trans.always_cons.mp halways).2 q₁ h₁
    refine ⟨fun message he => ?_, fun q₂ hq₂ => ?_⟩
    · by_contra hnot
      subst he
      obtain rfl : q.push message = q₁ := Option.some.inj h₁
      exact lossy_not_answered (lossy_push hJ hnot) h₂ hfinished hstop hrest
    · obtain rfl : q₁ = q₂ := Option.some.inj (h₁.symm.trans hq₂)
      exact ih (counted_step hJ h₁) h₂ hrest

theorem answered_of_timely {es : List OpenAIQueryEvent} (hJ : q.TimelyInv) (hshown : q.ShownInv)
    (h : Trans.Along (step p) TimelyPush q es) : Trans.Always (step p) Answered q es :=
  Trans.always_of_along (J := fun q => q.TimelyInv ∧ q.ShownInv) (fun _ hJ => hJ.1.answered hJ.2)
    (fun _ _ _ hJ hstep hC => ⟨timelyInv_step hJ.1 hstep hC, shownInv_step hJ.2 hstep⟩) ⟨hJ, hshown⟩ h

end OpenAIQuery

/-- **When the pushed prompts are answered.** Timely pushes are; and a query that comes to its end has answered
its prompts only when all its pushes were timely. -/
theorem pushed_prompts_answered (p : OpenAIProvider) (prompt : Text) (continuation : Option Text)
    (es : List OpenAIQueryEvent) (q : OpenAIQuery)
    (h : Trans.run (OpenAIQuery.step p) (OpenAIProvider.query prompt continuation) es = some q) :
    (Trans.Along (OpenAIQuery.step p) OpenAIQuery.TimelyPush (OpenAIProvider.query prompt continuation) es →
      Trans.Always (OpenAIQuery.step p) OpenAIQuery.Answered (OpenAIProvider.query prompt continuation) es) ∧
    (q.phase = .finished → q.stopRequested = false →
      Trans.Always (OpenAIQuery.step p) OpenAIQuery.Answered (OpenAIProvider.query prompt continuation) es →
      Trans.Along (OpenAIQuery.step p) OpenAIQuery.TimelyPush (OpenAIProvider.query prompt continuation) es) := by
  constructor
  · exact OpenAIQuery.answered_of_timely (OpenAIQuery.timelyInv_query prompt continuation)
      (OpenAIQuery.shownInv_query prompt continuation)
  · have hcounted : (OpenAIProvider.query prompt continuation).Counted := Nat.le_refl 1
    exact OpenAIQuery.timely_of_answered hcounted h

/-! ### A push during the first turn -/

section Trial

/-- The rest of a turn that is answered at once. -/
def answeredRun : List OpenAIQueryEvent :=
  [.turn .listed, .turn (.answers (trialResponse "r1" [])), .turn .resumes, .settles, .reads, .resumes]

def pushedRun : List OpenAIQueryEvent :=
  [.starts, .turn .listed, .push (ofString "b"), .turn (.requestFails false false), .settles] ++ answeredRun

def OpenAIQueryPhase.isFinished : OpenAIQueryPhase → Bool
  | .finished => true
  | _ => false

/-- The text is in nothing that was sent in a turn with a `result`. -/
def unseen (q : OpenAIQuery) (text : Text) : Bool :=
  q.results.all fun r => r.2.sent.all fun request => request.input.shown.all fun item =>
    stringify (.obj item.fields) ≠ stringify (.obj (userMessageInput text).fields)

theorem pushed_unseen : (Trans.run (OpenAIQuery.step trialProvider) (OpenAIProvider.query (ofString "a") none)
    pushedRun).map (fun q => q.phase.isFinished && !q.stopRequested && q.prompts.contains (ofString "a") &&
      unseen q (ofString "a")) = some true := by decide +kernel

end Trial

theorem not_shows_of_unseen {q : OpenAIQuery} {text : Text} (h : unseen q text = true) :
    ∀ r ∈ q.results, ¬r.2.Shows text := by
  rintro r hr ⟨request, hrequest, hshown⟩
  have hrequests := List.all_eq_true.mp h r hr
  have hitems := List.all_eq_true.mp hrequests request hrequest
  exact of_decide_eq_true (List.all_eq_true.mp hitems _ hshown) rfl

theorem isFinished_eq {phase : OpenAIQueryPhase} (h : phase.isFinished = true) : phase = .finished := by
  cases phase with
  | finished => rfl
  | idle => cases h
  | running _ => cases h
  | reporting _ => cases h
  | resulted => cases h
  | failed => cases h

/-- The first prompt is in no request of a turn that comes to its end. -/
theorem push_loses_prompt : ¬∀ (p : OpenAIProvider) (prompt : Text) (continuation : Option Text)
    (es : List OpenAIQueryEvent) (q : OpenAIQuery),
    Trans.run (OpenAIQuery.step p) (OpenAIProvider.query prompt continuation) es = some q → q.phase = .finished →
    q.stopRequested = false → ∀ message ∈ q.prompts, ∃ r ∈ q.results, r.2.Shows message := by
  intro hall
  obtain ⟨q, hq, hfacts⟩ := Option.map_eq_some_iff.mp pushed_unseen
  simp only [Bool.and_eq_true, Bool.not_eq_true', List.contains_iff_mem] at hfacts
  obtain ⟨⟨⟨hfinished, hstop⟩, hmem⟩, hunseen⟩ := hfacts
  obtain ⟨r, hr, hshows⟩ := hall _ _ _ _ q hq (isFinished_eq hfinished) hstop _ hmem
  exact not_shows_of_unseen hunseen r hr hshows

/-- The same run is not along timely pushes only. -/
theorem pushed_run_untimely : ∃ q, Trans.run (OpenAIQuery.step trialProvider)
      (OpenAIProvider.query (ofString "a") none) pushedRun = some q ∧ q.phase = .finished ∧ q.stopRequested = false ∧
    (Trans.Always (OpenAIQuery.step trialProvider) OpenAIQuery.Answered (OpenAIProvider.query (ofString "a") none)
        pushedRun ↔
      Trans.Along (OpenAIQuery.step trialProvider) OpenAIQuery.TimelyPush (OpenAIProvider.query (ofString "a") none)
        pushedRun) := by
  obtain ⟨q, hq, hfacts⟩ := Option.map_eq_some_iff.mp pushed_unseen
  simp only [Bool.and_eq_true, Bool.not_eq_true'] at hfacts
  have hfinished := isFinished_eq hfacts.1.1.1
  obtain ⟨htimely, hanswered⟩ := pushed_prompts_answered trialProvider (ofString "a") none pushedRun q hq
  exact ⟨q, hq, hfinished, hfacts.1.1.2, hanswered hfinished hfacts.1.1.2, htimely⟩

end AgentDesk
