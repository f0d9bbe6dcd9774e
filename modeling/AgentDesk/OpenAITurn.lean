/-
# One turn of the OpenAI provider

`runTurn` of `providers/openai.ts`: the history is restored, the prompt is added to it, and the model is
asked again until it answers without function calls. In between the tools run one after the other, and
the continuation is stored after each round of them. A turn is an object of its own; what its awaited
calls give, and when it is aborted, are its events.

* `step_move`: what one event does.
* `rounds_step`: the log has the rounds of tools as they are completed.

The instructions and the tools of a request and the usage records are left out: they are passed on. The
fields `sent`, `received` and `rounds` are the log of the turn.
-/
import AgentDesk.Transcripts
import AgentDesk.Trans

namespace AgentDesk

open JsonText

inductive OpenAIRole where
  | execution | routing
  deriving DecidableEq, Repr

structure OpenAIProvider where
  role : OpenAIRole
  forceTransport : Option OpenAITransport
  /-- There is a key, or a proxy that has one. -/
  credentials : Bool

/-- A response body. A property of another type counts as missing. -/
structure OpenAIResponse where
  id : Option Text
  output : Option (List JsonValue)
  outputText : Option Text
  errorMessage : Option Text
  status : Option Text

/-- The texts of a message's content. -/
def blockTexts (item : JsonObject) : List Text :=
  match item.get (ofString "content") with
  | some (.arr blocks) => blocks.filterMap fun
    | .obj fields =>
      if fieldText fields typeKey = some (ofString "output_text") ∨
          fieldText fields typeKey = some (ofString "text") then
        fieldText fields (ofString "text")
      else none
    | _ => none
  | _ => []

def extractOutputText (response : OpenAIResponse) : Option Text :=
  let messages := ((response.output.getD []).filterMap JsonValue.record?).filter fun item =>
    item.text typeKey = some messageType
  let joined := trimText ((messages.flatMap blockTexts).intersperse (ofString "\n")).flatten
  match response.outputText.bind fun t => if trimText t = [] then none else some t with
  | some t => some t
  | none => if joined = [] then none else some joined

/-- `input` of a request. -/
inductive RequestInput where
  | item (item : Option JsonObject)
  | items (items : List JsonObject)

structure OpenAIRequest where
  transport : OpenAITransport
  mode : ContinuationMode
  previousResponseId : Option Text
  input : RequestInput

/-- The transcript is sent in full. -/
def OpenAIRequest.Full (request : OpenAIRequest) : Prop :=
  request.mode = .stateless ∨ request.transport = .chatCompletions

/-- A call that is carried out. -/
structure ToolCall where
  callId : Text
  name : Text
  arguments : Option Text

/-- A function call that can be carried out: it has an id and a name. -/
def toolCall? (call : JsonObject) : Option ToolCall :=
  match call.readString callIdKey, call.readString nameKey with
  | some callId, some name => some ⟨callId, name, call.readString (ofString "arguments")⟩
  | _, _ => none

/-- A completed round of tools: the transcript before it, and what was appended. -/
structure ToolRound where
  before : List JsonObject
  response : OpenAIResponse
  outputs : List JsonObject

inductive OpenAIPhase where
  | listing
  | compacting (boundary : ℕ)
  | asking
  | answered (response : OpenAIResponse)
  | calling (response : OpenAIResponse) (responseId : Text) (call : ToolCall) (rest outputs : List JsonObject)
  | returned (continuation : Text) (text : Option Text)
  | thrown

structure OpenAITurn where
  mode : ContinuationMode
  transport : OpenAITransport
  previousResponseId : Option Text
  transcript : List JsonObject
  nextInput : RequestInput
  phase : OpenAIPhase
  aborted : Bool
  persisted : Option Text
  progressMessages : List Text
  compacted : Option Text
  sent : List OpenAIRequest
  received : List OpenAIResponse
  rounds : List ToolRound

def runTurn (p : OpenAIProvider) (prompt : Text) (continuation : Option Text) : OpenAITurn :=
  let restored := parseContinuationState continuation
  { mode := if p.forceTransport = some .chatCompletions then .stateless else restored.mode
    transport := p.forceTransport.getD restored.transport
    previousResponseId :=
      if p.forceTransport = some .chatCompletions then none
      else if restored.mode = .responses then restored.responseId
      else none
    transcript := appendTranscript restored.transcript [userMessageInput prompt]
    nextInput := .item none
    phase := if p.credentials then .listing else .thrown
    aborted := false
    persisted := none
    progressMessages := []
    compacted := none
    sent := []
    received := []
    rounds := [] }

namespace OpenAITurn

def request (t : OpenAITurn) : OpenAIRequest where
  transport := t.transport
  mode := t.mode
  previousResponseId := if t.transport = .responses ∧ t.mode = .responses then t.previousResponseId else none
  input :=
    match t.transport, t.nextInput with
    | .chatCompletions, .item _ => .items t.transcript
    | _, input => input

/-- The head of the loop. -/
def ask (t : OpenAITurn) : OpenAITurn :=
  if t.aborted then { t with phase := .thrown } else { t with phase := .asking, sent := t.sent ++ [t.request] }

/-- The first request. -/
def begin (t : OpenAITurn) : OpenAITurn :=
  ask { t with
    nextInput :=
      if t.transport = .chatCompletions ∨ t.mode = .stateless then .items t.transcript
      else .item t.transcript.getLast? }

/-- Too long a transcript is summarized, or it is trimmed. -/
def afterTools (t : OpenAITurn) : OpenAITurn :=
  if compactTriggerChars < totalTranscriptChars t.transcript then
    match computeCompactionBoundary t.transcript keepRecentItems keepRecentChars with
    | 0 => begin { t with transcript := trimTranscript t.transcript }
    | boundary + 1 => { t with phase := .compacting (boundary + 1) }
  else t.begin

/-- `runCompaction`, with the summary. -/
def summarizedTranscript (transcript : List JsonObject) (boundary : ℕ) (summary : Text) : List JsonObject :=
  compactedSummaryMessage summary :: (transcript.drop boundary).map cloneJson

def compactedTranscript (transcript : List JsonObject) (boundary : ℕ) (summary : Text) : List JsonObject :=
  if maxReplayTranscriptChars < totalTranscriptChars (summarizedTranscript transcript boundary summary) then
    trimTranscript (summarizedTranscript transcript boundary summary)
  else summarizedTranscript transcript boundary summary

/-- The local history is another than the server's from here on. -/
def compact (t : OpenAITurn) (boundary : ℕ) (summary : Text) : OpenAITurn :=
  begin { t with
    transcript := compactedTranscript t.transcript boundary summary
    compacted := some summary
    mode := .stateless
    previousResponseId := none }

/-- Send the whole transcript from here on. -/
def replay (t : OpenAITurn) (transport : OpenAITransport) : OpenAITurn :=
  ask { t with mode := .stateless, transport, previousResponseId := none, nextInput := .items t.transcript }

/-- `serializeContinuationState` after a response. -/
def continuation (t : OpenAITurn) (responseId : Text) : Text :=
  serializeContinuationState
    { v := 2, mode := t.mode, transport := t.transport
      responseId := if t.mode = .responses then some responseId else none
      transcript := t.transcript }

end OpenAITurn

/-- `persistExecutionContinuation`. -/
def persistExecution (p : OpenAIProvider) (persisted : Option Text) (value : Text) : Option Text :=
  if p.role = .execution then some value else persisted

namespace OpenAITurn

variable (p : OpenAIProvider)

/-- An answer without function calls. -/
def finish (t : OpenAITurn) (response : OpenAIResponse) (responseId : Text) : OpenAITurn :=
  let t := { t with transcript := appendTranscript t.transcript (replayableOutputItems response.output) }
  let t := { t with persisted := persistExecution p t.persisted (t.continuation responseId) }
  if (response.errorMessage.getD []) ≠ [] ∨ response.status = some (ofString "incomplete") then
    { t with phase := .thrown }
  else { t with phase := .returned (t.continuation responseId) (extractOutputText response) }

/-- The end of a round of tools. -/
def completeRound (t : OpenAITurn) (response : OpenAIResponse) (responseId : Text) (outputs : List JsonObject) :
    OpenAITurn :=
  let round : ToolRound := { before := t.transcript, response, outputs }
  let t :=
    { t with
      transcript := appendTranscript t.transcript (replayableOutputItems response.output ++ outputs)
      rounds := t.rounds ++ [round] }
  ask { t with
    persisted := persistExecution p t.persisted (t.continuation responseId)
    previousResponseId := some responseId
    nextInput :=
      if t.transport = .responses ∧ t.mode = .responses then .items outputs else .items t.transcript }

/-- The tool is called. -/
def call (t : OpenAITurn) (response : OpenAIResponse) (responseId : Text) (call : ToolCall)
    (rest outputs : List JsonObject) : OpenAITurn :=
  { t with
    progressMessages := t.progressMessages ++ [ofString "Calling " ++ call.name]
    phase := .calling response responseId call rest outputs }

/-- The loop over the function calls. One without an id or a name is passed over. -/
def callTools (t : OpenAITurn) (response : OpenAIResponse) (responseId : Text) :
    (calls outputs : List JsonObject) → OpenAITurn
  | [], outputs => t.completeRound p response responseId outputs
  | item :: rest, outputs =>
    if t.aborted then { t with phase := .thrown }
    else
      match toolCall? item with
      | some call => t.call response responseId call rest outputs
      | none => t.callTools response responseId rest outputs

/-- The rest of the loop's body, with the response. -/
def proceed (t : OpenAITurn) (response : OpenAIResponse) : OpenAITurn :=
  match response.id.bind nonBlank, collectFunctionCalls response.output with
  | none, _ => { t with phase := .thrown }
  | _, none => { t with phase := .thrown }
  | some responseId, some calls =>
    if p.role = .routing ∧ calls ≠ [] then { t with phase := .thrown }
    else if calls = [] then t.finish p response responseId
    else t.callTools p response responseId calls []

end OpenAITurn

inductive OpenAIEvent where
  | abort
  | listed
  | listFails
  | summarized (summary : Option Text)
  | summaryFails
  | answers (response : OpenAIResponse)
  | requestFails (previousResponseUnsupported transportUnstable : Bool)
  | resumes
  | toolReturns (output : Text)
  | toolFails

/-- A failed request: two kinds of failure are answered by sending the whole transcript. -/
def OpenAITurn.failed (p : OpenAIProvider) (t : OpenAITurn) (previousResponseUnsupported transportUnstable : Bool) :
    OpenAITurn :=
  if t.transport = .responses ∧ t.mode = .responses ∧ t.previousResponseId ≠ none ∧ previousResponseUnsupported then
    t.replay t.transport
  else if p.role = .execution ∧ t.transport = .responses ∧ transportUnstable then t.replay .chatCompletions
  else { t with phase := .thrown }

def OpenAITurn.step (p : OpenAIProvider) (t : OpenAITurn) : OpenAIEvent → Option OpenAITurn
  | .abort => some { t with aborted := true }
  | .listed =>
    match t.phase with
    | .listing => some t.afterTools
    | _ => none
  | .listFails =>
    match t.phase with
    | .listing => some { t with phase := .thrown }
    | _ => none
  | .summarized summary =>
    match t.phase, summary with
    | .compacting boundary, some (c :: text) => some (t.compact boundary (c :: text))
    | .compacting _, _ => some (OpenAITurn.begin { t with transcript := trimTranscript t.transcript })
    | _, _ => none
  | .summaryFails =>
    match t.phase with
    | .compacting _ =>
      if t.aborted then some { t with phase := .thrown }
      else some (OpenAITurn.begin { t with transcript := trimTranscript t.transcript })
    | _ => none
  | .answers response =>
    match t.phase with
    | .asking =>
      if t.aborted then none
      else some { t with phase := .answered response, received := t.received ++ [response] }
    | _ => none
  | .requestFails unsupported unstable =>
    match t.phase with
    | .asking => some (t.failed p unsupported unstable)
    | _ => none
  | .resumes =>
    match t.phase with
    | .answered response => some (t.proceed p response)
    | _ => none
  | .toolReturns output =>
    match t.phase with
    | .calling response responseId call rest outputs =>
      some (t.callTools p response responseId rest (outputs ++ [functionCallOutput call.callId output]))
    | _ => none
  | .toolFails =>
    match t.phase with
    | .calling .. => some { t with phase := .thrown }
    | _ => none

/-! ### What one event does -/

namespace OpenAITurn

variable {p : OpenAIProvider} {t t' : OpenAITurn} {e : OpenAIEvent}

/-- The loop over these calls ends, and no other tool is called. -/
def Done (t : OpenAITurn) (calls : List JsonObject) : Prop :=
  calls = [] ∨ t.aborted = false ∧ ∀ item ∈ calls, toolCall? item = none

instance (t : OpenAITurn) (calls : List JsonObject) : Decidable (t.Done calls) := inferInstanceAs (Decidable (_ ∨ _))

/-- The round that an event completes. -/
def completedRound (p : OpenAIProvider) (t : OpenAITurn) (e : OpenAIEvent) : Option ToolRound :=
  match e, t.phase with
  | .resumes, .answered response =>
    match response.id.bind nonBlank, collectFunctionCalls response.output with
    | some _, some calls =>
      if p.role = .execution ∧ calls ≠ [] ∧ t.Done calls then some ⟨t.transcript, response, []⟩ else none
    | _, _ => none
  | .toolReturns output, .calling response _ call rest outputs =>
    if t.Done rest then some ⟨t.transcript, response, outputs ++ [functionCallOutput call.callId output]⟩ else none
  | _, _ => none

theorem callTools_cases (response : OpenAIResponse) (responseId : Text) (calls outputs : List JsonObject) :
    (t.Done calls ∧ t.callTools p response responseId calls outputs = t.completeRound p response responseId outputs) ∨
    (¬t.Done calls ∧ t.callTools p response responseId calls outputs = { t with phase := .thrown }) ∨
    ¬t.Done calls ∧ ∃ skipped item call rest, calls = skipped ++ item :: rest ∧ toolCall? item = some call ∧
      (∀ item ∈ skipped, toolCall? item = none) ∧
      t.callTools p response responseId calls outputs = t.call response responseId call rest outputs := by
  induction calls with
  | nil => exact .inl ⟨.inl rfl, rfl⟩
  | cons item rest ih =>
    rw [callTools]
    by_cases haborted : t.aborted = true
    · have hnot : ¬t.Done (item :: rest) := by simp [Done, haborted]
      exact .inr (.inl ⟨hnot, if_pos haborted⟩)
    · rw [if_neg haborted]
      cases hcall : toolCall? item with
      | some call =>
        have hnot : ¬t.Done (item :: rest) := by simp [Done, hcall]
        exact .inr (.inr ⟨hnot, [], item, call, rest, rfl, hcall, fun _ h => absurd h List.not_mem_nil, rfl⟩)
      | none =>
        have hdone : t.Done (item :: rest) ↔ t.Done rest := by
          simp only [Done, haborted, List.forall_mem_cons, hcall, true_and, reduceCtorEq, false_or]
          exact ⟨.inr, fun h => h.elim (fun hnil => by simp [hnil]) id⟩
        rw [hdone]
        rcases ih with ⟨hrest, he⟩ | ⟨hrest, he⟩ | ⟨hrest, skipped, item', call, rest', rfl, hcall', hskipped, he⟩
        · exact .inl ⟨hrest, he⟩
        · exact .inr (.inl ⟨hrest, he⟩)
        · refine .inr (.inr ⟨hrest, item :: skipped, item', call, rest', rfl, hcall', ?_, he⟩)
          exact List.forall_mem_cons.mpr ⟨hcall, hskipped⟩

/-- A failed request that is answered by sending the whole transcript. -/
def Replays (p : OpenAIProvider) (t : OpenAITurn) (e : OpenAIEvent) : Prop :=
  ∃ unsupported unstable, e = .requestFails unsupported unstable ∧
    (t.transport = .responses ∧ t.mode = .responses ∧ t.previousResponseId ≠ none ∧ unsupported = true ∨
      p.role = .execution ∧ t.transport = .responses ∧ unstable = true)

/-- No request was sent yet, and the transcript may have been shortened. -/
structure Opened (t u : OpenAITurn) : Prop where
  before : t.phase = .listing ∨ ∃ boundary, t.phase = .compacting boundary
  aborted : u.aborted = t.aborted
  persisted : u.persisted = t.persisted
  sent : u.sent = t.sent
  received : u.received = t.received
  rounds : u.rounds = t.rounds
  last : (∀ boundary, t.phase = .compacting boundary → boundary < t.transcript.length) →
    u.transcript.getLast? = t.transcript.getLast? ∨ u.transcript.getLast? = t.transcript.getLast?.map cloneJson
  plain : (∀ item ∈ t.transcript, isToolItem item = false) → ∀ item ∈ u.transcript, isToolItem item = false
  full : t.transport = .chatCompletions → t.mode = .stateless → u.mode = .stateless
  transport : u.transport = t.transport

/-- Where the loop over the function calls is taken up: the calls that are left, and the outputs so far. -/
inductive Pending (t : OpenAITurn) : OpenAIEvent → OpenAIResponse → Text → (calls outputs : List JsonObject) → Prop
  | first {response : OpenAIResponse} {responseId : Text} {calls : List JsonObject} (h : t.phase = .answered response)
    (hid : response.id.bind nonBlank = some responseId) (hcalls : collectFunctionCalls response.output = some calls)
    (hne : calls ≠ []) : Pending t .resumes response responseId calls []
  | next {response : OpenAIResponse} {responseId : Text} {call : ToolCall} {calls outputs : List JsonObject}
    {output : Text} (h : t.phase = .calling response responseId call calls outputs) :
    Pending t (.toolReturns output) response responseId calls (outputs ++ [functionCallOutput call.callId output])

/-- What an event does. -/
inductive Move (p : OpenAIProvider) (t : OpenAITurn) : OpenAIEvent → OpenAITurn → Prop
  | aborts : Move p t .abort { t with aborted := true }
  | throws (e : OpenAIEvent) (hround : t.completedRound p e = none) : Move p t e { t with phase := .thrown }
  | compacts (boundary : ℕ) (h : t.phase = .listing)
    (hlt : t.transcript ≠ [] → boundary + 1 < t.transcript.length) :
    Move p t .listed { t with phase := .compacting (boundary + 1) }
  | opens (e : OpenAIEvent) (u : OpenAITurn) (h : Opened t u) : Move p t e u.begin
  | answers (response : OpenAIResponse) (h : t.phase = .asking) (haborted : t.aborted = false) :
    Move p t (.answers response)
      { t with phase := .answered response, received := t.received ++ [response] }
  | replays (e : OpenAIEvent) (transport : OpenAITransport) (h : t.phase = .asking) (hreplays : t.Replays p e) :
    Move p t e (t.replay transport)
  | calls {e : OpenAIEvent} {response : OpenAIResponse} {responseId : Text} {skipped rest outputs : List JsonObject}
    {item : JsonObject} {call : ToolCall} (h : Pending t e response responseId (skipped ++ item :: rest) outputs)
    (hskipped : ∀ item ∈ skipped, toolCall? item = none) (hcall : toolCall? item = some call)
    (hround : t.completedRound p e = none) : Move p t e (t.call response responseId call rest outputs)
  | completes {e : OpenAIEvent} {response : OpenAIResponse} {responseId : Text} {calls outputs : List JsonObject}
    (h : Pending t e response responseId calls outputs) (hcalls : ∀ item ∈ calls, toolCall? item = none)
    (hround : t.completedRound p e = some ⟨t.transcript, response, outputs⟩) :
    Move p t e (t.completeRound p response responseId outputs)
  | finishes (response : OpenAIResponse) (responseId : Text) (h : t.phase = .answered response)
    (hid : response.id.bind nonBlank = some responseId) (hcalls : collectFunctionCalls response.output = some []) :
    Move p t .resumes (t.finish p response responseId)

theorem callTools_move {response : OpenAIResponse} {responseId : Text} {calls outputs : List JsonObject}
    (h : Pending t e response responseId calls outputs)
    (hround : t.completedRound p e = if t.Done calls then some ⟨t.transcript, response, outputs⟩ else none) :
    Move p t e (t.callTools p response responseId calls outputs) := by
  rcases callTools_cases (p := p) response responseId calls outputs with
    ⟨hdone, he⟩ | ⟨hnot, he⟩ | ⟨hnot, skipped, item, call, rest, rfl, hcall, hskipped, he⟩
  · rw [he]
    have hcalls : ∀ item ∈ calls, toolCall? item = none := by
      rcases hdone with rfl | ⟨-, hall⟩
      · exact fun _ h => absurd h List.not_mem_nil
      · exact hall
    exact .completes h hcalls (by rw [hround, if_pos hdone])
  · rw [he]
    exact .throws e (by rw [hround, if_neg hnot])
  · rw [he]
    exact .calls h hskipped hcall (by rw [hround, if_neg hnot])

theorem opened_of_listing (h : t.phase = .listing) : Opened t t where
  before := .inl h
  aborted := rfl
  persisted := rfl
  sent := rfl
  received := rfl
  rounds := rfl
  last _ := .inl rfl
  plain := id
  full _ h := h
  transport := rfl

theorem opened_trim (h : t.phase = .listing ∨ ∃ boundary, t.phase = .compacting boundary) :
    Opened t { t with transcript := trimTranscript t.transcript } where
  before := h
  aborted := rfl
  persisted := rfl
  sent := rfl
  received := rfl
  rounds := rfl
  last _ := .inl (getLast?_trimTranscriptTo _ _)
  plain hplain item hitem := hplain item ((trimTranscriptTo_suffix _ _).subset hitem)
  full _ h := h
  transport := rfl

theorem compactedTranscript_plain {transcript : List JsonObject} (boundary : ℕ) (summary : Text)
    (h : ∀ item ∈ transcript, isToolItem item = false) :
    ∀ item ∈ compactedTranscript transcript boundary summary, isToolItem item = false := by
  intro item hitem
  have hnext : item ∈ summarizedTranscript transcript boundary summary := by
    unfold compactedTranscript at hitem
    split at hitem
    · exact (trimTranscriptTo_suffix _ _).subset hitem
    · exact hitem
  rcases List.mem_cons.mp hnext with rfl | hmem
  · exact userMessageInput_plain _
  · obtain ⟨item', hitem', rfl⟩ := List.mem_map.mp hmem
    rw [isToolItem_cloneJson]
    exact h item' (List.mem_of_mem_drop hitem')

theorem getLast?_compactedTranscript {transcript : List JsonObject} {boundary : ℕ} (summary : Text)
    (h : boundary < transcript.length) :
    (compactedTranscript transcript boundary summary).getLast? = transcript.getLast?.map cloneJson := by
  have hnext : (summarizedTranscript transcript boundary summary).getLast? = transcript.getLast?.map cloneJson := by
    have hne : (transcript.drop boundary).map cloneJson ≠ [] := by
      intro hnil
      have hlen := List.drop_eq_nil_iff.mp (List.map_eq_nil_iff.mp hnil)
      omega
    rw [summarizedTranscript, List.getLast?_cons_of_ne_nil hne, List.getLast?_map, List.getLast?_drop,
      if_neg (by omega)]
  unfold compactedTranscript
  split
  · rw [trimTranscript, getLast?_trimTranscriptTo, hnext]
  · exact hnext

theorem opened_compact {boundary : ℕ} (h : t.phase = .compacting boundary) (summary : Text) :
    Opened t
      { t with
        transcript := compactedTranscript t.transcript boundary summary
        compacted := some summary
        mode := .stateless
        previousResponseId := none } where
  before := .inr ⟨boundary, h⟩
  aborted := rfl
  persisted := rfl
  sent := rfl
  received := rfl
  rounds := rfl
  last hlt := .inr (getLast?_compactedTranscript summary (hlt boundary h))
  plain := compactedTranscript_plain boundary summary
  full _ _ := rfl
  transport := rfl

theorem proceed_move {response : OpenAIResponse} (hphase : t.phase = .answered response) :
    Move p t .resumes (t.proceed p response) := by
  rw [proceed]
  cases hid : response.id.bind nonBlank with
  | none =>
    have hround : t.completedRound p .resumes = none := by simp only [completedRound, hphase, hid]
    exact .throws _ hround
  | some responseId =>
    cases hcalls : collectFunctionCalls response.output with
    | none =>
      have hround : t.completedRound p .resumes = none := by simp only [completedRound, hphase, hid, hcalls]
      exact .throws _ hround
    | some calls =>
      have hround : t.completedRound p .resumes =
          if p.role = .execution ∧ calls ≠ [] ∧ t.Done calls then some ⟨t.transcript, response, []⟩ else none := by
        simp only [completedRound, hphase, hid, hcalls]
      by_cases hrouting : p.role = .routing ∧ calls ≠ []
      · have hnot : ¬(p.role = .execution ∧ calls ≠ [] ∧ t.Done calls) := fun h => by
          rw [hrouting.1] at h
          cases h.1
        rw [if_neg hnot] at hround
        change Move p t .resumes (if p.role = .routing ∧ calls ≠ [] then { t with phase := .thrown } else _)
        rw [if_pos hrouting]
        exact .throws _ hround
      · change Move p t .resumes (if p.role = .routing ∧ calls ≠ [] then { t with phase := .thrown } else
          if calls = [] then t.finish p response responseId else t.callTools p response responseId calls [])
        rw [if_neg hrouting]
        by_cases hnil : calls = []
        · subst hnil
          rw [if_pos rfl]
          exact .finishes response responseId hphase hid hcalls
        · rw [if_neg hnil]
          have hrole : p.role = .execution := by
            cases hrole : p.role with
            | execution => rfl
            | routing => exact absurd ⟨hrole, hnil⟩ hrouting
          apply callTools_move (.first hphase hid hcalls hnil)
          rw [hround]
          simp only [hrole, true_and, ne_eq, hnil, not_false_eq_true]

/-- **What an event does.** -/
theorem step_move (h : t.step p e = some t') : Move p t e t' := by
  cases e with
  | abort =>
    obtain rfl := Option.some.inj h
    exact .aborts
  | listed =>
    simp only [step] at h
    split at h
    · rename_i hphase
      obtain rfl := Option.some.inj h
      unfold afterTools
      split
      · split
        · exact .opens _ _ (opened_trim (.inl hphase))
        · rename_i boundary hboundary
          have hlt : t.transcript ≠ [] → boundary + 1 < t.transcript.length := by
            intro hne
            have hbound := computeCompactionBoundary_lt keepRecentItems keepRecentChars hne
            omega
          exact .compacts boundary hphase hlt
      · exact .opens _ t (opened_of_listing hphase)
    · cases h
  | listFails =>
    simp only [step] at h
    split at h
    · obtain rfl := Option.some.inj h
      exact .throws _ rfl
    · cases h
  | summarized summary =>
    simp only [step] at h
    split at h
    · rename_i boundary c text hphase
      obtain rfl := Option.some.inj h
      exact .opens _ _ (opened_compact hphase _)
    · rename_i boundary hphase _
      obtain rfl := Option.some.inj h
      exact .opens _ _ (opened_trim (.inr ⟨boundary, hphase⟩))
    · cases h
  | summaryFails =>
    simp only [step] at h
    split at h
    · rename_i boundary hphase
      split at h
      · obtain rfl := Option.some.inj h
        exact .throws _ rfl
      · obtain rfl := Option.some.inj h
        exact .opens _ _ (opened_trim (.inr ⟨boundary, hphase⟩))
    · cases h
  | answers response =>
    simp only [step] at h
    split at h
    · rename_i hphase
      split at h
      · cases h
      · rename_i haborted
        obtain rfl := Option.some.inj h
        exact .answers response hphase (Bool.eq_false_iff.mpr haborted)
    · cases h
  | requestFails unsupported unstable =>
    simp only [step] at h
    split at h
    · rename_i hphase
      obtain rfl := Option.some.inj h
      unfold failed
      split
      · rename_i hunsupported
        exact .replays _ _ hphase ⟨unsupported, unstable, rfl, .inl hunsupported⟩
      · split
        · rename_i hunstable
          exact .replays _ _ hphase ⟨unsupported, unstable, rfl, .inr hunstable⟩
        · exact .throws _ rfl
    · cases h
  | resumes =>
    simp only [step] at h
    split at h
    · rename_i response hphase
      obtain rfl := Option.some.inj h
      exact proceed_move hphase
    · cases h
  | toolReturns output =>
    simp only [step] at h
    split at h
    · rename_i response responseId call rest outputs hphase
      obtain rfl := Option.some.inj h
      apply callTools_move (.next hphase)
      simp only [completedRound, hphase]
    · cases h
  | toolFails =>
    simp only [step] at h
    split at h
    · obtain rfl := Option.some.inj h
      exact .throws _ rfl
    · cases h

theorem request_items {items : List JsonObject} (h : t.nextInput = .items items) : t.request.input = .items items := by
  rw [request, h]
  cases t.transport <;> rfl

theorem request_item {item : Option JsonObject} (h : t.nextInput = .item item) (htransport : t.transport = .responses) :
    t.request.input = .item item := by
  rw [request, h, htransport]

theorem ask_aborted (u : OpenAITurn) : u.ask.aborted = u.aborted := by
  unfold ask
  split <;> rfl

theorem step_aborted (he : e ≠ .abort) (h : t.step p e = some t') : t'.aborted = t.aborted := by
  cases step_move h with
  | aborts => exact absurd rfl he
  | throws => rfl
  | compacts => rfl
  | opens _ u hu => exact (ask_aborted _).trans hu.aborted
  | answers => rfl
  | replays => exact ask_aborted _
  | calls => rfl
  | completes => exact ask_aborted _
  | finishes response responseId =>
    unfold finish
    split <;> rfl

/-! ### The log of the rounds -/

theorem completedRound_eq_none (hanswered : ∀ response, t.phase ≠ .answered response)
    (hcalling : ∀ response responseId call rest outputs, t.phase ≠ .calling response responseId call rest outputs) :
    t.completedRound p e = none := by
  unfold completedRound
  split
  · rename_i hphase
    exact absurd hphase (hanswered _)
  · rename_i hphase
    exact absurd hphase (hcalling _ _ _ _ _)
  · rfl

theorem ask_rounds (u : OpenAITurn) : u.ask.rounds = u.rounds := by
  unfold ask
  split <;> rfl

theorem move_round (h : Move p t e t') : (t.completedRound p e = none ∧ t'.rounds = t.rounds) ∨
    ∃ response responseId calls outputs, Pending t e response responseId calls outputs ∧
      t.completedRound p e = some ⟨t.transcript, response, outputs⟩ ∧
      t' = t.completeRound p response responseId outputs := by
  cases h with
  | aborts => exact .inl ⟨rfl, rfl⟩
  | throws _ hround => exact .inl ⟨hround, rfl⟩
  | compacts => exact .inl ⟨rfl, rfl⟩
  | opens _ u hu =>
    have hnone : t.completedRound p e = none := by
      rcases hu.before with hphase | ⟨_, hphase⟩ <;> apply completedRound_eq_none <;> rw [hphase] <;> nofun
    exact .inl ⟨hnone, (ask_rounds _).trans hu.rounds⟩
  | answers => exact .inl ⟨rfl, rfl⟩
  | replays _ transport hphase _ =>
    have hnone : t.completedRound p e = none := by
      apply completedRound_eq_none <;> rw [hphase] <;> nofun
    exact .inl ⟨hnone, ask_rounds _⟩
  | calls _ _ _ hround => exact .inl ⟨hround, rfl⟩
  | completes hpending _ hround => exact .inr ⟨_, _, _, _, hpending, hround, rfl⟩
  | finishes response responseId hphase hid hcalls =>
    have hnone : t.completedRound p .resumes = none := by
      simp only [completedRound, hphase, hid, hcalls, ne_eq, not_true_eq_false, false_and, and_false, if_false]
    have hrounds : (t.finish p response responseId).rounds = t.rounds := by
      unfold finish
      split <;> rfl
    exact .inl ⟨hnone, hrounds⟩

/-- The log has the rounds as they are completed. -/
theorem rounds_step (h : t.step p e = some t') : t'.rounds = t.rounds ++ (t.completedRound p e).toList := by
  rcases move_round (step_move h) with ⟨hnone, hrounds⟩ | ⟨response, responseId, _, outputs, _, hround, rfl⟩
  · rw [hnone, hrounds, Option.toList_none, List.append_nil]
  · rw [completeRound, ask_rounds, hround]
    rfl

end OpenAITurn

/-! ### Concrete inputs -/

/-- A call of the tool `ls`, or one that does not say of which tool. -/
def trialCall (named : Bool) : JsonObject :=
  .strings ([(typeKey, functionCallType), (callIdKey, ofString "c1")] ++
    if named then [(nameKey, ofString "ls")] else []) (by
      cases named
      · change List.Pairwise _ [typeKey, callIdKey]
        decide +kernel
      · change List.Pairwise _ [typeKey, callIdKey, nameKey]
        decide +kernel)

def trialResponse (id : String) (items : List JsonObject) : OpenAIResponse where
  id := some (ofString id)
  output := some (items.map fun item => ⟨.obj item.fields, item.ordered⟩)
  outputText := none
  errorMessage := none
  status := none

def trialProvider : OpenAIProvider := ⟨.execution, none, true⟩

end AgentDesk
