/-
# Streamed responses and plain ones

A stream that is complete carries the response in its `response.completed` event, and should be worth what that
response is worth. `parseSseResponse` nevertheless takes the output from the items that were announced before, and
what the completed response lacks from the one that was created. A stream that is cut leaves the response that was
created, which is in progress; the turn asks only whether it is incomplete.

* `streamed_agrees_iff`: when a complete stream is read as its response.
* `cut_unfinished_iff`: when a stream that was cut is no finished turn.
* `streamed_iff`: **both, and nothing is read of a stream without line feeds.**
* `streams_misread`: a call that was not announced is lost, and a stream that was cut may be a finished turn.
-/
import AgentDesk.SseStreams

namespace JsonText

/-! ### Properties of objects that were put together -/

theorem lookup_spreadFields {more : List (Text × Value)} (hnames : (more.map (·.1)).Nodup) (key : Text) :
    ∀ fields : List (Text × Value),
      (spreadFields fields more).lookup key = (more.lookup key).or (fields.lookup key) := by
  induction more with
  | nil =>
    intro fields
    rfl
  | cons f more ih =>
    intro fields
    obtain ⟨hnot, hrest⟩ := List.nodup_cons.mp hnames
    rw [spreadFields, ih hrest, lookup_insertField, List.lookup_cons]
    by_cases hkey : key = f.1
    · have hnone : more.lookup key = none := by
        rw [List.lookup_eq_none_iff]
        intro g hg
        have hne : key ≠ g.1 := fun he => hnot (List.mem_map.mpr ⟨g, hg, (hkey.symm.trans he).symm⟩)
        exact bne_iff_ne.mpr hne
      rw [hnone, if_pos hkey, hkey, beq_self_eq_true]
      rfl
    · rw [if_neg hkey, beq_false_of_ne hkey]

theorem JsonObject.get_spread (a b : JsonObject) (key : Text) : (a.spread b).get key = (b.get key).or (a.get key) :=
  lookup_spreadFields b.ordered.1.nodup key a.fields

theorem JsonObject.text_spread (a b : JsonObject) (key : Text) :
    (a.spread b).text key = if b.get key = none then a.text key else b.text key := by
  have htext : ∀ o : JsonObject, o.text key = (o.get key).bind Json.text? := fun _ => rfl
  rw [htext, htext, htext, JsonObject.get_spread]
  cases b.get key <;> rfl

theorem JsonObject.text_set (o : JsonObject) {key key' : Text} (v : JsonValue) (h : key' ≠ key) :
    (o.set key v).text key' = o.text key' := by
  show ((insertField o.fields key v.value).lookup key').bind Json.text? = (o.fields.lookup key').bind Json.text?
  rw [lookup_insertField, if_neg h]

end JsonText

namespace AgentDesk

open JsonText

/-! ### The text of a response -/

/-- `output_text` of a response, where it says something. -/
def ownText (outputText : Option Text) : Option Text :=
  outputText.bind fun t => if trimText t = [] then none else some t

/-- The text of the messages. -/
def messageText (output : Option (List JsonValue)) : Option Text :=
  let messages := ((output.getD []).filterMap JsonValue.record?).filter fun item => item.text typeKey = some messageType
  let joined := trimText ((messages.flatMap blockTexts).intersperse (ofString "\n")).flatten
  if joined = [] then none else some joined

theorem extractOutputText_eq (response : OpenAIResponse) :
    extractOutputText response = (ownText response.outputText).or (messageText response.output) := by
  rw [extractOutputText, ownText]
  cases response.outputText.bind fun t => if trimText t = [] then none else some t with
  | some t => rfl
  | none => rfl

theorem ownText_of_nonempty {t : Text} (h : trimText t ≠ []) : ownText (some t) = some t := if_neg h

theorem ownText_extractOutputText (response : OpenAIResponse) :
    ownText (extractOutputText response) = extractOutputText response := by
  rw [extractOutputText_eq]
  cases hown : ownText response.outputText with
  | some t =>
    obtain ⟨u, -, hu⟩ := Option.bind_eq_some_iff.mp hown
    by_cases hblank : trimText u = []
    · rw [if_pos hblank] at hu
      cases hu
    · rw [if_neg hblank] at hu
      obtain rfl := Option.some.inj hu
      exact ownText_of_nonempty hblank
  | none =>
    rw [Option.none_or]
    cases htext : messageText response.output with
    | some t =>
      rw [messageText] at htext
      split at htext
      · cases htext
      · rename_i hblank
        obtain rfl := Option.some.inj htext
        exact ownText_of_nonempty (by rwa [trimText_trimText])
    | none => rfl

theorem extractOutputText_final (output : List JsonObject) (response : JsonObject) :
    extractOutputText (finalResponse output response) =
      (ownText (response.text outputTextKey)).or (messageText (some (output.map JsonObject.value))) := by
  have hfinal := extractOutputText_eq
    { OpenAIResponse.ofObject response with output := some (output.map JsonObject.value) }
  rw [extractOutputText_eq, finalResponse]
  dsimp only
  rw [ownText_extractOutputText, hfinal]
  show ((ownText (response.text outputTextKey)).or _).or _ = _
  rw [Option.or_assoc, Option.or_self]

/-! ### The calls of a response -/

theorem collectFunctionCalls_values (l : List JsonObject) :
    collectFunctionCalls (some (l.map JsonObject.value)) = some (l.filter isFunctionCall) := by
  have hnull : (l.map JsonObject.value).any JsonValue.isNull = false := by
    rw [List.any_map, List.any_eq_false]
    intro o _
    exact Bool.false_ne_true
  have hrecords : (l.map JsonObject.value).filterMap JsonValue.record? = l := by
    rw [List.filterMap_map]
    exact List.filterMap_some
  rw [collectFunctionCalls, Option.getD_some, hnull, hrecords, if_neg Bool.false_ne_true]

theorem withText_call (texts : List (Text × Text)) (item : JsonObject) :
    withText texts item = item ∨ isFunctionCall item = false ∧ isFunctionCall (withText texts item) = false := by
  have hother : ∀ {o : JsonObject}, o.text typeKey = some messageType → isFunctionCall o = false := by
    intro o ho
    have hne : messageType ≠ functionCallType := by decide
    rw [isFunctionCall, ho]
    simpa using hne
  have hkeys : typeKey ≠ contentKey := by decide
  rw [withText]
  split
  · split
    · rename_i hmessage
      exact .inr ⟨hother hmessage, hother (by rw [JsonObject.text_set _ _ hkeys, hmessage])⟩
    · exact .inl rfl
  · exact .inl rfl

theorem filter_withText (texts : List (Text × Text)) (items : List JsonObject) :
    (items.map (withText texts)).filter isFunctionCall = items.filter isFunctionCall := by
  induction items with
  | nil => rfl
  | cons item items ih =>
    rw [List.map_cons, List.filter_cons, List.filter_cons, ih]
    rcases withText_call texts item with heq | ⟨hitem, hwith⟩
    · rw [heq]
    · rw [hitem, hwith, if_neg Bool.false_ne_true, if_neg Bool.false_ne_true]

/-- The function calls that are announced. -/
def announcedCalls (received : List (Text × JsonObject)) : List JsonObject :=
  (announcedItems received).filter isFunctionCall

theorem collectFunctionCalls_final (received : List (Text × JsonObject)) (response : JsonObject) :
    collectFunctionCalls (finalResponse (announcedOutput received) response).output =
      some (announcedCalls received) := by
  show collectFunctionCalls (some ((announcedOutput received).map JsonObject.value)) = _
  rw [collectFunctionCalls_values, announcedOutput, filter_withText]
  rfl

/-! ### A stream that is complete -/

/-- The stream has this response in its last event about the response, and these events are before it. -/
def SseStream.Completed (stream : SseStream) (before : List (Text × JsonObject)) (response : JsonObject) : Prop :=
  ∃ payload after, stream.received = before ++ (responseCompleted, payload) :: after ∧
    payload.record (ofString "response") = some response ∧ (∀ r ∈ before, r.1 ≠ responseCompleted) ∧
      ∀ r ∈ after, r.1 ≠ responseCreated ∧ r.1 ≠ responseCompleted

/-- Two responses of one worth. -/
structure Agrees (a b : OpenAIResponse) : Prop where
  id : a.id = b.id
  status : a.status = b.status
  calls : collectFunctionCalls a.output = collectFunctionCalls b.output
  text : extractOutputText a = extractOutputText b

/-- The stream is read as its response. -/
def ReadAs (raw : Text) (response : JsonObject) : Prop :=
  ∃ r, parseSseResponse raw = some r ∧ Agrees r (OpenAIResponse.ofObject response)

/-- A text that the response lacks and an earlier one has. -/
def earlier (before : List (Text × JsonObject)) (response : JsonObject) (key : Text) : Option Text :=
  if response.get key = none then (carried before).bind fun created => created.text key else none

/-- What the response says is said by the other events too, and no earlier response adds to it. -/
structure AnnouncesAll (received before : List (Text × JsonObject)) (response : JsonObject) : Prop where
  id : earlier before response idKey = none
  status : earlier before response statusKey = none
  calls : collectFunctionCalls (response.elements outputKey) = some (announcedCalls received)
  text : ownText (response.text outputTextKey) ≠ none ∨
    (ownText (earlier before response outputTextKey)).or
      (messageText (some ((announcedOutput received).map JsonObject.value))) = messageText (response.elements outputKey)

theorem carriedResponse_completed (payload : JsonObject) :
    carriedResponse responseCompleted payload = payload.record (ofString "response") := if_pos (.inr rfl)

theorem carried_completed {stream : SseStream} {before : List (Text × JsonObject)} {response : JsonObject}
    (h : stream.Completed before response) :
    carried stream.received = some (((carried before).getD emptyObject).spread response) := by
  obtain ⟨payload, after, hreceived, hresponse, -, hafter⟩ := h
  have hnone : after.filterMap (fun r => carriedResponse r.1 r.2) = [] := by
    rw [List.filterMap_eq_nil_iff]
    intro r hr
    exact if_neg fun hname => hname.elim (hafter r hr).1 (hafter r hr).2
  have hcompleted := (carriedResponse_completed payload).trans hresponse
  rw [hreceived, carried, List.filterMap_append, List.foldl_append, filterMap_cons_toList, hnone,
    List.append_nil, ← carried]
  show ((carriedResponse responseCompleted payload).toList).foldl laidOver (carried before) = _
  rw [hcompleted]
  rfl

theorem text_over (before : List (Text × JsonObject)) (response : JsonObject) (key : Text) :
    (((carried before).getD emptyObject).spread response).text key =
      (earlier before response key).or (response.text key) := by
  have hbase : ((carried before).getD emptyObject).text key =
      (carried before).bind fun created => created.text key := by
    cases carried before <;> rfl
  rw [JsonObject.text_spread, hbase, earlier]
  by_cases hkey : response.get key = none
  · have hnone : response.text key = none := by
      show (response.get key).bind Json.text? = none
      rw [hkey]
      rfl
    rw [if_pos hkey, if_pos hkey, hnone, Option.or_none]
  · rw [if_neg hkey, if_neg hkey, Option.none_or]

theorem earlier_text (before : List (Text × JsonObject)) (response : JsonObject) (key : Text) :
    earlier before response key = none ∨ response.text key = none := by
  rw [earlier]
  by_cases hkey : response.get key = none
  · right
    show (response.get key).bind Json.text? = none
    rw [hkey]
    rfl
  · exact .inl (if_neg hkey)

theorem text_over_iff (before : List (Text × JsonObject)) (response : JsonObject) (key : Text) :
    (earlier before response key).or (response.text key) = response.text key ↔ earlier before response key = none := by
  rcases earlier_text before response key with hearlier | hnone
  · simp [hearlier]
  · simp [hnone]

/-- **When a complete stream is read as its response.** -/
theorem streamed_agrees_iff {stream : SseStream} (hcr : stream.NoLoneCr) {before : List (Text × JsonObject)}
    {response : JsonObject} (h : stream.Completed before response) :
    ReadAs stream.text response ↔ AnnouncesAll stream.received before response := by
  let merged := ((carried before).getD emptyObject).spread response
  have hparse : parseSseResponse stream.text = some (finalResponse (announcedOutput stream.received) merged) := by
    rw [parse_stream hcr, carried_completed h]
    rfl
  have hid : (finalResponse (announcedOutput stream.received) merged).id =
      (earlier before response idKey).or (response.text idKey) := text_over before response idKey
  have hstatus : (finalResponse (announcedOutput stream.received) merged).status =
      (earlier before response statusKey).or (response.text statusKey) := text_over before response statusKey
  have hcalls := collectFunctionCalls_final stream.received merged
  have htext := extractOutputText_final (announcedOutput stream.received) merged
  have hown : ownText (merged.text outputTextKey) =
      (ownText (earlier before response outputTextKey)).or (ownText (response.text outputTextKey)) := by
    rw [text_over]
    rcases earlier_text before response outputTextKey with hnone | hnone
    · simp [hnone, ownText]
    · simp [hnone, ownText]
  have hplain : extractOutputText (OpenAIResponse.ofObject response) =
      (ownText (response.text outputTextKey)).or (messageText (response.elements outputKey)) := extractOutputText_eq _
  have htextiff : extractOutputText (finalResponse (announcedOutput stream.received) merged) =
      extractOutputText (OpenAIResponse.ofObject response) ↔ ownText (response.text outputTextKey) ≠ none ∨
        (ownText (earlier before response outputTextKey)).or
          (messageText (some ((announcedOutput stream.received).map JsonObject.value))) =
            messageText (response.elements outputKey) := by
    rw [htext, hown, hplain]
    cases hresponse : ownText (response.text outputTextKey) with
    | some t =>
      have hnone : earlier before response outputTextKey = none :=
        (earlier_text before response outputTextKey).resolve_right fun hnone => by
          rw [hnone] at hresponse
          cases hresponse
      rw [hnone]
      simp [ownText]
    | none => simp
  constructor
  · rintro ⟨r, hr, hagrees⟩
    obtain rfl := Option.some.inj (hparse.symm.trans hr)
    have hid' := hid.symm.trans hagrees.id
    have hstatus' := hstatus.symm.trans hagrees.status
    exact {
      id := (text_over_iff before response idKey).mp hid'
      status := (text_over_iff before response statusKey).mp hstatus'
      calls := hagrees.calls.symm.trans hcalls
      text := htextiff.mp hagrees.text }
  · intro hall
    refine ⟨_, hparse, ?_⟩
    exact {
      id := hid.trans ((text_over_iff before response idKey).mpr hall.id)
      status := hstatus.trans ((text_over_iff before response statusKey).mpr hall.status)
      calls := hcalls.trans hall.calls.symm
      text := htextiff.mpr hall.text }

/-! ### A stream that is cut -/

/-- The response was not completed. -/
def SseStream.Cut (stream : SseStream) : Prop := ∀ r ∈ stream.received, r.1 ≠ responseCompleted

/-- Nothing was carried, or what was carried is no end of a turn. -/
def NothingToFinish (received : List (Text × JsonObject)) : Prop :=
  ∀ response, carried received = some response →
    response.readString idKey = none ∨ announcedCalls received ≠ [] ∨
      (OpenAIResponse.ofObject response).errorMessage.getD [] ≠ [] ∨
        response.text statusKey = some (ofString "incomplete")

/-- The turn ends with the response as its answer. -/
def EndsTurn (p : OpenAIProvider) (t : OpenAITurn) (response : OpenAIResponse) : Prop :=
  ∃ continuation text, (t.proceed p response).phase = .returned continuation text

theorem ask_not_returned (t : OpenAITurn) (continuation : Text) (text : Option Text) :
    t.ask.phase ≠ .returned continuation text := by
  rw [OpenAITurn.ask]
  by_cases haborted : t.aborted = true
  · rw [if_pos haborted]
    exact nofun
  · rw [if_neg haborted]
    exact nofun

theorem callTools_not_returned (p : OpenAIProvider) (t : OpenAITurn) (response : OpenAIResponse) (responseId : Text)
    (calls outputs : List JsonObject) (continuation : Text) (text : Option Text) :
    (t.callTools p response responseId calls outputs).phase ≠ .returned continuation text := by
  rcases OpenAITurn.callTools_cases response responseId calls outputs with
    ⟨-, hround⟩ | ⟨-, hthrown⟩ | ⟨-, skipped, item, call, rest, -, -, -, hcall⟩
  · rw [hround]
    exact ask_not_returned _ continuation text
  · rw [hthrown]
    exact nofun
  · rw [hcall]
    exact nofun

theorem finish_returned_iff (p : OpenAIProvider) (t : OpenAITurn) (response : OpenAIResponse) (responseId : Text) :
    (∃ continuation text, (t.finish p response responseId).phase = .returned continuation text) ↔
      response.errorMessage.getD [] = [] ∧ response.status ≠ some (ofString "incomplete") := by
  by_cases hfails : response.errorMessage.getD [] ≠ [] ∨ response.status = some (ofString "incomplete")
  · have hthrown : (t.finish p response responseId).phase = .thrown := by
      rw [OpenAITurn.finish, if_pos hfails]
    rw [hthrown]
    constructor
    · rintro ⟨_, _, h⟩
      cases h
    · rintro ⟨herror, hstatus⟩
      exact absurd hfails (not_or.mpr ⟨not_not.mpr herror, hstatus⟩)
  · obtain ⟨herror, hstatus⟩ := not_or.mp hfails
    refine ⟨fun _ => ⟨not_not.mp herror, hstatus⟩, fun _ => ?_⟩
    rw [OpenAITurn.finish, if_neg hfails]
    exact ⟨_, _, rfl⟩

/-- **When a response is the answer of a turn.** -/
theorem endsTurn_iff (p : OpenAIProvider) (t : OpenAITurn) {response : OpenAIResponse} {calls : List JsonObject}
    (hcalls : collectFunctionCalls response.output = some calls) : EndsTurn p t response ↔
      response.id.bind nonBlank ≠ none ∧ calls = [] ∧ response.errorMessage.getD [] = [] ∧
        response.status ≠ some (ofString "incomplete") := by
  rw [EndsTurn, OpenAITurn.proceed, hcalls]
  cases hid : response.id.bind nonBlank with
  | none =>
    constructor
    · rintro ⟨_, _, h⟩
      cases h
    · exact fun h => absurd rfl h.1
  | some responseId =>
    dsimp only
    by_cases hnil : calls = []
    · have hrouting : ¬(p.role = .routing ∧ calls ≠ []) := fun h => h.2 hnil
      rw [if_neg hrouting, if_pos hnil, finish_returned_iff]
      simp [hnil]
    · rw [if_neg hnil]
      constructor
      · rintro ⟨continuation, text, h⟩
        split at h
        · cases h
        · exact absurd h (callTools_not_returned p t response responseId calls [] continuation text)
      · exact fun h => absurd h.2.1 hnil

/-- **When a stream that was cut is no finished turn.** -/
theorem cut_unfinished_iff {stream : SseStream} (hcr : stream.NoLoneCr) (p : OpenAIProvider) (t : OpenAITurn) :
    (∀ r, parseSseResponse stream.text = some r → ¬EndsTurn p t r) ↔ NothingToFinish stream.received := by
  rw [parse_stream hcr]
  constructor
  · intro hunfinished response hcarried
    have hends := hunfinished _ (by rw [hcarried, Option.map_some])
    rw [endsTurn_iff p t (collectFunctionCalls_final stream.received response)] at hends
    by_contra hnot
    push Not at hnot
    exact hends ⟨hnot.1, hnot.2.1, hnot.2.2.1, hnot.2.2.2⟩
  · intro hnothing r hr hends
    obtain ⟨response, hcarried, rfl⟩ := Option.map_eq_some_iff.mp hr
    obtain ⟨hid, hcalls, herror, hstatus⟩ :=
      (endsTurn_iff p t (collectFunctionCalls_final stream.received response)).mp hends
    rcases hnothing response hcarried with hnone | hsome | hmessage | hincomplete
    · exact hid hnone
    · exact hsome hcalls
    · exact hmessage herror
    · exact hstatus hincomplete

/-! ### Streams without line feeds -/

theorem readLine_once (line : Text) : (SseState.initial.readLine line).response = none ∧
    ((SseState.initial.readLine line).currentEvent = [] ∨ (SseState.initial.readLine line).dataLines = []) := by
  have hflush : SseState.initial.flushEvent = SseState.initial := SseState.flushEvent_clean ⟨rfl, rfl⟩
  rw [SseState.readLine, hflush]
  split
  · exact ⟨rfl, .inl rfl⟩
  · split
    · exact ⟨rfl, .inr rfl⟩
    · split
      · exact ⟨rfl, .inl rfl⟩
      · exact ⟨rfl, .inl rfl⟩

/-- **Nothing is read of a stream without line feeds.** -/
theorem parse_without_lf {raw : Text} (h : 0x0a ∉ raw) : parseSseResponse raw = none := by
  have hone : lines raw = [raw] := List.splitOn_eq_singleton h
  have hresponse : ((SseState.initial.readLine raw).flushEvent).response = none := by
    obtain ⟨hnone, hevent⟩ := readLine_once raw
    rw [SseState.flushEvent]
    cases hparse : parseRecord (trimText (joinLines (SseState.initial.readLine raw).dataLines)) with
    | none => exact hnone
    | some payload =>
      rcases hevent with hevent | hdata
      · have hcarried : carriedResponse [] payload = none := if_neg (by decide)
        dsimp only
        rw [SseState.received, hevent, hcarried]
        exact hnone
      · have hempty : parseRecord (trimText (joinLines [])) = none := by decide
        rw [hdata, hempty] at hparse
        cases hparse
  rw [parseSseResponse, hone, List.foldl_cons, List.foldl_nil]
  dsimp only
  rw [hresponse]
  split <;> rfl

/-- **A stream is worth what its response is, exactly when the other events say what the response says, and one that
was cut is no finished turn, exactly when it leaves nothing to finish; nothing is read without line feeds.** -/
theorem streamed_iff (stream : SseStream) :
    (stream.NoLoneCr →
      (∀ before response, stream.Completed before response →
        (ReadAs stream.text response ↔ AnnouncesAll stream.received before response)) ∧
      (stream.Cut → ∀ p t, (∀ r, parseSseResponse stream.text = some r → ¬EndsTurn p t r) ↔
        NothingToFinish stream.received)) ∧
    (0x0a ∉ stream.text → parseSseResponse stream.text = none) := by
  refine ⟨fun hcr => ⟨fun before response h => streamed_agrees_iff hcr h, fun _ p t => cut_unfinished_iff hcr p t⟩, ?_⟩
  exact parse_without_lf

/-- A value after a space. -/
def spaced (value : Text) (h : trimText value = value ∧ 0x0a ∉ value ∧ 0x0d ∉ value) : Padded where
  before := [0x20]
  value := value
  after := []
  blank := List.forall_mem_singleton.mpr (by decide)
  trimmed := h.1
  inLine := by
    have hspace : ∀ c ∈ [0x0a, 0x0d], c ∉ value → c ∉ [0x20] ++ value ++ ([] : Text) := by
      intro c hc hnot hmem
      rcases List.mem_append.mp (List.append_nil (_ ++ value) ▸ hmem) with hmem | hmem
      · rw [List.mem_singleton.mp hmem] at hc
        exact absurd hc (by decide)
      · exact hnot hmem
    exact ⟨hspace _ (by decide) h.2.1, hspace _ (by decide) h.2.2⟩

/-- An event as the API writes it. -/
def apiEvent (ending : LineEnding) (name data : Padded) : SseEvent :=
  ⟨[⟨.event name, ending⟩, ⟨.data data, ending⟩], [ending], List.cons_ne_nil _ _⟩

def createdName : Padded := spaced responseCreated (by decide)

def completedName : Padded := spaced responseCompleted (by decide)

def createdData : Padded :=
  spaced (ofString "\x7b\"response\":\x7b\"id\":\"resp_1\",\"status\":\"in_progress\"\x7d\x7d") (by decide)

def answerData : Padded :=
  spaced (ofString
    "\x7b\"response\":\x7b\"id\":\"resp_1\",\"status\":\"completed\",\"output\":[],\"output_text\":\"Done.\"\x7d\x7d")
    (by decide)

def callData : Padded :=
  spaced (ofString "\x7b\"response\":\x7b\"id\":\"resp_1\"," ++
    ofString "\"output\":[\x7b\"type\":\"function_call\",\"call_id\":\"c\"\x7d]\x7d\x7d") (by decide)

/-- A stream as the API writes it, cut in the first line of an event or not at all. -/
def apiStream (ending : LineEnding) (events : List (Padded × Padded)) (next : Option Padded) : SseStream :=
  ⟨events.map fun e => apiEvent ending e.1 e.2, [], next.map .event, false⟩

theorem apiStream_noLoneCr {ending : LineEnding} (hending : ending ≠ .cr) (events : List (Padded × Padded))
    (next : Option Padded) : (apiStream ending events next).NoLoneCr := by
  refine ⟨?_, ?_, fun l hl => absurd hl List.not_mem_nil⟩
  · intro e he l hl
    obtain ⟨data, -, rfl⟩ := List.mem_map.mp he
    rcases List.mem_cons.mp hl with rfl | hl
    · exact hending
    · rw [List.mem_singleton.mp hl]
      exact hending
  · intro e he hcr
    obtain ⟨data, -, rfl⟩ := List.mem_map.mp he
    exact hending (List.mem_singleton.mp hcr).symm

/-- What an event of the API says. -/
def apiReceived (e : Padded × Padded) : Option (Text × JsonObject) :=
  (parseRecord e.2.value).map fun payload => (e.1.value, payload)

theorem received_apiStream (ending : LineEnding) (events : List (Padded × Padded)) (next : Option Padded) :
    (apiStream ending events next).received = events.filterMap apiReceived := by
  have hevent : ∀ e : Padded × Padded, (apiEvent ending e.1 e.2).received = apiReceived e := by
    intro e
    have hone : joinLines [e.2.value] = e.2.value := List.append_nil _
    show (parseRecord (trimText (joinLines [e.2.value]))).map _ = _
    rw [hone, e.2.trimmed]
    rfl
  have htail : readFields (next.map SseField.event).toList = none := by
    have hnone : parseRecord (trimText (joinLines [])) = none := by decide
    have hchunks : (next.map SseField.event).toList.filterMap SseField.chunk? = [] := by cases next <;> rfl
    rw [readFields, hchunks, hnone]
    rfl
  show (events.map fun e => apiEvent ending e.1 e.2).filterMap SseEvent.received ++
    (readFields (next.map SseField.event).toList).toList = _
  rw [htail, List.filterMap_map, Option.toList_none, List.append_nil]
  exact List.filterMap_congr fun e _ => hevent e

theorem name_of_received {events : List (Padded × Padded)} {r : Text × JsonObject}
    (h : r ∈ events.filterMap apiReceived) : r.1 ∈ events.map fun e => e.1.value := by
  obtain ⟨e, he, hr⟩ := List.mem_filterMap.mp h
  obtain ⟨payload, -, rfl⟩ := Option.map_eq_some_iff.mp hr
  exact List.mem_map.mpr ⟨e, he, rfl⟩

/-- A response as its event's data has it. -/
def dataResponse (data : Padded) : Option JsonObject :=
  (parseRecord data.value).bind fun payload => payload.record (ofString "response")

theorem completed_of_data {ending : LineEnding} {events : List (Padded × Padded)} {data : Padded}
    {response : JsonObject} (hdata : dataResponse data = some response)
    (hbefore : ∀ e ∈ events, e.1.value ≠ responseCompleted) :
    (apiStream ending (events ++ [(completedName, data)]) none).Completed (events.filterMap apiReceived) response := by
  obtain ⟨payload, hparse, hresponse⟩ := Option.bind_eq_some_iff.mp hdata
  refine ⟨payload, [], ?_, hresponse, fun r hr => ?_, fun r hr => absurd hr List.not_mem_nil⟩
  · have hlast : apiReceived (completedName, data) = some (responseCompleted, payload) := by
      rw [apiReceived, hparse]
      rfl
    rw [received_apiStream, List.filterMap_append, List.filterMap_cons_some hlast]
    rfl
  · obtain ⟨e, he, heq⟩ := List.mem_map.mp (name_of_received hr)
    exact fun hname => hbefore e he (heq.trans hname)

theorem announcedCalls_none {received : List (Text × JsonObject)} (h : ∀ r ∈ received, r.1 ≠ outputItemDone) :
    announcedCalls received = [] := by
  have hitems : announcedItems received = [] := by
    rw [announcedItems, List.filterMap_eq_nil_iff]
    intro r hr
    exact if_neg (h r hr)
  rw [announcedCalls, hitems]
  rfl

/-- A completed response with a function call, and nothing else. -/
def terseStream : SseStream := apiStream .lf [(completedName, callData)] none

theorem terse_call_lost : terseStream.NoLoneCr ∧ ∃ response, terseStream.Completed [] response ∧
    ¬ReadAs terseStream.text response := by
  have hcr : terseStream.NoLoneCr := apiStream_noLoneCr (by decide : LineEnding.lf ≠ .cr) _ _
  have hcalls : (dataResponse callData).map (fun response =>
      (collectFunctionCalls (response.elements outputKey)).map List.length) = some (some 1) := by decide +kernel
  obtain ⟨response, hdata, hcall⟩ := Option.map_eq_some_iff.mp hcalls
  have hcompleted : terseStream.Completed [] response :=
    @completed_of_data .lf [] callData response hdata fun e he => absurd he List.not_mem_nil
  refine ⟨hcr, response, hcompleted, fun hread => ?_⟩
  have hnames : ∀ r ∈ terseStream.received, r.1 ≠ outputItemDone := by
    intro r hr
    rw [terseStream, received_apiStream] at hr
    rw [List.mem_singleton.mp (name_of_received hr)]
    decide
  have hannounced := ((streamed_agrees_iff hcr hcompleted).mp hread).calls
  rw [announcedCalls_none hnames] at hannounced
  rw [hannounced] at hcall
  exact absurd hcall (by simp)

/-- A stream that was cut after `response.created`. -/
def cutStream : SseStream := apiStream .lf [(createdName, createdData)] (some completedName)

theorem cutStream_names : ∀ r ∈ cutStream.received, r.1 = responseCreated := by
  intro r hr
  rw [cutStream, received_apiStream] at hr
  exact List.mem_singleton.mp (name_of_received hr)

theorem cutStream_cut : cutStream.Cut := by
  intro r hr
  rw [cutStream_names r hr]
  decide

theorem cut_finished (p : OpenAIProvider) (t : OpenAITurn) :
    ∃ r, parseSseResponse cutStream.text = some r ∧ EndsTurn p t r := by
  have hcr : cutStream.NoLoneCr := apiStream_noLoneCr (by decide : LineEnding.lf ≠ .cr) _ _
  have hcarried : (carried cutStream.received).map (fun response => (response.readString idKey,
      (OpenAIResponse.ofObject response).errorMessage, response.text statusKey)) =
        some (some (ofString "resp_1"), none, some (ofString "in_progress")) := by decide +kernel
  obtain ⟨response, hresponse, heq⟩ := Option.map_eq_some_iff.mp hcarried
  obtain ⟨hid, hrest⟩ := Prod.mk.inj heq
  obtain ⟨herror, hstatus⟩ := Prod.mk.inj hrest
  have hcalls : announcedCalls cutStream.received = [] := announcedCalls_none fun r hr => by
    rw [cutStream_names r hr]
    decide
  have hreadId : response.readString idKey ≠ none := by simp [hid]
  have hmessage : (OpenAIResponse.ofObject response).errorMessage.getD [] = [] := by rw [herror]; rfl
  have hincomplete : response.text statusKey ≠ some (ofString "incomplete") := by
    rw [hstatus]
    decide
  refine ⟨_, by rw [parse_stream hcr, hresponse, Option.map_some], ?_⟩
  exact (endsTurn_iff p t (collectFunctionCalls_final _ _)).mpr ⟨hreadId, hcalls, hmessage, hincomplete⟩

/-- A call that was not announced is lost, and a stream that was cut may be a finished turn. -/
theorem streams_misread : (terseStream.NoLoneCr ∧ ∃ response, terseStream.Completed [] response ∧
    ¬ReadAs terseStream.text response) ∧
    cutStream.Cut ∧ ∀ p t, ∃ r, parseSseResponse cutStream.text = some r ∧ EndsTurn p t r :=
  ⟨terse_call_lost, cutStream_cut, cut_finished⟩

/-- The response as it was created, and as it was completed. -/
def answerStream (ending : LineEnding) : SseStream :=
  apiStream ending [(createdName, createdData), (completedName, answerData)] none

theorem streamed_iff_answer : (∃ before response, (answerStream .crlf).Completed before response ∧
      ReadAs (answerStream .crlf).text response) ∧
    (∀ p t, (∀ r, parseSseResponse cutStream.text = some r → ¬EndsTurn p t r) ↔ NothingToFinish cutStream.received) ∧
    parseSseResponse (answerStream .cr).text = none := by
  have hcr : (answerStream .crlf).NoLoneCr := apiStream_noLoneCr (by decide : LineEnding.crlf ≠ .cr) _ _
  have hcut : cutStream.NoLoneCr := apiStream_noLoneCr (by decide : LineEnding.lf ≠ .cr) _ _
  have hfacts : (dataResponse answerData).map (fun response =>
      (decide (response.get idKey ≠ none ∧ response.get statusKey ≠ none),
      (collectFunctionCalls (response.elements outputKey)).map List.length,
        ownText (response.text outputTextKey))) = some (true, some 0, some (ofString "Done.")) := by decide +kernel
  obtain ⟨response, hdata, heq⟩ := Option.map_eq_some_iff.mp hfacts
  obtain ⟨hnames, hrest⟩ := Prod.mk.inj heq
  obtain ⟨hcalls, htext⟩ := Prod.mk.inj hrest
  obtain ⟨calls, hcollect, hlength⟩ := Option.map_eq_some_iff.mp hcalls
  obtain ⟨hid, hstatus⟩ := of_decide_eq_true hnames
  have hcompleted : (answerStream .crlf).Completed _ response :=
    @completed_of_data .crlf [(createdName, createdData)] answerData response hdata (by decide)
  have hannounced : announcedCalls (answerStream .crlf).received = [] := by
    refine announcedCalls_none fun r hr => ?_
    rw [answerStream, received_apiStream] at hr
    have hname := name_of_received hr
    rcases List.mem_cons.mp hname with hname | hname
    · rw [hname]
      decide
    · rw [List.mem_singleton.mp hname]
      decide
  refine ⟨⟨_, response, hcompleted, (((streamed_iff (answerStream .crlf)).1 hcr).1 _ response hcompleted).mpr ?_⟩,
    ((streamed_iff cutStream).1 hcut).2 cutStream_cut, (streamed_iff (answerStream .cr)).2 (by decide)⟩
  exact {
    id := if_neg hid
    status := if_neg hstatus
    calls := by rw [hcollect, hannounced, List.length_eq_zero_iff.mp hlength]
    text := .inl (by simp [htext]) }

end AgentDesk
