/-
# A response read from an event stream

`parseSseResponse` of `providers/openai.ts` reads the text of a streamed response in one go. Lines end at a line
feed, and what is blank at their end is cut off; an `event:` line names the event, `data:` lines carry its JSON,
and an empty line ends it. Of the events four count: the response as it is created and as it is completed, each
finished output item, and each finished text. In the end the output is what the items were announced as.

A response body that is no stream is taken as it is parsed; `OpenAIResponse.ofObject` is what the turn reads of it.

Key definitions: `SseState`, `SseState.received`, `SseState.readLine`, `parseSseResponse`,
`OpenAIResponse.ofObject`.
-/
import AgentDesk.FencedText
import AgentDesk.JsonSettings
import AgentDesk.OpenAITurn

namespace JsonText

/-! ### Objects -/

/-- `JSON.parse` of a text, where that is an object. -/
def parseRecord (t : Text) : Option JsonObject :=
  match h : parse t with
  | some (.obj fields) => some ⟨fields, parse_ordered h⟩
  | _ => none

/-- A property that is an object. -/
def JsonObject.record (o : JsonObject) (key : Text) : Option JsonObject :=
  match h : o.get key with
  | some (.obj fields) => some ⟨fields, lookup_ordered o.ordered h⟩
  | _ => none

/-- The elements of a property that is an array. -/
def JsonObject.elements (o : JsonObject) (key : Text) : Option (List JsonValue) :=
  match h : o.get key with
  | some (.arr l) => some (l.attach.map fun v => ⟨v.1, allNamesList_mem (lookup_ordered o.ordered h) v.2⟩)
  | _ => none

/-- `o.key = v`. -/
def JsonObject.set (o : JsonObject) (key : Text) (v : JsonValue) : JsonObject :=
  ⟨insertField o.fields key v.value, ordered_insertField o.ordered key v.ordered⟩

def emptyObject : JsonObject := ⟨[], .nil, trivial⟩

def JsonObject.value (o : JsonObject) : JsonValue := ⟨.obj o.fields, o.ordered⟩

def spreadFields : List (Text × Value) → List (Text × Value) → List (Text × Value)
  | fields, [] => fields
  | fields, f :: more => spreadFields (insertField fields f.1 f.2) more

theorem spreadFields_ordered {fields more : List (Text × Value)} (ho : (Json.obj fields : Value).Ordered)
    (hmore : ∀ f ∈ more, f.2.Ordered) : (Json.obj (spreadFields fields more) : Value).Ordered := by
  induction more generalizing fields with
  | nil => exact ho
  | cons f more ih =>
    exact ih (ordered_insertField ho f.1 (hmore f List.mem_cons_self)) fun g hg => hmore g (List.mem_cons_of_mem f hg)

/-- `{ ...a, ...b }`. -/
def JsonObject.spread (a b : JsonObject) : JsonObject :=
  ⟨spreadFields a.fields b.fields, spreadFields_ordered a.ordered fun f hf => allNamesFields_iff.mp b.ordered.2 f hf⟩

end JsonText

namespace AgentDesk

open JsonText

/-! ### The response of a turn -/

def idKey : Text := ofString "id"

def statusKey : Text := ofString "status"

def outputKey : Text := ofString "output"

def outputTextKey : Text := ofString "output_text"

def contentKey : Text := ofString "content"

def errorKey : Text := ofString "error"

/-- What a turn reads of a response body. -/
def OpenAIResponse.ofObject (o : JsonObject) : OpenAIResponse where
  id := o.text idKey
  output := o.elements outputKey
  outputText := o.text outputTextKey
  errorMessage := (o.record errorKey).bind fun error => error.text (ofString "message")
  status := o.text statusKey

/-! ### Events -/

structure SseState where
  response : Option JsonObject
  outputItems : List JsonObject
  textByItemId : List (Text × Text)
  currentEvent : Text
  dataLines : List Text

def SseState.initial : SseState := ⟨none, [], [], [], []⟩

def responseCreated : Text := ofString "response.created"

def responseCompleted : Text := ofString "response.completed"

def outputItemDone : Text := ofString "response.output_item.done"

def outputTextDone : Text := ofString "response.output_text.done"

/-- The item that an `output_item.done` event announces. -/
def announcedItem (name : Text) (payload : JsonObject) : Option JsonObject :=
  if name = outputItemDone then payload.record (ofString "item") else none

/-- The response that a `created` or `completed` event carries. -/
def carriedResponse (name : Text) (payload : JsonObject) : Option JsonObject :=
  if name = responseCreated ∨ name = responseCompleted then payload.record (ofString "response") else none

/-- The item's id and the text of an `output_text.done` event. -/
def announcedText (name : Text) (payload : JsonObject) : Option (Text × Text) :=
  if name = outputTextDone then
    match payload.readString (ofString "item_id"), payload.readString (ofString "text") with
    | some itemId, some text => some (itemId, text)
    | _, _ => none
  else none

namespace SseState

/-- What an event does. A text for an item replaces the one before. -/
def received (s : SseState) (name : Text) (payload : JsonObject) : SseState :=
  { s with
    response :=
      match carriedResponse name payload with
      | some response => some ((s.response.getD emptyObject).spread response)
      | none => s.response
    outputItems := s.outputItems ++ (announcedItem name payload).toList
    textByItemId := (announcedText name payload).toList ++ s.textByItemId }

/-- The end of an event. A text that is no JSON object, the empty one for instance, is passed over. -/
def flushEvent (s : SseState) : SseState :=
  let next := { s with currentEvent := [], dataLines := [] }
  match parseRecord (trimText (joinLines s.dataLines)) with
  | some payload => next.received s.currentEvent payload
  | none => next

def eventField : Text := ofString "event:"

def dataField : Text := ofString "data:"

/-- `trimEnd`. -/
def trimEnd (t : Text) : Text := t.rdropWhile isSpaceUnit

def readLine (s : SseState) (rawLine : Text) : SseState :=
  let line := trimEnd rawLine
  if line = [] then s.flushEvent
  else if eventField.isPrefixOf line then { s with currentEvent := trimText (line.drop eventField.length) }
  else if dataField.isPrefixOf line then
    { s with dataLines := s.dataLines ++ [trimText (line.drop dataField.length)] }
  else s

end SseState

/-! ### The response -/

def hasOutputText (content : List Value) : Bool :=
  content.any fun
    | .obj fields => fieldText fields typeKey = some (ofString "output_text")
    | _ => false

/-- The part that a finished text becomes. -/
def outputTextPart (text : Text) : JsonObject :=
  .literal [(typeKey, some (.str (ofString "output_text"))), (ofString "text", some (.str text)),
      (ofString "annotations", some (.arr [])), (ofString "logprobs", some (.arr []))] (by
    change List.Pairwise _ [typeKey, ofString "text", ofString "annotations", ofString "logprobs"]
    decide +kernel) (by
    intro p hp v hv
    simp only [List.mem_cons, List.not_mem_nil, or_false] at hp
    rcases hp with rfl | rfl | rfl | rfl <;> exact Option.some.inj hv ▸ trivial)

def messageParts (item : JsonObject) : List JsonValue := (item.elements contentKey).getD []

/-- A message without a text gets the one that was announced for it. -/
def withText (textByItemId : List (Text × Text)) (item : JsonObject) : JsonObject :=
  match (item.readString idKey).bind fun id => textByItemId.lookup id with
  | some text =>
    if item.text typeKey = some messageType then
      let parts :=
        if hasOutputText ((messageParts item).map (·.value)) then messageParts item
        else messageParts item ++ [(outputTextPart text).value]
      item.set contentKey ⟨.arr (parts.map (·.value)), allNamesList_of fun v hv => by
        obtain ⟨part, -, rfl⟩ := List.mem_map.mp hv
        exact part.ordered⟩
    else item
  | none => item

/-- `final`. -/
def SseState.final (s : SseState) (response : JsonObject) : OpenAIResponse :=
  let output := s.outputItems.map fun item => (withText s.textByItemId item).value
  let final := { OpenAIResponse.ofObject response with output := some output }
  { final with outputText := extractOutputText final }

def parseSseResponse (raw : Text) : Option OpenAIResponse :=
  if SseState.eventField <:+: raw ∧ SseState.dataField <:+: raw then
    let s := ((lines raw).foldl SseState.readLine SseState.initial).flushEvent
    s.response.map s.final
  else none

end AgentDesk
