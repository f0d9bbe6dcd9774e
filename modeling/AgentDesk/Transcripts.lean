/-
# The transcript of a conversation

`providers/openai.ts`. What a turn sends and stores is a list of items: messages, the model's function
calls and the outputs of the tools. It is bounded by cutting off its beginning, wherever that falls; a
stored one has no tool items. Sizes are lengths of the items' JSON.

* `trimTranscriptTo_suffix`, `appendTranscript_suffix`: what is kept is an end of what there was.
* `getLast?_appendTranscript`: the newest item is always kept.
* `parse_serializeContinuationState`: a stored continuation comes back with its mode, its transport and its
  response id.
-/
import AgentDesk.JsonObjects
import AgentDesk.Pairing

namespace AgentDesk

open JsonText Pairing

/-! ### Bounds -/

@[irreducible] def maxReplayTranscriptItems : ℕ := 128

def maxReplayTranscriptChars : ℕ := 120000

def compactTriggerChars : ℕ := 150000

def maxPersistTranscriptChars : ℕ := 200000

def keepRecentItems : ℕ := 20

def keepRecentChars : ℕ := 60000

def transcriptSize (item : JsonObject) : ℕ := (stringify (.obj item.fields)).length

def totalTranscriptChars (items : List JsonObject) : ℕ := (items.map transcriptSize).sum

/-- The oldest items go while there are too many characters, but not the last one. -/
def dropOldest (maxChars : ℕ) : List JsonObject → List JsonObject
  | [] => []
  | [item] => [item]
  | item :: next :: items =>
    if maxChars < totalTranscriptChars (item :: next :: items) then dropOldest maxChars (next :: items)
    else item :: next :: items

def trimTranscriptTo (items : List JsonObject) (maxChars : ℕ) : List JsonObject :=
  dropOldest maxChars (items.drop (items.length - maxReplayTranscriptItems))

def trimTranscript (items : List JsonObject) : List JsonObject := trimTranscriptTo items maxReplayTranscriptChars

def trimTranscriptForPersist (items : List JsonObject) : List JsonObject :=
  trimTranscriptTo items maxPersistTranscriptChars

def appendTranscript (existing items : List JsonObject) : List JsonObject :=
  if items = [] then existing else trimTranscriptForPersist (existing ++ items.map cloneJson)

theorem dropOldest_suffix (maxChars : ℕ) : ∀ items : List JsonObject, dropOldest maxChars items <:+ items
  | [] => List.suffix_refl _
  | [_] => List.suffix_refl _
  | item :: next :: items => by
    rw [dropOldest]
    by_cases hbig : maxChars < totalTranscriptChars (item :: next :: items)
    · rw [if_pos hbig]
      exact (dropOldest_suffix maxChars (next :: items)).trans (List.suffix_cons item _)
    · rw [if_neg hbig]

theorem getLast?_dropOldest (maxChars : ℕ) : ∀ items : List JsonObject,
    (dropOldest maxChars items).getLast? = items.getLast?
  | [] => rfl
  | [_] => rfl
  | item :: next :: items => by
    rw [dropOldest]
    by_cases hbig : maxChars < totalTranscriptChars (item :: next :: items)
    · rw [if_pos hbig, getLast?_dropOldest maxChars (next :: items), List.getLast?_cons_cons]
    · rw [if_neg hbig]

theorem trimTranscriptTo_suffix (items : List JsonObject) (maxChars : ℕ) : trimTranscriptTo items maxChars <:+ items :=
  (dropOldest_suffix _ _).trans (List.drop_suffix _ _)

theorem getLast?_trimTranscriptTo (items : List JsonObject) (maxChars : ℕ) :
    (trimTranscriptTo items maxChars).getLast? = items.getLast? := by
  rw [trimTranscriptTo, getLast?_dropOldest, List.getLast?_drop]
  by_cases hnil : items.length = 0
  · rw [List.length_eq_zero_iff.mp hnil]
    rfl
  · have hlong : ¬ items.length ≤ items.length - maxReplayTranscriptItems := by
      have hpos : 0 < maxReplayTranscriptItems := by decide +kernel
      omega
    rw [if_neg hlong]

theorem appendTranscript_suffix (existing items : List JsonObject) :
    appendTranscript existing items <:+ existing ++ items.map cloneJson := by
  rw [appendTranscript]
  by_cases hnil : items = []
  · rw [if_pos hnil, hnil, List.map_nil, List.append_nil]
  · rw [if_neg hnil]
    exact trimTranscriptTo_suffix _ _

theorem getLast?_appendTranscript (existing items : List JsonObject) (item : JsonObject) :
    (appendTranscript existing (items ++ [item])).getLast? = some (cloneJson item) := by
  rw [appendTranscript, if_neg (List.append_ne_nil_of_right_ne_nil _ (List.cons_ne_nil _ _)),
    trimTranscriptForPersist, getLast?_trimTranscriptTo]
  simp

/-! ### Items -/

def typeKey : Text := ofString "type"

def callIdKey : Text := ofString "call_id"

def nameKey : Text := ofString "name"

def messageType : Text := ofString "message"

def functionCallType : Text := ofString "function_call"

def functionCallOutputType : Text := ofString "function_call_output"

def functionCallOutput (callId output : Text) : JsonObject :=
  .strings [(typeKey, functionCallOutputType), (callIdKey, callId), (ofString "output", output)] (by
    change List.Pairwise _ [typeKey, callIdKey, ofString "output"]
    decide)

def functionCall (callId name : Text) : JsonObject :=
  .strings [(typeKey, functionCallType), (callIdKey, callId), (nameKey, name)] (by
    change List.Pairwise _ [typeKey, callIdKey, nameKey]
    decide)

/-- The `input_text` block of a user message. -/
def inputText (text : Text) : JsonObject :=
  .strings [(typeKey, ofString "input_text"), (ofString "text", text)] (by
    change List.Pairwise _ [typeKey, ofString "text"]
    decide)

def userMessageInput (text : Text) : JsonObject :=
  .literal [(typeKey, some (.str messageType)), (ofString "role", some (.str (ofString "user"))),
      (ofString "content", some (objects [inputText text]))] (by
    change List.Pairwise _ [typeKey, ofString "role", ofString "content"]
    decide) (by
    intro p hp v hv
    simp only [List.mem_cons, List.not_mem_nil, or_false] at hp
    rcases hp with rfl | rfl | rfl
    · exact Option.some.inj hv ▸ trivial
    · exact Option.some.inj hv ▸ trivial
    · exact Option.some.inj hv ▸ objects_ordered _)

def compactedSummaryMessage (summary : Text) : JsonObject :=
  userMessageInput (ofString "<compacted_summary>\n" ++ summary ++ ofString "\n</compacted_summary>")

/-- Where a transcript is split for a summary: the length of what goes into it. -/
def recentItems (keepItems keepChars : ℕ) : (newestFirst : List JsonObject) → (items chars : ℕ) → ℕ
  | [], items, _ => items
  | item :: older, items, chars =>
    if 1 ≤ items ∧ (keepItems < items + 1 ∨ keepChars < chars + transcriptSize item) then items
    else recentItems keepItems keepChars older (items + 1) (chars + transcriptSize item)

/-- `readString(transcript[i]?.type)`. -/
def typeAt (transcript : List JsonObject) (i : ℕ) : Option Text :=
  transcript[i]?.bind fun item => item.readString typeKey

/-- The boundary goes back over tool items while the part after it opens with an output. -/
def pullBack (transcript : List JsonObject) : ℕ → ℕ
  | 0 => 0
  | boundary + 1 =>
    if typeAt transcript (boundary + 1) = some functionCallOutputType ∧
        (typeAt transcript boundary = some functionCallType ∨
          typeAt transcript boundary = some functionCallOutputType) then
      pullBack transcript boundary
    else boundary + 1

def computeCompactionBoundary (transcript : List JsonObject) (keepItems keepChars : ℕ) : ℕ :=
  if transcript.length ≤ 1 then 0
  else pullBack transcript (transcript.length - recentItems keepItems keepChars transcript.reverse 0 0)

def isMessage (item : JsonObject) : Bool := item.text typeKey = some messageType

def isFunctionCall (item : JsonObject) : Bool := item.text typeKey = some functionCallType

theorem recentItems_pos (keepItems keepChars : ℕ) : ∀ (newestFirst : List JsonObject) (items chars : ℕ),
    items ≤ recentItems keepItems keepChars newestFirst items chars
  | [], _, _ => Nat.le_refl _
  | item :: older, items, chars => by
    rw [recentItems]
    split
    · exact Nat.le_refl _
    · have hrest := recentItems_pos keepItems keepChars older (items + 1) (chars + transcriptSize item)
      omega

theorem pullBack_le (transcript : List JsonObject) : ∀ boundary, pullBack transcript boundary ≤ boundary
  | 0 => Nat.le_refl _
  | boundary + 1 => by
    rw [pullBack]
    split
    · have hrest := pullBack_le transcript boundary
      omega
    · exact Nat.le_refl _

theorem computeCompactionBoundary_lt {transcript : List JsonObject} (keepItems keepChars : ℕ) (h : transcript ≠ []) :
    computeCompactionBoundary transcript keepItems keepChars < transcript.length := by
  have hlength : 0 < transcript.length := List.length_pos_iff.mpr h
  unfold computeCompactionBoundary
  split
  · exact hlength
  · have hrecent : 1 ≤ recentItems keepItems keepChars transcript.reverse 0 0 := by
      obtain ⟨item, older, hcons⟩ := List.exists_cons_of_ne_nil (List.reverse_ne_nil_iff.mpr h)
      rw [hcons, recentItems, if_neg (by omega)]
      exact recentItems_pos keepItems keepChars older 1 _
    have hpull := pullBack_le transcript
      (transcript.length - recentItems keepItems keepChars transcript.reverse 0 0)
    omega

/-- The items of a response that a transcript keeps. -/
def replayableOutputItems (output : Option (List JsonValue)) : List JsonObject :=
  (((output.getD []).filterMap JsonValue.record?).filter fun item =>
    isMessage item || isFunctionCall item).map cloneJson

def JsonValue.isNull : JsonValue → Bool
  | ⟨.null, _⟩ => true
  | _ => false

/-- The function calls of a response; `none` when reading the `type` of an item throws. -/
def collectFunctionCalls (output : Option (List JsonValue)) : Option (List JsonObject) :=
  if (output.getD []).any JsonValue.isNull then none
  else some (((output.getD []).filterMap JsonValue.record?).filter isFunctionCall)

theorem functionCallType_ne : functionCallType ≠ functionCallOutputType := by decide

def isToolItem (item : JsonObject) : Bool :=
  item.text typeKey = some functionCallType || item.text typeKey = some functionCallOutputType

def stripStaleToolCallTranscript (items : List JsonObject) : List JsonObject :=
  items.filter fun item => !isToolItem item

/-! ### Continuations -/

inductive ContinuationMode where
  | responses | stateless
  deriving DecidableEq, Repr

def ContinuationMode.name : ContinuationMode → Text
  | .responses => ofString "responses"
  | .stateless => ofString "stateless"

inductive OpenAITransport where
  | responses | chatCompletions
  deriving DecidableEq, Repr

def OpenAITransport.name : OpenAITransport → Text
  | .responses => ofString "responses"
  | .chatCompletions => ofString "chat-completions"

/-- `OpenAIContinuationState`. -/
structure ContinuationState where
  v : ℕ
  mode : ContinuationMode
  transport : OpenAITransport
  responseId : Option Text
  transcript : List JsonObject

def numberOne : Binary64.Double := .ofDecimal ⟨false, 1, 0⟩

def numberTwo : Binary64.Double := .ofDecimal ⟨false, 2, 0⟩

def ContinuationState.properties (state : ContinuationState) : List (Text × Option Value) :=
  [(ofString "v", some (.num numberTwo)), (ofString "mode", some (.str state.mode.name)),
    (ofString "transport", some (.str state.transport.name)), (ofString "responseId", state.responseId.map .str),
    (ofString "transcript",
      some (objects (trimTranscriptForPersist (stripStaleToolCallTranscript state.transcript))))]

theorem continuation_inOrder (state : ContinuationState) : InOrder (state.properties.map (·.1)) := by
  change List.Pairwise _ [ofString "v", ofString "mode", ofString "transport", ofString "responseId",
    ofString "transcript"]
  decide

theorem continuation_ordered (state : ContinuationState) :
    ∀ p ∈ state.properties, ∀ v, p.2 = some v → v.Ordered := by
  have hnum : Json.Ordered (.num numberTwo) := trivial
  have hstr : ∀ t, Json.Ordered (.str t) := fun t => trivial
  intro p hp v hv
  simp only [ContinuationState.properties, List.mem_cons, List.not_mem_nil, or_false] at hp
  rcases hp with rfl | rfl | rfl | rfl | rfl
  · obtain rfl := Option.some.inj hv
    exact hnum
  · obtain rfl := Option.some.inj hv
    exact hstr _
  · obtain rfl := Option.some.inj hv
    exact hstr _
  · obtain ⟨t, -, rfl⟩ := Option.map_eq_some_iff.mp hv
    exact hstr t
  · obtain rfl := Option.some.inj hv
    exact objects_ordered _

def ContinuationState.object (state : ContinuationState) : JsonObject :=
  .literal state.properties (continuation_inOrder state) (continuation_ordered state)

def serializeContinuationState (state : ContinuationState) : Text := stringify (.obj state.object.fields)

/-- `parsed.v`, when it is a version that is known. -/
def knownVersion (fields : List (Text × Value)) : Option ℕ :=
  match fields.lookup (ofString "v") with
  | some (.num x) => if x = numberOne then some 1 else if x = numberTwo then some 2 else none
  | _ => none

/-- The copies of the records of an array. -/
def clonedRecords (items : List Value) : List JsonObject :=
  items.filterMap fun
    | .obj fields => some (cloneFields fields)
    | _ => none

def restoredTranscript : Option Value → List JsonObject
  | some (.arr items) => trimTranscriptForPersist (stripStaleToolCallTranscript (clonedRecords items))
  | _ => []

def restoredMode (fields : List (Text × Value)) : ContinuationMode :=
  if fieldText fields (ofString "mode") = some (ofString "stateless") then .stateless else .responses

def restoredTransport (fields : List (Text × Value)) : OpenAITransport :=
  if fieldText fields (ofString "transport") = some (ofString "chat-completions") then .chatCompletions else .responses

/-- A text that holds no known state is a response id. -/
def parseContinuationState (raw : Option Text) : ContinuationState :=
  match raw.bind nonBlank with
  | none => ⟨2, .responses, .responses, none, []⟩
  | some legacyResponseId =>
    match parse legacyResponseId with
    | some (.obj fields) =>
      match knownVersion fields with
      | none => ⟨2, .responses, .responses, some legacyResponseId, []⟩
      | some v =>
        { v
          mode := if restoredTransport fields = .chatCompletions then .stateless else restoredMode fields
          transport := restoredTransport fields
          responseId := (fieldText fields (ofString "responseId")).bind nonBlank
          transcript := restoredTranscript (fields.lookup (ofString "transcript")) }
    | _ => ⟨2, .responses, .responses, some legacyResponseId, []⟩

theorem eval_objects (l : List JsonObject) : (objects l).toTree.eval = objects (l.map cloneJson) := by
  have hlist : ∀ l : List JsonObject, evalList (treeList (l.map fun o => .obj o.fields)) =
      (l.map cloneJson).map fun o => (.obj o.fields : Value) := by
    intro l
    induction l with
    | nil => rfl
    | cons o l ih =>
      rw [List.map_cons, treeList, evalList, ih, List.map_cons, List.map_cons]
      rfl
  change Json.arr (evalList (treeList (l.map fun o => (.obj o.fields : Value)))) = _
  rw [hlist]
  rfl

theorem clonedRecords_objects (l : List JsonObject) :
    clonedRecords (l.map fun o => .obj o.fields) = l.map cloneJson := by
  induction l with
  | nil => rfl
  | cons o l ih =>
    rw [clonedRecords, List.map_cons, List.filterMap_cons, List.map_cons]
    exact congrArg _ ih

theorem get_continuation (state : ContinuationState) {key : Text} {v : Option Value}
    (h : (key, v) ∈ state.properties) : (cloneJson state.object).get key = v.map fun v => v.toTree.eval := by
  have hget : state.object.get key = v := literal_get h
  rw [get_cloneJson, hget]

theorem knownVersion_num {fields : List (Text × Value)} {x : Binary64.Double}
    (h : fields.lookup (ofString "v") = some (.num x)) :
    knownVersion fields = if x = numberOne then some 1 else if x = numberTwo then some 2 else none := by
  rw [knownVersion, h]

theorem knownVersion_continuation (state : ContinuationState) :
    knownVersion (cloneJson state.object).fields = some 2 := by
  have htwo : (cloneJson state.object).fields.lookup (ofString "v") = some (.num numberTwo) := by
    have hget := get_continuation state (.head _)
    have heval : (numberTree numberTwo).eval = .num numberTwo := by
      rw [eval_numberTree]
      decide +kernel
    rw [Option.map_some, Json.toTree, heval] at hget
    exact hget
  have hne : numberTwo ≠ numberOne := by decide +kernel
  rw [knownVersion_num htwo, if_neg hne, if_pos rfl]

theorem restoredTransport_continuation (state : ContinuationState) :
    restoredTransport (cloneJson state.object).fields = state.transport := by
  have hget := get_continuation state (.tail _ (.tail _ (.head _)))
  have htext : fieldText (cloneJson state.object).fields (ofString "transport") = some state.transport.name := by
    change ((cloneJson state.object).get (ofString "transport")).bind Json.text? = _
    rw [hget]
    rfl
  rw [restoredTransport, htext]
  cases state.transport <;> decide

theorem restoredMode_continuation (state : ContinuationState) :
    restoredMode (cloneJson state.object).fields = state.mode := by
  have hget := get_continuation state (.tail _ (.head _))
  have htext : fieldText (cloneJson state.object).fields (ofString "mode") = some state.mode.name := by
    change ((cloneJson state.object).get (ofString "mode")).bind Json.text? = _
    rw [hget]
    rfl
  rw [restoredMode, htext]
  cases state.mode <;> decide

theorem responseId_continuation (state : ContinuationState) :
    fieldText (cloneJson state.object).fields (ofString "responseId") = state.responseId := by
  have hget := get_continuation state (.tail _ (.tail _ (.tail _ (.head _))))
  change ((cloneJson state.object).get (ofString "responseId")).bind Json.text? = _
  rw [hget]
  cases state.responseId <;> rfl

/-- What is restored of a stored transcript. -/
def storedTranscript (items : List JsonObject) : List JsonObject :=
  trimTranscriptForPersist (stripStaleToolCallTranscript
    ((trimTranscriptForPersist (stripStaleToolCallTranscript items)).map cloneJson |>.map cloneJson))

theorem restoredTranscript_continuation (state : ContinuationState) :
    restoredTranscript ((cloneJson state.object).fields.lookup (ofString "transcript")) =
      storedTranscript state.transcript := by
  have hget := get_continuation state (.tail _ (.tail _ (.tail _ (.tail _ (.head _)))))
  rw [Option.map_some, eval_objects] at hget
  change restoredTranscript ((cloneJson state.object).get (ofString "transcript")) = _
  rw [hget, objects, restoredTranscript, clonedRecords_objects, storedTranscript]

theorem parseContinuationState_known {text : Text} {fields : List (Text × Value)} {v : ℕ}
    (hblank : nonBlank text = some text) (hparse : parse text = some (.obj fields)) (hv : knownVersion fields = some v) :
    parseContinuationState (some text) =
      { v
        mode := if restoredTransport fields = .chatCompletions then .stateless else restoredMode fields
        transport := restoredTransport fields
        responseId := (fieldText fields (ofString "responseId")).bind nonBlank
        transcript := restoredTranscript (fields.lookup (ofString "transcript")) } := by
  simp only [parseContinuationState, Option.bind_some, hblank, hparse, hv]

/-- **A stored continuation comes back.** -/
theorem parse_serializeContinuationState (state : ContinuationState) :
    parseContinuationState (some (serializeContinuationState state)) =
      { v := 2
        mode := if state.transport = .chatCompletions then .stateless else state.mode
        transport := state.transport
        responseId := state.responseId.bind nonBlank
        transcript := storedTranscript state.transcript } := by
  rw [serializeContinuationState, parseContinuationState_known (nonBlank_stringify _) (parse_clone state.object)
    (knownVersion_continuation state), restoredTransport_continuation, restoredMode_continuation,
    responseId_continuation, restoredTranscript_continuation]

/-! ### Tool items -/

/-- What an item is for the pairing of calls and outputs. A call without an id is not to be answered. -/
def toolToken (item : JsonObject) : Token (Option Text) :=
  if item.text typeKey = some functionCallType ∧ item.readString callIdKey ≠ none then .call (item.text callIdKey)
  else if item.text typeKey = some functionCallOutputType then .ret (item.text callIdKey)
  else .other

theorem toolToken_cloneJson (item : JsonObject) : toolToken (cloneJson item) = toolToken item := by
  rw [toolToken, text_cloneJson, text_cloneJson, readString_cloneJson, toolToken]

/-- A transcript can be replayed: every output follows its call, and every call with an id has one output after
it. -/
def Replayable (transcript : List JsonObject) : Prop := Paired (transcript.map toolToken)

theorem isToolItem_cloneJson (item : JsonObject) : isToolItem (cloneJson item) = isToolItem item := by
  rw [isToolItem, text_cloneJson, isToolItem]

theorem toolToken_of_not_tool {item : JsonObject} (h : isToolItem item = false) : toolToken item = .other := by
  obtain ⟨hcall, houtput⟩ : item.text typeKey ≠ some functionCallType ∧
      item.text typeKey ≠ some functionCallOutputType := by simpa [isToolItem] using h
  rw [toolToken, if_neg fun h => hcall h.1, if_neg houtput]

theorem replayable_of_plain {transcript : List JsonObject} (h : ∀ item ∈ transcript, isToolItem item = false) :
    Replayable transcript := by
  apply paired_of_other
  intro t ht
  obtain ⟨item, hitem, rfl⟩ := List.mem_map.mp ht
  exact toolToken_of_not_tool (h item hitem)

theorem text_userMessageInput (text : Text) : (userMessageInput text).text typeKey = some messageType := by
  have hget : (userMessageInput text).get typeKey = some (.str messageType) := literal_get (.head _)
  change ((userMessageInput text).get typeKey).bind Json.text? = _
  rw [hget]
  rfl

theorem cloneJson_userMessageInput (text : Text) : cloneJson (userMessageInput text) = userMessageInput text := by
  apply JsonObject.ext'
  have heval := (eval_toTree (userMessageInput text).ordered).mpr rfl
  exact Json.obj.inj heval

theorem userMessageInput_plain (text : Text) : isToolItem (userMessageInput text) = false := by
  rw [isToolItem, text_userMessageInput]
  decide

theorem restoredTranscript_plain (v : Option Value) : ∀ item ∈ restoredTranscript v, isToolItem item = false := by
  intro item hitem
  have hstripped : ∀ items : List JsonObject, item ∈ trimTranscriptForPersist (stripStaleToolCallTranscript items) →
      isToolItem item = false := by
    intro items h
    have hmem := (trimTranscriptTo_suffix _ _).subset h
    simpa using (List.mem_filter.mp hmem).2
  unfold restoredTranscript at hitem
  split at hitem
  · exact hstripped _ hitem
  · cases hitem

/-- **A restored transcript has no tool items.** -/
theorem parseContinuationState_plain (raw : Option Text) :
    ∀ item ∈ (parseContinuationState raw).transcript, isToolItem item = false := by
  intro item hitem
  unfold parseContinuationState at hitem
  split at hitem
  · cases hitem
  · split at hitem
    · split at hitem
      · cases hitem
      · exact restoredTranscript_plain _ item hitem
    · cases hitem

end AgentDesk
