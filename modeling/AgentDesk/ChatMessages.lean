/-
# A transcript as chat messages

`transcriptToChatMessages` of `providers/openai.ts` renders a transcript for the chat-completions API. Function
calls are held back and sent as one assistant message when something else comes, a tool's output is a message of
its own, and a message is one with the role that it has. The API wants every tool message to answer a call of the
assistant message before it.

* `toChat_exchange`: a run of calls and their outputs is one assistant message and the tool messages after it.
* `texts_in_order`: the texts are those of the transcript, in its order.
* `chat_valid`: **a transcript of whole exchanges is a valid conversation**, unless a message has the role of a
  tool.
-/
import AgentDesk.Transcripts

namespace AgentDesk

open JsonText

/-! ### Messages -/

/-- An entry of `tool_calls`. -/
structure ChatToolCall where
  id : Text
  name : Text
  arguments : Text
  deriving DecidableEq

inductive ChatMessage where
  | text (role content : Text)
  | toolCalls (calls : List ChatToolCall)
  | tool (toolCallId content : Text)
  deriving DecidableEq

def assistantRole : Text := ofString "assistant"

def toolRole : Text := ofString "tool"

def ChatMessage.role : ChatMessage → Text
  | text role _ => role
  | toolCalls _ => assistantRole
  | tool _ _ => toolRole

def roleKey : Text := ofString "role"

/-- A string as it is, anything else as JSON; `fallback` is for `null` and `undefined`. -/
def textOrJson (v : Option Value) (fallback : Value) : Text :=
  match v with
  | some (.str t) => t
  | some .null | none => stringify fallback
  | some v => stringify v

/-- The text of a content block, when there is one. -/
def recordText : Value → Option Text
  | .obj fields => (fieldText fields (ofString "text")).bind nonBlank
  | _ => none

def extractMessageTextContent : Option Value → Text
  | some (.str t) => t
  | some (.arr items) => trimText ((items.filterMap recordText).intersperse (ofString "\n")).flatten
  | _ => []

/-- A function call that is sent: one with an id and a name. -/
def chatToolCall? (item : JsonObject) : Option ChatToolCall :=
  match item.readString callIdKey, item.readString nameKey with
  | some id, some name => some ⟨id, name, textOrJson (item.get (ofString "arguments")) (.obj [])⟩
  | _, _ => none

/-- What an item that is no function call becomes. -/
def chatMessage? (item : JsonObject) : Option ChatMessage :=
  if item.readString typeKey = some functionCallOutputType then
    (item.readString callIdKey).map fun id => .tool id (textOrJson (item.get (ofString "output")) (.str []))
  else if item.readString typeKey = some messageType then
    (item.readString roleKey).map fun role => .text role (extractMessageTextContent (item.get (ofString "content")))
  else none

def flushPendingToolCalls (pendingToolCalls : List ChatToolCall) : List ChatMessage :=
  if pendingToolCalls = [] then [] else [.toolCalls pendingToolCalls]

/-- The loop over the transcript, with the calls that are held back. -/
def toChat : (pendingToolCalls : List ChatToolCall) → List JsonObject → List ChatMessage
  | pending, [] => flushPendingToolCalls pending
  | pending, item :: items =>
    if item.readString typeKey = some functionCallType then toChat (pending ++ (chatToolCall? item).toList) items
    else flushPendingToolCalls pending ++ (chatMessage? item).toList ++ toChat [] items

def systemMessages (instructions : Option Text) : List ChatMessage :=
  match instructions with
  | none | some [] => []
  | some instructions => [.text (ofString "system") instructions]

def transcriptToChatMessages (transcript : List JsonObject) (instructions : Option Text) : List ChatMessage :=
  systemMessages instructions ++ toChat [] transcript

/-! ### Transcripts of whole exchanges -/

/-- A run of calls, with names and different ids, and one output for each of them. -/
structure IsExchange (calls outputs : List JsonObject) : Prop where
  nonempty : calls ≠ []
  isCall : ∀ call ∈ calls, call.readString typeKey = some functionCallType ∧ call.readString nameKey ≠ none ∧
    call.readString callIdKey ≠ none
  distinct : (calls.map (·.readString callIdKey)).Nodup
  isOutput : ∀ output ∈ outputs, output.readString typeKey = some functionCallOutputType
  answers : (outputs.map (·.readString callIdKey)).Perm (calls.map (·.readString callIdKey))

/-- Every run of calls is directly followed by its outputs, and there are no others. -/
inductive Exchanged : List JsonObject → Prop
  | nil : Exchanged []
  | other {item : JsonObject} {t : List JsonObject} : item.readString typeKey ≠ some functionCallType →
      item.readString typeKey ≠ some functionCallOutputType → Exchanged t → Exchanged (item :: t)
  | exchange {calls outputs t : List JsonObject} : IsExchange calls outputs → Exchanged t →
      Exchanged (calls ++ (outputs ++ t))

/-! ### Valid conversations -/

def ChatMessage.isTool (m : ChatMessage) : Bool := m.role = toolRole

def ChatMessage.answers (id : Text) : ChatMessage → Bool
  | tool toolCallId _ => toolCallId = id
  | _ => false

/-- Every tool message answers a call of the nearest assistant message with calls before it, and between the two
there are only tool messages. -/
def ToolsAnswer (messages : List ChatMessage) : Prop :=
  ∀ before m after, messages = before ++ m :: after → m.isTool = true →
    ∃ earlier calls between, before = earlier ++ .toolCalls calls :: between ∧ (∀ b ∈ between, b.isTool = true) ∧
      ∃ call ∈ calls, m.answers call.id = true

/-- Every call is answered by exactly one of the tool messages directly after it. -/
def CallsAnswered (messages : List ChatMessage) : Prop :=
  ∀ before calls after, messages = before ++ .toolCalls calls :: after → ∀ call ∈ calls,
    (after.takeWhile ChatMessage.isTool).countP (·.answers call.id) = 1

def ChatMessage.text? : ChatMessage → Option (Text × Text)
  | text role content => some (role, content)
  | _ => none

/-- The role and the text of a message item. -/
def messageText? (item : JsonObject) : Option (Text × Text) := (chatMessage? item).bind ChatMessage.text?

/-! ### The loop -/

theorem callType_ne : some functionCallType ≠ some functionCallOutputType :=
  fun h => functionCallType_ne (Option.some.inj h)

theorem callType_ne_message : some functionCallType ≠ some messageType := by decide

theorem toChat_call {item : JsonObject} (h : item.readString typeKey = some functionCallType)
    (pending : List ChatToolCall) (items : List JsonObject) :
    toChat pending (item :: items) = toChat (pending ++ (chatToolCall? item).toList) items := by
  rw [toChat, if_pos h]

theorem toChat_other {item : JsonObject} (h : item.readString typeKey ≠ some functionCallType)
    (pending : List ChatToolCall) (items : List JsonObject) :
    toChat pending (item :: items) =
      flushPendingToolCalls pending ++ (chatMessage? item).toList ++ toChat [] items := by
  rw [toChat, if_neg h]

theorem toChat_calls {calls : List JsonObject} (h : ∀ call ∈ calls, call.readString typeKey = some functionCallType)
    (pending : List ChatToolCall) (items : List JsonObject) :
    toChat pending (calls ++ items) = toChat (pending ++ calls.filterMap chatToolCall?) items := by
  induction calls generalizing pending with
  | nil => simp
  | cons call calls ih =>
    rw [List.cons_append, toChat_call (h call List.mem_cons_self),
      ih fun call hcall => h call (List.mem_cons_of_mem _ hcall), List.append_assoc]
    congr 2
    cases hcall : chatToolCall? call <;> simp [hcall]

theorem toChat_outputs {outputs : List JsonObject}
    (h : ∀ output ∈ outputs, output.readString typeKey = some functionCallOutputType) (items : List JsonObject) :
    toChat [] (outputs ++ items) = outputs.filterMap chatMessage? ++ toChat [] items := by
  induction outputs with
  | nil => rfl
  | cons output outputs ih =>
    have hother : output.readString typeKey ≠ some functionCallType := by
      rw [h output List.mem_cons_self]
      exact callType_ne.symm
    rw [List.cons_append, toChat_other hother, ih fun output hout => h output (List.mem_cons_of_mem _ hout)]
    cases hmessage : chatMessage? output <;> simp [flushPendingToolCalls, hmessage]

/-- **An exchange** is one assistant message with the calls, and a tool message for each output. -/
theorem toChat_exchange {calls outputs : List JsonObject} (h : IsExchange calls outputs) (items : List JsonObject) :
    toChat [] (calls ++ (outputs ++ items)) =
      .toolCalls (calls.filterMap chatToolCall?) :: (outputs.filterMap chatMessage? ++ toChat [] items) := by
  have hcalls : calls.filterMap chatToolCall? ≠ [] := by
    obtain ⟨call, rest, rfl⟩ := List.exists_cons_of_ne_nil h.nonempty
    obtain ⟨-, hname, hid⟩ := h.isCall call List.mem_cons_self
    obtain ⟨name, hname⟩ := Option.ne_none_iff_exists'.mp hname
    obtain ⟨id, hid⟩ := Option.ne_none_iff_exists'.mp hid
    simp [chatToolCall?, hname, hid]
  have houtputs : outputs ≠ [] := by
    intro hnil
    have hlength := h.answers.length_eq
    rw [hnil, List.length_map, List.length_map] at hlength
    exact h.nonempty (List.length_eq_zero_iff.mp hlength.symm)
  obtain ⟨output, rest, rfl⟩ := List.exists_cons_of_ne_nil houtputs
  have hother : output.readString typeKey ≠ some functionCallType := by
    rw [h.isOutput output List.mem_cons_self]
    exact callType_ne.symm
  have hrest : ∀ output ∈ rest, output.readString typeKey = some functionCallOutputType :=
    fun output hout => h.isOutput output (List.mem_cons_of_mem _ hout)
  rw [toChat_calls fun call hcall => (h.isCall call hcall).1, List.nil_append, List.cons_append, toChat_other hother,
    toChat_outputs hrest, flushPendingToolCalls, if_neg hcalls]
  cases hmessage : chatMessage? output <;> simp [hmessage]

theorem texts_toChat (pending : List ChatToolCall) (t : List JsonObject) :
    (toChat pending t).filterMap ChatMessage.text? = t.filterMap messageText? := by
  have hflush : ∀ pending, (flushPendingToolCalls pending).filterMap ChatMessage.text? = [] := by
    intro pending
    unfold flushPendingToolCalls
    split <;> rfl
  induction t generalizing pending with
  | nil => exact hflush pending
  | cons item items ih =>
    by_cases hcall : item.readString typeKey = some functionCallType
    · have hnone : messageText? item = none := by
        rw [messageText?, chatMessage?, hcall, if_neg callType_ne, if_neg callType_ne_message, Option.bind_none]
      rw [toChat_call hcall, ih, List.filterMap_cons, hnone]
    · rw [toChat_other hcall, List.filterMap_append, List.filterMap_append, hflush, ih, List.nil_append,
        List.filterMap_cons, messageText?]
      cases hmessage : chatMessage? item with
      | none => rfl
      | some m => cases htext : m.text? <;> simp [htext]

/-! ### Conversations -/

/-- Texts, and assistant messages with calls that are directly followed by one answer for each. -/
inductive Conversation : List ChatMessage → Prop
  | nil : Conversation []
  | text {role content : Text} {rest : List ChatMessage} : role ≠ toolRole → Conversation rest →
      Conversation (.text role content :: rest)
  | exchange {calls : List ChatToolCall} {answers : List (Text × Text)} {rest : List ChatMessage} :
      (calls.map (·.id)).Nodup → (answers.map (·.1)).Perm (calls.map (·.id)) → Conversation rest →
      Conversation (.toolCalls calls :: (answers.map (fun a => .tool a.1 a.2) ++ rest))

variable {messages rest : List ChatMessage}

theorem assistantRole_ne : assistantRole ≠ toolRole := by decide

theorem toolCalls_not_tool (calls : List ChatToolCall) : (ChatMessage.toolCalls calls).isTool = false :=
  decide_eq_false assistantRole_ne

theorem text_not_tool {role : Text} (h : role ≠ toolRole) (content : Text) :
    (ChatMessage.text role content).isTool = false := decide_eq_false h

theorem Conversation.no_answers (h : Conversation rest) : rest.takeWhile ChatMessage.isTool = [] := by
  cases h with
  | nil => rfl
  | text hrole _ => rw [List.takeWhile_cons, text_not_tool hrole, if_neg Bool.false_ne_true]
  | exchange _ _ _ => rw [List.takeWhile_cons, toolCalls_not_tool, if_neg Bool.false_ne_true]

theorem takeWhile_answers (answers : List (Text × Text)) (h : Conversation rest) :
    (answers.map (fun a => ChatMessage.tool a.1 a.2) ++ rest).takeWhile ChatMessage.isTool =
      answers.map fun a => ChatMessage.tool a.1 a.2 := by
  have htools : ∀ m ∈ answers.map (fun a => ChatMessage.tool a.1 a.2), m.isTool = true := by
    intro m hm
    obtain ⟨a, -, rfl⟩ := List.mem_map.mp hm
    exact decide_eq_true rfl
  rw [List.takeWhile_append_of_pos htools, h.no_answers, List.append_nil]

theorem exchange_split {calls : List ChatToolCall} {answers : List (Text × Text)} {before after : List ChatMessage}
    {m : ChatMessage}
    (h : .toolCalls calls :: (answers.map (fun a => ChatMessage.tool a.1 a.2) ++ rest) = before ++ m :: after) :
    (before = [] ∧ m = .toolCalls calls ∧ after = answers.map (fun a => ChatMessage.tool a.1 a.2) ++ rest) ∨
      (∃ done a more, answers = done ++ a :: more ∧
        before = .toolCalls calls :: done.map (fun a => ChatMessage.tool a.1 a.2) ∧ m = .tool a.1 a.2) ∨
      ∃ before', before = .toolCalls calls :: (answers.map (fun a => ChatMessage.tool a.1 a.2) ++ before') ∧
        rest = before' ++ m :: after := by
  cases before with
  | nil =>
    obtain ⟨hm, hafter⟩ := List.cons.inj h
    exact .inl ⟨rfl, hm.symm, hafter.symm⟩
  | cons first before =>
    obtain ⟨hfirst, htail⟩ := List.cons.inj h
    subst hfirst
    rcases List.append_eq_append_iff.mp htail with ⟨before', hbefore, hrest⟩ | ⟨more, hanswers, hafter⟩
    · exact .inr (.inr ⟨before', by rw [hbefore], hrest⟩)
    · cases more with
      | nil =>
        rw [List.append_nil] at hanswers
        rw [List.nil_append] at hafter
        exact .inr (.inr ⟨[], by rw [List.append_nil, hanswers], hafter.symm⟩)
      | cons m' more =>
        obtain ⟨hm, -⟩ := List.cons.inj hafter
        obtain ⟨done, later, hsplit, hdone, hlater⟩ := List.map_eq_append_iff.mp hanswers
        obtain ⟨a, later', hcons, ha, -⟩ := List.map_eq_cons_iff.mp hlater
        refine .inr (.inl ⟨done, a, later', by rw [hsplit, hcons], by rw [hdone], ?_⟩)
        rw [hm, ha]

theorem conversation_toolsAnswer (h : Conversation messages) : ToolsAnswer messages := by
  induction h with
  | nil =>
    intro before m after hsplit
    simp at hsplit
  | @text role content rest hrole _ ih =>
    intro before m after hsplit htool
    cases before with
    | nil =>
      obtain ⟨rfl, -⟩ := List.cons.inj hsplit
      rw [text_not_tool hrole] at htool
      cases htool
    | cons first before =>
      obtain ⟨rfl, hrest⟩ := List.cons.inj hsplit
      obtain ⟨earlier, calls, between, rfl, hbetween, hanswers⟩ := ih before m after hrest htool
      exact ⟨.text role content :: earlier, calls, between, rfl, hbetween, hanswers⟩
  | @exchange calls answers rest _ hperm _ ih =>
    intro before m after hsplit htool
    rcases exchange_split hsplit with ⟨-, rfl, -⟩ | ⟨done, a, more, hanswers, rfl, rfl⟩ | ⟨before', rfl, hrest⟩
    · rw [toolCalls_not_tool] at htool
      cases htool
    · refine ⟨[], calls, done.map fun a => .tool a.1 a.2, rfl, fun b hb => ?_, ?_⟩
      · obtain ⟨a', -, rfl⟩ := List.mem_map.mp hb
        exact decide_eq_true rfl
      · have hid : a.1 ∈ calls.map (·.id) := by
          refine hperm.subset (List.mem_map.mpr ⟨a, ?_, rfl⟩)
          rw [hanswers]
          exact List.mem_append_right done List.mem_cons_self
        obtain ⟨call, hcall, heq⟩ := List.mem_map.mp hid
        exact ⟨call, hcall, decide_eq_true heq.symm⟩
    · obtain ⟨earlier, calls', between, rfl, hbetween, hanswered⟩ := ih before' m after hrest htool
      refine ⟨.toolCalls calls :: (answers.map (fun a => .tool a.1 a.2) ++ earlier), calls', between, ?_, hbetween,
        hanswered⟩
      simp

theorem countP_answers (answers : List (Text × Text)) (id : Text) :
    (answers.map fun a => ChatMessage.tool a.1 a.2).countP (·.answers id) = (answers.map (·.1)).count id := by
  rw [List.countP_map, List.count, List.countP_map]
  refine List.countP_congr fun a _ => ?_
  simp [ChatMessage.answers]

theorem conversation_callsAnswered (h : Conversation messages) : CallsAnswered messages := by
  induction h with
  | nil =>
    intro before calls after hsplit
    simp at hsplit
  | text _ _ ih =>
    intro before calls after hsplit
    cases before with
    | nil => cases (List.cons.inj hsplit).1
    | cons first before => exact ih before calls after (List.cons.inj hsplit).2
  | @exchange calls answers rest hdistinct hperm hrest ih =>
    intro before calls' after hsplit
    rcases exchange_split hsplit with ⟨-, heq, rfl⟩ | ⟨done, a, more, -, -, heq⟩ | ⟨before', -, hsplit'⟩
    · obtain rfl := ChatMessage.toolCalls.inj heq
      intro call hcall
      rw [takeWhile_answers answers hrest, countP_answers, hperm.count_eq]
      exact List.count_eq_one_of_mem hdistinct (List.mem_map.mpr ⟨call, hcall, rfl⟩)
    · cases heq
    · exact ih before' calls' after hsplit'

/-! ### The transcript's conversation -/

/-- The id of an output, and the content of its message. -/
def answerOf (output : JsonObject) : Option (Text × Text) :=
  (output.readString callIdKey).map fun id => (id, textOrJson (output.get (ofString "output")) (.str []))

theorem readIds_eq {calls : List JsonObject}
    (h : ∀ call ∈ calls, call.readString nameKey ≠ none ∧ call.readString callIdKey ≠ none) :
    calls.map (·.readString callIdKey) = ((calls.filterMap chatToolCall?).map (·.id)).map some := by
  induction calls with
  | nil => rfl
  | cons call calls ih =>
    obtain ⟨hname, hid⟩ := h call List.mem_cons_self
    obtain ⟨name, hname⟩ := Option.ne_none_iff_exists'.mp hname
    obtain ⟨id, hid⟩ := Option.ne_none_iff_exists'.mp hid
    have hcall : chatToolCall? call = some ⟨id, name, textOrJson (call.get (ofString "arguments")) (.obj [])⟩ := by
      rw [chatToolCall?, hid, hname]
    rw [List.map_cons, List.filterMap_cons, hcall, ih fun call hcall => h call (List.mem_cons_of_mem _ hcall), hid]
    rfl

theorem outputIds {outputs : List JsonObject} (h : ∀ output ∈ outputs, output.readString callIdKey ≠ none) :
    outputs.map (·.readString callIdKey) = ((outputs.filterMap answerOf).map (·.1)).map some := by
  induction outputs with
  | nil => rfl
  | cons output outputs ih =>
    obtain ⟨id, hid⟩ := Option.ne_none_iff_exists'.mp (h output List.mem_cons_self)
    have hanswer : answerOf output = some (id, textOrJson (output.get (ofString "output")) (.str [])) := by
      rw [answerOf, hid]
      rfl
    rw [List.map_cons, List.filterMap_cons, hanswer, ih fun output hout => h output (List.mem_cons_of_mem _ hout), hid]
    rfl

theorem outputMessages {outputs : List JsonObject}
    (h : ∀ output ∈ outputs, output.readString typeKey = some functionCallOutputType) :
    outputs.filterMap chatMessage? = (outputs.filterMap answerOf).map fun a => .tool a.1 a.2 := by
  rw [List.map_filterMap]
  refine List.filterMap_congr fun output hout => ?_
  rw [chatMessage?, if_pos (h output hout), answerOf, Option.map_map]
  rfl

/-- No message item has the role of a tool. -/
def NoToolRoles (t : List JsonObject) : Prop :=
  ∀ item ∈ t, item.readString typeKey = some messageType → item.readString roleKey ≠ some toolRole

theorem conversation_of_exchange {calls outputs : List JsonObject} (h : IsExchange calls outputs)
    (hrest : Conversation rest) :
    Conversation (.toolCalls (calls.filterMap chatToolCall?) :: (outputs.filterMap chatMessage? ++ rest)) := by
  have hcalls := readIds_eq fun call hcall => (h.isCall call hcall).2
  have hids : ∀ output ∈ outputs, output.readString callIdKey ≠ none := by
    intro output hout hnone
    have hmem : none ∈ calls.map (·.readString callIdKey) :=
      h.answers.subset (List.mem_map.mpr ⟨output, hout, hnone⟩)
    rw [hcalls] at hmem
    obtain ⟨id, -, hid⟩ := List.mem_map.mp hmem
    cases hid
  have houtputs := outputIds hids
  rw [outputMessages h.isOutput]
  refine .exchange ?_ ?_ hrest
  · have hdistinct := h.distinct
    rw [hcalls] at hdistinct
    exact hdistinct.of_map _
  · have hperm := h.answers
    rw [hcalls, houtputs] at hperm
    exact (List.map_perm_map_iff (Option.some_injective Text)).mp hperm

theorem conversation_toChat {t : List JsonObject} (h : Exchanged t) (hroles : NoToolRoles t) :
    Conversation (toChat [] t) := by
  induction h with
  | nil => exact .nil
  | @other item t hcall hout _ ih =>
    have hrest := ih fun item hitem => hroles item (List.mem_cons_of_mem _ hitem)
    rw [toChat_other hcall, flushPendingToolCalls, if_pos rfl, List.nil_append, chatMessage?, if_neg hout]
    by_cases hmessage : item.readString typeKey = some messageType
    · rw [if_pos hmessage]
      cases hrole : item.readString roleKey with
      | none => exact hrest
      | some role =>
        refine .text (fun he => ?_) hrest
        exact hroles item List.mem_cons_self hmessage (he ▸ hrole)
    · rw [if_neg hmessage]
      exact hrest
  | exchange hexchange _ ih =>
    rw [toChat_exchange hexchange]
    refine conversation_of_exchange hexchange (ih fun item hitem => hroles item ?_)
    exact List.mem_append_right _ (List.mem_append_right _ hitem)

theorem conversation_system (instructions : Option Text) (h : Conversation rest) :
    Conversation (systemMessages instructions ++ rest) := by
  have hrole : ofString "system" ≠ toolRole := by decide
  unfold systemMessages
  split
  · exact h
  · exact h
  · exact .text hrole h

/-- **A transcript of whole exchanges is a valid conversation**, unless one of its messages has the role of a tool:
every tool message answers a call directly before it, every call is answered once, and the texts stand in the order
of the transcript. -/
theorem chat_valid (t : List JsonObject) (instructions : Option Text) (h : Exchanged t) (hroles : NoToolRoles t) :
    ToolsAnswer (transcriptToChatMessages t instructions) ∧
      CallsAnswered (transcriptToChatMessages t instructions) ∧
      (transcriptToChatMessages t instructions).filterMap ChatMessage.text? =
        (systemMessages instructions).filterMap ChatMessage.text? ++ t.filterMap messageText? := by
  have hconversation := conversation_system instructions (conversation_toChat h hroles)
  refine ⟨conversation_toolsAnswer hconversation, conversation_callsAnswered hconversation, ?_⟩
  rw [transcriptToChatMessages, List.filterMap_append, texts_toChat]

/-- A question, two calls at once, and their outputs in the order in which the tools returned. -/
def twoCalls : List JsonObject :=
  [userMessageInput (ofString "where"), functionCall (ofString "a") (ofString "lookup"),
    functionCall (ofString "b") (ofString "lookup"), functionCallOutput (ofString "b") (ofString "2"),
    functionCallOutput (ofString "a") (ofString "1")]

theorem twoCalls_exchanged : Exchanged twoCalls := by
  have hexchange : IsExchange [functionCall (ofString "a") (ofString "lookup"),
        functionCall (ofString "b") (ofString "lookup")]
      [functionCallOutput (ofString "b") (ofString "2"), functionCallOutput (ofString "a") (ofString "1")] :=
    ⟨by simp, by decide, by decide, by decide, by decide⟩
  exact .other (by decide) (by decide) (.exchange hexchange .nil)

theorem chat_valid_twoCalls : ToolsAnswer (transcriptToChatMessages twoCalls none) ∧
    CallsAnswered (transcriptToChatMessages twoCalls none) ∧
    (transcriptToChatMessages twoCalls none).filterMap ChatMessage.text? =
      (systemMessages none).filterMap ChatMessage.text? ++ twoCalls.filterMap messageText? :=
  chat_valid twoCalls none twoCalls_exchanged (by unfold NoToolRoles; decide)

/-- A message that has the role of a tool. -/
def toolRoleMessage : JsonObject :=
  .strings [(typeKey, messageType), (roleKey, toolRole), (ofString "content", ofString "x")] (by
    change List.Pairwise _ [typeKey, roleKey, ofString "content"]
    decide)

/-- It is sent as a tool message, and answers nothing. -/
theorem toolRole_unanswered : Exchanged [toolRoleMessage] ∧
    ¬ ToolsAnswer (transcriptToChatMessages [toolRoleMessage] none) := by
  refine ⟨.other (by decide) (by decide) .nil, fun h => ?_⟩
  have hmessages : transcriptToChatMessages [toolRoleMessage] none = [] ++ .text toolRole (ofString "x") :: [] := by
    decide
  obtain ⟨earlier, calls, between, hnone, -⟩ := h [] (.text toolRole (ofString "x")) [] hmessages (decide_eq_true rfl)
  simp at hnone

end AgentDesk
