/-
# Edits and reactions by message number

The agent edits a message or reacts to it by its number. `edit_message` and `add_reaction`
(`mcp-tools/core.ts`) look up the message's id and where it went, `getMessageIdBySeq` and
`getRoutingBySeq`, ask the gate and leave a row whose content has the operation and the id; `deliver` of
`src/channels/feishu.ts` reads them from the content and calls the platform.

For an event the id that is found is the row's, which the router has made of the platform's id and the agent
group. And `deliver` wants an `action` of a reaction, which the rows of the host's own reactions have and the
tool's have not. So an edit reaches what the agent has sent, no event, and a reaction reaches nothing.

* `reaches_iff`: over every run of the writers, a tool reaches the message it names exactly for an edit, with
  a text, of a delivered row whose number is no other message's, at a place the gate leaves open.
* `event_unreached`: an edit of the first message, and a reaction to it and to its answer.

Taken as they are: what Feishu answers, `toLowerCase`, and the files of the row.
-/
import AgentDesk.OptInCards
import AgentDesk.PersistBeforeRoute
import AgentDesk.RoutingGate
import AgentDesk.Sequence

namespace AgentDesk

open Js
open JsonText (ofString)

/-! ### The tools -/

/-- Where a message came from or went. -/
structure MessageRouting where
  channelType : Option String
  platformId : Option String
  threadId : Option String
  deriving DecidableEq, Repr

def MessageIn.routing (row : MessageIn) : MessageRouting := ⟨row.channelType, row.platformId, row.threadId⟩

def MessageOutRow.routing (row : MessageOutRow) : MessageRouting := ⟨row.channelType, row.platformId, row.threadId⟩

/-- In both tables, like `getMessageIdBySeq`. -/
def SeqDbs.getRoutingBySeq (s : SeqDbs) (seq : ℕ) : Option MessageRouting :=
  match Table.find MessageIn.seq s.messagesIn seq with
  | some inRow => some inRow.routing
  | none => (Table.find MessageOutRow.seq s.messagesOut seq).map (·.routing)

/-- What the tools read: the session's tables, with the host's outcomes, and the gate. -/
structure ToolView where
  dbs : SeqDbs
  delivered : List DeliveredRow
  gate : Option RoutingGate

/-- What the tools give `writeMessageOut`, under an id of its own. -/
structure MessageWrite extends MessageRouting where
  kind : OutboundKind
  content : List (String × Json)

variable (v : ToolView)

/-- The id of the message with the number. -/
def ToolView.messageId (seq : ℕ) : Except String String :=
  match getMessageIdBySeq v.dbs v.delivered seq with
  | some id => if id = "" then .error s!"Message #{seq} not found" else .ok id
  | none => .error s!"Message #{seq} not found"

def ToolView.enforce (routing : MessageRouting) : Enforcement :=
  enforceRoutingDestination v.gate (routing.channelType.map ofString) (routing.platformId.map ofString)
    (routing.threadId.map ofString)

/-- Where the message with the number is, if the gate allows a row to go there. -/
def ToolView.destination (seq : ℕ) : Except String MessageRouting :=
  match v.dbs.getRoutingBySeq seq with
  | some routing =>
    if truthy routing.channelType && truthy routing.platformId then
      match v.enforce routing with
      | .allowed _ => .ok routing
      | .refused _ reason => .error s!"Enforced routing decision rejected this destination ({reason.text})."
    else .error s!"Cannot determine destination for message #{seq}"
  | none => .error s!"Cannot determine destination for message #{seq}"

/-- Both tools: `name` is their other argument's, and `content` the row's for the id that is found. -/
def ToolView.writeToMessage (seq : ℕ) (name argument : String) (content : String → List (String × Json)) :
    Except String MessageWrite :=
  if seq = 0 ∨ argument = "" then .error s!"messageId and {name} are required"
  else do
    let platformId ← v.messageId seq
    let routing ← v.destination seq
    .ok { toMessageRouting := routing, kind := .chat, content := content platformId }

def editContent (text platformId : String) : List (String × Json) :=
  [("operation", .str "edit"), ("messageId", .str platformId), ("text", .str text)]

def reactionContent (emoji platformId : String) : List (String × Json) :=
  [("operation", .str "reaction"), ("messageId", .str platformId), ("emoji", .str emoji)]

def ToolView.editMessage (seq : ℕ) (text : String) : Except String MessageWrite :=
  v.writeToMessage seq "text" text (editContent text)

def ToolView.addReaction (seq : ℕ) (emoji : String) : Except String MessageWrite :=
  v.writeToMessage seq "emoji" emoji (reactionContent emoji)

/-! ### The adapter -/

/-- A type of reaction: its name, or what `FEISHU_REACTION_ALIASES` inherits under the key. -/
inductive EmojiType where
  | named (name : String)
  | inherited (key : String)
  deriving DecidableEq, Repr

structure FeishuReactionItem where
  reactionId : Option String
  operatorType : Option String
  deriving DecidableEq, Repr

/-- What the adapter calls. -/
inductive AdapterCall where
  | message (call : FeishuCall)
  | addReaction (messageId : String) (emojiType : EmojiType)
  | removeReaction (messageId reactionId : String)
  | listReactions (messageId : String) (emojiType : EmojiType)

/-- The outside of a row's delivery: that of its messages, `toLowerCase`, the reactions that Feishu lists, the
scrubbing of the text and the row's files. -/
structure AdapterEnv where
  feishu : FeishuEnv
  toLowerCase : String → String
  reactions : String → EmojiType → List FeishuReactionItem
  stripThinkTags : String → String
  files : List String

def feishuReactionAliases : List (String × String) :=
  [("+1", "THUMBSUP"), ("clap", "CLAP"), ("fire", "FIRE"), ("heart", "HEART"), ("hourglass", "HOURGLASS"),
    ("ok", "OK"), ("thinking", "THINKING"), ("thumbs_up", "THUMBSUP"), ("thumbsup", "THUMBSUP"),
    ("typing", "Typing"), ("wait", "WAIT"), ("❤️", "HEART"), ("❤", "HEART"), ("🔥", "FIRE"), ("👏", "CLAP"),
    ("👍", "THUMBSUP"), ("✅", "OK"), ("🤔", "THINKING"), ("⌨️", "Typing"), ("⌨", "Typing")]

/-- The properties of every object. -/
def objectProperties : List String :=
  ["__defineGetter__", "__defineSetter__", "__lookupGetter__", "__lookupSetter__", "__proto__", "constructor",
    "hasOwnProperty", "isPrototypeOf", "propertyIsEnumerable", "toLocaleString", "toString", "valueOf"]

def reactionAlias (key : String) : Option EmojiType :=
  match feishuReactionAliases.lookup key with
  | some name => some (.named name)
  | none => if key ∈ objectProperties then some (.inherited key) else none

def normalizeReactionEmojiType (toLowerCase : String → String) (value : Option Json) : Option EmojiType :=
  (readString value).map fun raw => ((reactionAlias (toLowerCase raw)).or (reactionAlias raw)).getD (.named raw)

/-- `value ?? other`. -/
def orElseNullish (value other : Option Json) : Option Json :=
  match value with
  | none | some .null => other
  | some j => some j

/-- A reaction of the app's own. -/
def FeishuReactionItem.mine (item : FeishuReactionItem) : Bool :=
  truthy item.reactionId && item.operatorType = some "app"

variable (env : AdapterEnv)

/-- The calls for a reaction. -/
def AdapterEnv.react (content : List (String × Json)) : Except String (List AdapterCall) :=
  let emojiType := normalizeReactionEmojiType env.toLowerCase
    (orElseNullish (fieldOf content "emojiType") (fieldOf content "emoji"))
  match (readString (fieldOf content "action")).map env.toLowerCase, readString (fieldOf content "messageId") with
  | some action, some messageId =>
    if action = "add" then match emojiType with
      | some emojiType => .ok [.addReaction messageId emojiType]
      | none => .error "Feishu reaction add requires emoji or emojiType"
    else if action = "remove" then match readString (fieldOf content "reactionId"), emojiType with
      | some reactionId, _ => .ok [.removeReaction messageId reactionId]
      | none, none => .error "Feishu reaction remove requires reactionId or emoji/emojiType"
      | none, some emojiType =>
        let mine := ((env.reactions messageId emojiType).find? (·.mine)).bind (·.reactionId)
        .ok (.listReactions messageId emojiType :: mine.toList.map (.removeReaction messageId))
    else .error s!"Unsupported Feishu reaction action: {action}"
  | _, _ => .error "Feishu reaction operation requires action and messageId"

/-- `adapter.deliver`, with its reactions. -/
def AdapterEnv.deliver (platformId : String) (threadId : Option String) (content : List (String × Json)) :
    Except String (List AdapterCall) :=
  if Json.asString (fieldOf content "operation") = some "reaction" then env.react content
  else .ok ((feishuDeliver env.feishu platformId threadId content env.files).map .message)

/-- The host hands over the content with its text scrubbed. -/
def AdapterEnv.deliverRow (row : MessageWrite) : Except String (List AdapterCall) :=
  env.deliver (row.platformId.getD "") row.threadId (outboundContent env.stripThinkTags row.content)

/-! ### What a tool reaches -/

/-- A call of a tool, but for the number. -/
inductive MessageTool where
  | editMessage (text : String)
  | addReaction (emoji : String)
  deriving DecidableEq, Repr

def MessageTool.write (seq : ℕ) : MessageTool → Except String MessageWrite
  | .editMessage text => v.editMessage seq text
  | .addReaction emoji => v.addReaction seq emoji

/-- The message that an adapter call of the tool's operation is on. -/
def MessageTool.operatesOn : MessageTool → AdapterCall → Option String
  | .editMessage _, .message (.patch messageId _) => some messageId
  | .addReaction _, .addReaction messageId _ => some messageId
  | _, _ => none

/-- The tool leaves a row whose delivery makes one call of its operation, on the message. -/
def Reaches (tool : MessageTool) (seq : ℕ) (messageId : String) : Prop :=
  ∃ row calls, tool.write v seq = .ok row ∧ env.deliverRow row = .ok calls ∧
    calls.filterMap tool.operatesOn = [messageId]

/-- A message that the agent has a number for, with the platform's id of it. -/
inductive NamedMessage where
  /-- The row of an event. -/
  | event (row : MessageIn) (messageId : String)
  /-- A row that the host has delivered. -/
  | delivered (row : MessageOutRow) (platformMessageId : String)

def NamedMessage.seq : NamedMessage → ℕ
  | .event row _ => row.seq
  | .delivered row _ => row.seq

def NamedMessage.messageId : NamedMessage → String
  | .event _ messageId => messageId
  | .delivered _ platformMessageId => platformMessageId

/-- The row is in the session, under the id the router writes or with the outcome that has the id. -/
def NamedMessage.Stored : NamedMessage → Prop
  | .event row messageId =>
    row ∈ v.dbs.messagesIn ∧ ∃ t agentGroupId, row.id = messageIdForAgent t messageId agentGroupId
  | .delivered row platformMessageId => row ∈ v.dbs.messagesOut ∧ ∃ outcome,
    outcomeOf v.delivered row.id = some outcome ∧ outcome.status = .delivered ∧
      outcome.platformMessageId = some platformMessageId

/-- A place that is known, and that the gate lets a row go to. -/
def ToolView.Open (routing : MessageRouting) : Prop :=
  truthy routing.channelType = true ∧ truthy routing.platformId = true ∧
    ∃ decisionId, v.enforce routing = .allowed decisionId

/-- The tool edits a delivered row, with a text; an inbound row with its number, should there be one, has the
same id; and the place of the row that the number finds is open. -/
def Editable : NamedMessage → MessageTool → Prop
  | .delivered row platformMessageId, .editMessage text =>
    text ≠ "" ∧ platformMessageId ≠ "" ∧
      (∀ inRow ∈ v.dbs.messagesIn, inRow.seq = row.seq → inRow.id = platformMessageId ∧ v.Open inRow.routing) ∧
      ((∀ inRow ∈ v.dbs.messagesIn, inRow.seq ≠ row.seq) → v.Open row.routing)
  | _, _ => False

/-! ### The row of a tool -/

variable {v env}

theorem messageId_ok_iff {seq : ℕ} {id : String} :
    v.messageId seq = .ok id ↔ getMessageIdBySeq v.dbs v.delivered seq = some id ∧ id ≠ "" := by
  unfold ToolView.messageId
  cases getMessageIdBySeq v.dbs v.delivered seq with
  | none => simp
  | some found =>
    by_cases he : found = ""
    · rw [he]
      simp [eq_comm]
    · simp only [he, if_false, Except.ok.injEq, Option.some.injEq]
      exact ⟨fun h => ⟨h, h ▸ he⟩, fun h => h.1⟩

theorem destination_ok_iff {seq : ℕ} {routing : MessageRouting} :
    v.destination seq = .ok routing ↔ v.dbs.getRoutingBySeq seq = some routing ∧ v.Open routing := by
  unfold ToolView.destination ToolView.Open
  cases v.dbs.getRoutingBySeq seq with
  | none => simp
  | some found =>
    dsimp only
    by_cases ht : truthy found.channelType = true ∧ truthy found.platformId = true
    · rw [if_pos (by simpa using ht)]
      cases he : v.enforce found with
      | allowed decisionId =>
        constructor
        · intro h
          obtain rfl := Except.ok.inj h
          exact ⟨rfl, ht.1, ht.2, decisionId, he⟩
        · exact fun h => congrArg Except.ok (Option.some.inj h.1)
      | refused decisionId reason =>
        refine ⟨(nomatch ·), fun ⟨hsome, _, _, _, hallowed⟩ => ?_⟩
        obtain rfl := Option.some.inj hsome
        rw [he] at hallowed
        cases hallowed
    · rw [if_neg (by simpa using ht)]
      refine ⟨(nomatch ·), fun ⟨hsome, hc, hp, _⟩ => ?_⟩
      obtain rfl := Option.some.inj hsome
      exact absurd ⟨hc, hp⟩ ht

theorem writeToMessage_ok_iff {seq : ℕ} {name argument : String} {content : String → List (String × Json)}
    {row : MessageWrite} :
    v.writeToMessage seq name argument content = .ok row ↔ seq ≠ 0 ∧ argument ≠ "" ∧ ∃ id routing,
      getMessageIdBySeq v.dbs v.delivered seq = some id ∧ id ≠ "" ∧
      v.dbs.getRoutingBySeq seq = some routing ∧ v.Open routing ∧ row = ⟨routing, .chat, content id⟩ := by
  unfold ToolView.writeToMessage
  by_cases hargs : seq = 0 ∨ argument = ""
  · rw [if_pos hargs]
    simp only [reduceCtorEq, false_iff]
    rintro ⟨hseq, hargument, -⟩
    exact hargs.elim hseq hargument
  · rw [if_neg hargs]
    obtain ⟨hseq, hargument⟩ := not_or.mp hargs
    simp only [bind_eq_ok, messageId_ok_iff, destination_ok_iff, Except.ok.injEq]
    constructor
    · rintro ⟨id, ⟨hid, hne⟩, routing, ⟨hrouting, hopen⟩, rfl⟩
      exact ⟨hseq, hargument, id, routing, hid, hne, hrouting, hopen, rfl⟩
    · rintro ⟨-, -, id, routing, hid, hne, hrouting, hopen, rfl⟩
      exact ⟨id, ⟨hid, hne⟩, routing, ⟨hrouting, hopen⟩, rfl⟩

/-! ### Its delivery -/

theorem sendEdit_patches (messageId : String) (content : List (String × Json)) (files : List String) :
    ∃ card, sendEdit messageId content files = [.patch messageId card] := by
  unfold sendEdit
  split
  · exact ⟨_, rfl⟩
  · exact ⟨_, rfl⟩

theorem deliverRow_edit {row : MessageWrite} {text id : String} (h : row.content = editContent text id) :
    ∃ card : Json, env.deliverRow row = .ok [.message (.patch id card)] := by
  have hoperation : fieldOf (outboundContent env.stripThinkTags row.content) "operation" = some (.str "edit") := by
    rw [outboundContent_field _ _ (by decide), h]
    rfl
  have hid : fieldOf (outboundContent env.stripThinkTags row.content) "messageId" = some (.str id) := by
    rw [outboundContent_field _ _ (by decide), h]
    rfl
  obtain ⟨card, hcard⟩ := sendEdit_patches id (outboundContent env.stripThinkTags row.content) env.files
  refine ⟨card, ?_⟩
  simp [AdapterEnv.deliverRow, AdapterEnv.deliver, feishuDeliver, hoperation, hid, Json.asString, hcard]

theorem deliverRow_reaction {row : MessageWrite} {emoji id : String} (h : row.content = reactionContent emoji id) :
    env.deliverRow row = .error "Feishu reaction operation requires action and messageId" := by
  have hoperation :
      fieldOf (outboundContent env.stripThinkTags row.content) "operation" = some (.str "reaction") := by
    rw [outboundContent_field _ _ (by decide), h]
    rfl
  have haction : fieldOf (outboundContent env.stripThinkTags row.content) "action" = none := by
    rw [outboundContent_field _ _ (by decide), h]
    rfl
  simp [AdapterEnv.deliverRow, AdapterEnv.deliver, AdapterEnv.react, hoperation, haction, Json.asString, readString]

theorem reaches_edit_iff {seq : ℕ} {text target : String} :
    Reaches v env (.editMessage text) seq target ↔ seq ≠ 0 ∧ text ≠ "" ∧ target ≠ "" ∧
      getMessageIdBySeq v.dbs v.delivered seq = some target ∧
      ∃ routing, v.dbs.getRoutingBySeq seq = some routing ∧ v.Open routing := by
  constructor
  · rintro ⟨row, calls, hrow, hcalls, hone⟩
    obtain ⟨hseq, htext, id, routing, hid, hne, hrouting, hopen, rfl⟩ := writeToMessage_ok_iff.mp hrow
    have hdelivery : ∃ card, env.deliverRow ⟨routing, .chat, editContent text id⟩ =
        .ok [.message (.patch id card)] := deliverRow_edit rfl
    obtain ⟨card, hcard⟩ := hdelivery
    obtain rfl := Except.ok.inj (hcard.symm.trans hcalls)
    obtain rfl : id = target := List.singleton_inj.mp hone
    exact ⟨hseq, htext, hne, hid, routing, hrouting, hopen⟩
  · rintro ⟨hseq, htext, hne, hid, routing, hrouting, hopen⟩
    have hrow : v.editMessage seq text = .ok ⟨routing, .chat, editContent text target⟩ :=
      writeToMessage_ok_iff.mpr ⟨hseq, htext, target, routing, hid, hne, hrouting, hopen, rfl⟩
    have hdelivery : ∃ card, env.deliverRow ⟨routing, .chat, editContent text target⟩ =
        .ok [.message (.patch target card)] := deliverRow_edit rfl
    obtain ⟨card, hcard⟩ := hdelivery
    exact ⟨_, _, hrow, hcard, rfl⟩

theorem reaction_unreached (emoji : String) (seq : ℕ) (target : String) :
    ¬ Reaches v env (.addReaction emoji) seq target := by
  rintro ⟨row, calls, hrow, hcalls, -⟩
  obtain ⟨-, -, id, routing, -, -, -, -, rfl⟩ := writeToMessage_ok_iff.mp hrow
  have herror : env.deliverRow ⟨routing, .chat, reactionContent emoji id⟩ =
      .error "Feishu reaction operation requires action and messageId" := deliverRow_reaction rfl
  cases herror.symm.trans hcalls

/-! ### What the numbers find -/

section Lookups

variable {seq : ℕ}

theorem lookups_event {s : SeqDbs} (hinv : SeqInv s) {row : MessageIn} (hrow : row ∈ s.messagesIn)
    (hseq : row.seq = seq) (delivered : List DeliveredRow) :
    getMessageIdBySeq s delivered seq = some row.id ∧ s.getRoutingBySeq seq = some row.routing := by
  have hfind : Table.find MessageIn.seq s.messagesIn seq = some row := hseq ▸ Table.find_of_nodup hinv.inOnce hrow
  simp [getMessageIdBySeq, SeqDbs.getRoutingBySeq, hfind]

theorem lookups_out {s : SeqDbs} (hinv : SeqInv s) {row : MessageOutRow} (hrow : row ∈ s.messagesOut)
    (hseq : row.seq = seq) (hfree : ∀ inRow ∈ s.messagesIn, inRow.seq ≠ seq) (delivered : List DeliveredRow) :
    getMessageIdBySeq s delivered seq = some (platformIdOf delivered row.id) ∧
      s.getRoutingBySeq seq = some row.routing := by
  have hnone : Table.find MessageIn.seq s.messagesIn seq = none := by
    rw [Table.find, List.find?_eq_none]
    exact fun inRow hin => by simpa using hfree inRow hin
  have hfind : Table.find MessageOutRow.seq s.messagesOut seq = some row :=
    hseq ▸ Table.find_of_nodup hinv.outOnce hrow
  simp [getMessageIdBySeq, SeqDbs.getRoutingBySeq, hnone, hfind]

end Lookups

theorem platformIdOf_delivered {delivered : List DeliveredRow} {outId q : String} {outcome : DeliveredRow}
    (h : outcomeOf delivered outId = some outcome) (hq : outcome.platformMessageId = some q) (hne : q ≠ "") :
    platformIdOf delivered outId = q := by
  simp [platformIdOf, h, hq, hne]

theorem messageIdForAgent_ne (t : AgentTurn) (messageId agentGroupId : String) :
    messageIdForAgent t messageId agentGroupId ≠ messageId := by
  intro he
  have hlength := congrArg String.length he
  have hcolon : (toString ":").length = 1 := rfl
  unfold messageIdForAgent at hlength
  by_cases hid : messageId = ""
  · rw [hid, String.length_empty] at hlength
    simp only [String.length_append] at hlength
    omega
  · simp only [if_pos hid, String.length_append, hcolon] at hlength
    have hself : (toString messageId).length = messageId.length := rfl
    omega

/-! ### Edits that reach their message -/

theorem reaches_delivered_iff (hinv : SeqInv v.dbs) {row : MessageOutRow} {q : String}
    (hstored : (NamedMessage.delivered row q).Stored v) (text : String) :
    Reaches v env (.editMessage text) row.seq q ↔ Editable v (.delivered row q) (.editMessage text) := by
  obtain ⟨hrow, outcome, houtcome, -, hq⟩ := hstored
  have hpos : row.seq ≠ 0 := by
    have := hinv.outPos row.seq (List.mem_map_of_mem hrow)
    omega
  rw [reaches_edit_iff]
  by_cases hfree : ∀ inRow ∈ v.dbs.messagesIn, inRow.seq ≠ row.seq
  · obtain ⟨hid, hrouting⟩ := lookups_out hinv hrow rfl hfree v.delivered
    constructor
    · rintro ⟨-, htext, hne, -, routing, hfound, hopen⟩
      obtain rfl := Option.some.inj (hrouting.symm.trans hfound)
      exact ⟨htext, hne, fun inRow hin hseq => absurd hseq (hfree inRow hin), fun _ => hopen⟩
    · rintro ⟨htext, hne, -, hopen⟩
      rw [platformIdOf_delivered houtcome hq hne] at hid
      exact ⟨hpos, htext, hne, hid, _, hrouting, hopen hfree⟩
  · -- the number finds the inbound row
    push Not at hfree
    obtain ⟨inRow, hin, hseq⟩ := hfree
    obtain ⟨hid, hrouting⟩ := lookups_event hinv hin hseq v.delivered
    constructor
    · rintro ⟨-, htext, hne, hfoundId, routing, hfound, hopen⟩
      obtain rfl := Option.some.inj (hrouting.symm.trans hfound)
      have hinId : inRow.id = q := Option.some.inj (hid.symm.trans hfoundId)
      refine ⟨htext, hne, fun inRow' hin' hseq' => ?_, fun hall => absurd hseq (hall inRow hin)⟩
      obtain ⟨hid', hrouting'⟩ := lookups_event hinv hin' hseq' v.delivered
      rw [← Option.some.inj (hid.symm.trans hid'), ← Option.some.inj (hrouting.symm.trans hrouting')]
      exact ⟨hinId, hopen⟩
    · rintro ⟨htext, hne, hall, -⟩
      obtain ⟨hinId, hopen⟩ := hall inRow hin hseq
      exact ⟨hpos, htext, hne, hinId ▸ hid, _, hrouting, hopen⟩

theorem event_not_reached (hinv : SeqInv v.dbs) {row : MessageIn} {messageId : String}
    (hstored : (NamedMessage.event row messageId).Stored v) (text : String) :
    ¬ Reaches v env (.editMessage text) row.seq messageId := by
  obtain ⟨hrow, t, agentGroupId, hrowId⟩ := hstored
  intro h
  obtain ⟨-, -, -, hfoundId, -⟩ := reaches_edit_iff.mp h
  obtain ⟨hid, -⟩ := lookups_event hinv hrow rfl v.delivered
  have heq : row.id = messageId := Option.some.inj (hid.symm.trans hfoundId)
  exact messageIdForAgent_ne t messageId agentGroupId (hrowId.symm.trans heq)

/-- **What the tools reach.** In every state of a session's writers, a tool that names a stored message by
its number leads to one platform call of its operation on that message exactly when it is an edit of a
delivered row, with a text, that no inbound row with another id comes before, at an open place. -/
theorem reaches_iff {es : List SeqEvent} (hrun : Trans.run seqStep SeqDbs.empty es = some v.dbs)
    {x : NamedMessage} (hstored : x.Stored v) (tool : MessageTool) :
    Reaches v env tool x.seq x.messageId ↔ Editable v x tool := by
  have hinv : SeqInv v.dbs := Trans.run_inv seqInv_step seqInv_empty hrun
  cases tool with
  | editMessage text =>
    cases x with
    | event row messageId => exact iff_of_false (event_not_reached hinv hstored text) id
    | delivered row q => exact reaches_delivered_iff hinv hstored text
  | addReaction emoji =>
    have hnot : ¬ Editable v x (.addReaction emoji) := by
      cases x with
      | event row messageId => exact id
      | delivered row q => exact id
    exact iff_of_false (reaction_unreached emoji x.seq x.messageId) hnot

/-- An adapter that has started, with no reactions at Feishu. -/
def quietAdapter : AdapterEnv :=
  { feishu := ⟨true, 0, false, fun text => [text], false, fun _ => none, fun _ => false, fun _ => false⟩
    toLowerCase := String.toLower, reactions := fun _ _ => [], stripThinkTags := id, files := [] }

/-- A message and its answer. -/
def answered : List SeqEvent := [.insertMessage "sess-1" hello, .readOut 0, .readIn 0, .writeMessageOut 0 answer]

def helloRow : MessageIn := hello.row "sess-1" 2 hello.content

def answerRow : MessageOutRow := { answer with seq := 3 }

/-- The answer's outcome. -/
def answerOutcome : DeliveredRow := ⟨"msg-1", some "om_9", .delivered, 0, 0, none⟩

/-- The edit of the message is one of `om_1:ag-front`, and a reaction to it or to its answer is an error of
the adapter's. -/
theorem event_unreached :
    ∃ s, Trans.run seqStep SeqDbs.empty answered = some s ∧
      let v : ToolView := ⟨s, [answerOutcome], none⟩
      (NamedMessage.event helloRow "om_1").Stored v ∧ (NamedMessage.delivered answerRow "om_9").Stored v ∧
      (∃ row card, v.editMessage 2 "hi" = .ok row ∧
        quietAdapter.deliverRow row = .ok [.message (.patch "om_1:ag-front" card)]) ∧
      (∃ row, v.addReaction 3 "heart" = .ok row ∧
        quietAdapter.deliverRow row = .error "Feishu reaction operation requires action and messageId") ∧
      ¬ Reaches v quietAdapter (.editMessage "hi") 2 "om_1" ∧
      ¬ Reaches v quietAdapter (.addReaction "heart") 2 "om_1" ∧
      ¬ Reaches v quietAdapter (.addReaction "heart") 3 "om_9" := by
  have hrun : Trans.run seqStep SeqDbs.empty answered = some _ := rfl
  refine ⟨_, hrun, ?_⟩
  intro v
  have hevent : (NamedMessage.event helloRow "om_1").Stored v :=
    ⟨.head _, sampleTurn 1 Io.idle, "ag-front", by decide⟩
  have hanswer : (NamedMessage.delivered answerRow "om_9").Stored v :=
    ⟨.head _, answerOutcome, rfl, rfl, rfl⟩
  have hinv : SeqInv v.dbs := Trans.run_inv seqInv_step seqInv_empty hrun
  have hopen : v.Open helloRow.routing := ⟨by decide, by decide, none, rfl⟩
  obtain ⟨hid, hrouting⟩ := lookups_event hinv hevent.1 rfl v.delivered
  have hedit : v.editMessage 2 "hi" = .ok ⟨helloRow.routing, .chat, editContent "hi" "om_1:ag-front"⟩ :=
    writeToMessage_ok_iff.mpr ⟨by decide, by decide, _, _, hid, by decide, hrouting, hopen, rfl⟩
  have hreaction : v.addReaction 3 "heart" = .ok ⟨answerRow.routing, .chat, reactionContent "heart" "om_9"⟩ :=
    writeToMessage_ok_iff.mpr ⟨by decide, by decide, _, _, rfl, by decide, rfl, hopen, rfl⟩
  have hdelivery : ∃ card, quietAdapter.deliverRow ⟨helloRow.routing, .chat, editContent "hi" "om_1:ag-front"⟩ =
      .ok [.message (.patch "om_1:ag-front" card)] := deliverRow_edit rfl
  obtain ⟨card, hcard⟩ := hdelivery
  exact ⟨hevent, hanswer, ⟨_, card, hedit, hcard⟩, ⟨_, hreaction, deliverRow_reaction rfl⟩,
    event_not_reached hinv hevent "hi", reaction_unreached _ _ _, reaction_unreached _ _ _⟩

/-- The edit of the answer reaches it. -/
theorem reaches_iff_sample :
    ∃ s, Trans.run seqStep SeqDbs.empty answered = some s ∧
      Reaches ⟨s, [answerOutcome], none⟩ quietAdapter (.editMessage "hi there") 3 "om_9" := by
  have hrun : Trans.run seqStep SeqDbs.empty answered = some _ := rfl
  refine ⟨_, hrun, (reaches_iff (v := ⟨_, [answerOutcome], none⟩) (x := .delivered answerRow "om_9") hrun ?_
    (.editMessage "hi there")).mpr ?_⟩
  · exact ⟨.head _, answerOutcome, rfl, rfl, rfl⟩
  · refine ⟨by decide, by decide, fun inRow hin hseq => ?_, fun _ => ⟨by decide, by decide, none, rfl⟩⟩
    rw [List.mem_singleton.mp hin] at hseq
    exact absurd hseq (by decide)

end AgentDesk
