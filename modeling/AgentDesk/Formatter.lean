/-
# The prompt of a batch

`container/agent-runner/src/formatter.ts` makes one text out of the rows of a batch, and says which of them are
commands. The content of a row is a text that anybody wrote; what it parses to is read as if it had the type the
kind of the row asks for. `none` stands for an exception: a property of `null`, a method that the value does not
have, a value that cannot be made a string.

Each formatter escapes what it writes with `escapeXml`, but for what it writes as JSON, the prompt of a task, and
the type of an attachment.

Key definitions: `Formatter.MessageInRow`, `Formatter.formatMessages`, `Formatter.categorizeMessage`,
`Formatter.isClearCommand`, `Formatter.escapeXml`.
-/
import AgentDesk.JsonCoercion
import AgentDesk.JsonPretty
import AgentDesk.RunnerWrites

namespace AgentDesk.Formatter

open JsonText

/-- A row of `messages_in`, with the columns that the formatter and the identity of a turn are made of. -/
structure MessageInRow where
  seq : Option ℕ
  kind : MessageKind
  timestamp : Text
  trigger : Bool
  platformId : Option Text
  channelType : Option Text
  threadId : Option Text
  content : Text
  originUserId : Option Text

/-- `parseContent`. -/
def parseContent (json : Text) : Value := (parse json).getD (.obj [(ofString "text", .str json)])

/-! ### Commands -/

inductive CommandCategory where
  | admin | filtered | passthrough | none
  deriving DecidableEq, Repr

structure CommandInfo where
  category : CommandCategory
  command : Text
  text : Text
  senderId : Option Value

def ADMIN_COMMANDS : List Text :=
  ["/remote-control", "/clear", "/compact", "/context", "/cost", "/files"].map ofString

def FILTERED_COMMANDS : List Text :=
  ["/help", "/login", "/logout", "/doctor", "/config", "/start"].map ofString

/-- `toLowerCase`, of the ASCII letters; no other character has a letter of a command alone as its lower case. -/
def lowerUnit (c : UInt16) : UInt16 := if unit 'A' ≤ c ∧ c ≤ unit 'Z' then c + 32 else c

/-- `(content.text || '').trim()`. -/
def commandText (content : Value) : Option Text :=
  match orFallback (content.prop "text") (.str []) with
  | .str t => some (trimText t)
  | _ => none

/-- `raw.includes(':')`, of a text or of an array. -/
def includesColon : Value → Option Bool
  | .str t => some (t.contains (unit ':'))
  | .arr l => some (l.any fun v => match v with | .str t => t = [unit ':'] | _ => false)
  | _ => none

/-- A sender's id under the channel, unless it is under one. -/
def namespacedId (channelType : Option Text) (raw : Value) : Option (Option Value) := do
  if !truthyValue (some raw) then return none
  if ← includesColon raw then return some raw
  match channelType with
  | none | some [] => return some raw
  | some channel => return some (.str (channel ++ unit ':' :: (← raw.toText)))

def extractSenderId (msg : MessageInRow) (content : Value) : Option (Option Value) :=
  let userId := (content.prop "author").bind fun author => author.prop "userId"
  namespacedId msg.channelType (orFallback (content.prop "senderId") (orFallback userId .null))

def categorizeMessage (msg : MessageInRow) : Option CommandInfo := do
  let content ← (parseContent msg.content).notNull
  let text ← commandText content
  let senderId ← extractSenderId msg content
  if text.head? ≠ some (unit '/') then return { category := .none, command := [], text, senderId }
  let command := (text.takeWhile fun c => !isSpaceUnit c).map lowerUnit
  let category :=
    if command ∈ ADMIN_COMMANDS then .admin else if command ∈ FILTERED_COMMANDS then .filtered else .passthrough
  return { category, command, text, senderId }

def isClearCommand (msg : MessageInRow) : Option Bool := do
  let content ← (parseContent msg.content).notNull
  let text ← commandText content
  return (ofString "/clear").isPrefixOf (text.map lowerUnit)

/-! ### Escaping -/

/-- `t.replace(/c/g, replacement)`. -/
def replaceUnit (c : Char) (replacement : String) (t : Text) : Text :=
  t.flatMap fun d => if d = unit c then ofString replacement else [d]

def escapeXml (t : Text) : Text :=
  replaceUnit '"' "&quot;" (replaceUnit '>' "&gt;" (replaceUnit '<' "&lt;" (replaceUnit '&' "&amp;" t)))

/-- `escapeXml` of a value; only a string has a `replace`. -/
def escapeValue : Value → Option Text
  | .str t => some (escapeXml t)
  | _ => none

/-! ### Rows -/

/-- `TIMEZONE`, and `formatLocalTime` of the runtime's calendar; it says `Invalid Date` of a text that is no time. -/
structure Locale where
  timezone : Text
  formatLocalTime : Text → Text → Text

variable (w : AgentRunner) (locale : Locale)

/-- ` name="value"`. -/
def attr (name : String) (value : Text) : Text :=
  [ofString " ", ofString name, ofString "=\"", value, ofString "\""].flatten

/-- `<name attributes>body</name>`. -/
def element (name : String) (attributes : List Text) (body : Text) : Text :=
  [ofString "<", ofString name, attributes.flatten, ofString ">", body, ofString "</", ofString name,
    ofString ">"].flatten

/-- A row's destination by its name, or its routing fields. -/
def originAttr (msg : MessageInRow) : Text :=
  match w.findByRouting msg.channelType msg.platformId with
  | some fromDest => attr "from" (escapeXml (ofString fromDest.name))
  | none =>
    if falsy msg.channelType ∧ falsy msg.platformId then []
    else
      attr "from" [ofString "unknown:", escapeXml (msg.channelType.getD []), ofString ":",
        escapeXml (msg.platformId.getD [])].flatten

/-- The quoted original; it needs both a sender and a text. -/
def quotedMessage (sender text : Option Value) : Option Text :=
  if !truthyValue sender || !truthyValue text then some []
  else do
    let sender ← sender.bind escapeValue
    let text ← text.bind escapeValue
    return [ofString "\n  ", element "quoted_message" [attr "from" sender] text, ofString "\n"].flatten

def formatReplyContext (replyTo : Option Value) : Option Text :=
  if !truthyValue replyTo then some []
  else quotedMessage (replyTo.bind fun r => r.prop "sender") (replyTo.bind fun r => r.prop "text")

def formatAttachment (a : Value) : Option Text := do
  let a ← a.notNull
  let name := orFallback (a.prop "name") (orFallback (a.prop "filename") (.str (ofString "attachment")))
  let type := orFallback (a.prop "type") (.str (ofString "file"))
  if truthyValue (a.prop "localPath") then
    let localPath ← (a.prop "localPath").bind Json.toText
    return [ofString "[", ← type.toText, ofString ": ", ← escapeValue name, ofString " — saved to ",
      escapeXml (ofString "/workspace/" ++ localPath), ofString "]"].flatten
  else if truthyValue (a.prop "url") then
    return [ofString "[", ← type.toText, ofString ": ", ← escapeValue name, ofString " (",
      ← (a.prop "url").bind escapeValue, ofString ")]"].flatten
  else return [ofString "[", ← type.toText, ofString ": ", ← escapeValue name, ofString "]"].flatten

def formatAttachments (attachments : Option Value) : Option Text :=
  match attachments with
  | some (.arr (a :: l)) => ((a :: l).mapM formatAttachment).map fun parts => 0x0a :: [0x0a].intercalate parts
  | _ => some []

/-- `content.sender || content.author?.fullName || content.author?.userName || 'Unknown'`. -/
def senderName (content : Value) : Value :=
  let author := content.prop "author"
  orFallback (content.prop "sender") (orFallback (author.bind fun a => a.prop "fullName")
    (orFallback (author.bind fun a => a.prop "userName") (.str (ofString "Unknown"))))

def idAttr (seq : Option ℕ) : Text :=
  match seq with
  | some seq => attr "id" (decimalText seq)
  | none => []

def replyAttr (replyTo : Option Value) : Option Text :=
  let id := replyTo.bind fun r => r.prop "id"
  if truthyValue id then (id.bind Json.toText).map fun id => attr "reply_to" (escapeXml id) else some []

def attachmentsSuffix (includeAttachments : Bool) (attachments : Option Value) : Option Text :=
  if includeAttachments then formatAttachments attachments else some []

def formatSingleChat (includeAttachments : Bool) (msg : MessageInRow) : Option Text := do
  let content ← (parseContent msg.content).notNull
  let replyAttr ← replyAttr (content.prop "replyTo")
  let replyPrefix ← formatReplyContext (content.prop "replyTo")
  let attachmentsSuffix ← attachmentsSuffix includeAttachments (content.prop "attachments")
  let sender ← escapeValue (senderName content)
  let text ← escapeValue (orFallback (content.prop "text") (.str []))
  let time := locale.formatLocalTime msg.timestamp locale.timezone
  return element "message"
    [idAttr msg.seq, originAttr w msg, attr "sender" sender, attr "time" (escapeXml time), replyAttr]
    [replyPrefix, text, attachmentsSuffix].flatten

def formatChatMessages (includeAttachments : Bool) (messages : List MessageInRow) : Option Text :=
  match messages with
  | [msg] => formatSingleChat w locale includeAttachments msg
  | _ => (messages.mapM (formatSingleChat w locale includeAttachments)).map fun lines =>
      [0x0a].intercalate (ofString "<messages>" :: (lines ++ [ofString "</messages>"]))

/-- The part of a task's text that its script has written. -/
def scriptOutputParts (scriptOutput : Option Value) : List Text :=
  match scriptOutput with
  | some v => if truthyValue (some v) then [ofString "Script output:", pretty 0 v, []] else []
  | none => []

def formatTaskMessage (msg : MessageInRow) : Option Text := do
  let content ← (parseContent msg.content).notNull
  let time := locale.formatLocalTime msg.timestamp locale.timezone
  let prompt ← (orFallback (content.prop "prompt") (.str [])).toText
  return element "task" [originAttr w msg, attr "time" (escapeXml time)]
    ([0x0a].intercalate (scriptOutputParts (content.prop "scriptOutput") ++ [ofString "Instructions:", prompt]))

def formatWebhookMessage (msg : MessageInRow) : Option Text := do
  let content ← (parseContent msg.content).notNull
  let source ← escapeValue (orFallback (content.prop "source") (.str (ofString "unknown")))
  let event ← escapeValue (orFallback (content.prop "event") (.str (ofString "unknown")))
  return element "webhook" [originAttr w msg, attr "source" source, attr "event" event]
    (pretty 0 (orFallback (content.prop "payload") content))

def formatSystemMessage (msg : MessageInRow) : Option Text := do
  let content ← (parseContent msg.content).notNull
  let action ← escapeValue (orFallback (content.prop "action") (.str (ofString "unknown")))
  let status ← escapeValue (orFallback (content.prop "status") (.str (ofString "unknown")))
  return element "system_response" [originAttr w msg, attr "action" action, attr "status" status]
    (stringify (orFallback (content.prop "result") .null))

/-! ### The batch -/

def header : Text := [ofString "<context", attr "timezone" (escapeXml locale.timezone), ofString " />\n"].flatten

def chatParts (includeAttachments : Bool) (chatMessages : List MessageInRow) : Option (List Text) :=
  if chatMessages = [] then some []
  else (formatChatMessages w locale includeAttachments chatMessages).map fun part => [part]

/-- The chat rows, in one element if there are several, then the tasks, the webhooks, the system rows. -/
def formatMessages (includeAttachments : Bool) (messages : List MessageInRow) : Option Text :=
  if messages = [] then some (header locale)
  else do
    let chats ← chatParts w locale includeAttachments (messages.filter fun m => m.kind.isChat)
    let tasks ← (messages.filter fun m => m.kind = .task).mapM (formatTaskMessage w locale)
    let webhooks ← (messages.filter fun m => m.kind = .webhook).mapM (formatWebhookMessage w)
    let systems ← (messages.filter fun m => m.kind = .system).mapM (formatSystemMessage w)
    return header locale ++ (ofString "\n\n").intercalate (chats ++ tasks ++ webhooks ++ systems)

end AgentDesk.Formatter
