/-
# The payload of the routing model

`buildRoutingContext` of `routing/index.ts`: the latest messages, the one that triggered the turn among them, in
markup, in no more than so many characters. What is too much goes in stages. Rows that only give context go first,
the oldest first, but for the newest of them; then its text is cut, then the trigger's; then it goes altogether, and
the trigger's text is cut again. A text is cut when it is escaped already.

The texts are in UTF-16 units; `timezone` is `TZ`, if that says something.

Key definitions: `Routing.MessageInRow`, `Routing.View`, `Routing.render`, `Routing.dropOldest`, `Routing.truncate`,
`Routing.buildRoutingContext`.
-/
import AgentDesk.Formatter

namespace AgentDesk.Routing

open JsonText

/-- A row of `messages_in`. -/
structure MessageInRow where
  id : Text
  kind : MessageKind
  trigger : Bool
  content : Text
  deriving DecidableEq

/-- A destination; the channels count for nothing here. -/
structure DestinationEntry where
  name : Text
  displayName : Text
  type : TargetType
  agentGroupId : Option Text

inductive RoutingFailureCode where
  | timeout | transportError | httpError | emptyOutput | invalidJson | schemaInvalid | unknownTarget
  | promptUnavailable | lowConfidence
  deriving DecidableEq, Repr

structure RoutingAttemptError where
  code : RoutingFailureCode
  message : Text
  retryable : Bool
  deriving DecidableEq

/-! ### Messages -/

def escapeXml (t : Text) : Text := Formatter.replaceUnit '\'' "&apos;" (Formatter.escapeXml t)

/-- `parseMessageContent`: an object that says nothing, for other JSON. -/
def parseMessageContent (raw : Text) : List (Text × Value) :=
  match parse raw with
  | some (.obj fields) => fields
  | some _ => []
  | none => [(ofString "text", .str raw)]

def messageText (message : MessageInRow) : Text :=
  (fieldText (parseMessageContent message.content) (ofString "text")).getD []

def messageSender (message : MessageInRow) : Text :=
  (fieldText (parseMessageContent message.content) (ofString "sender")).getD (ofString "Unknown")

def attachmentCount (messages : List MessageInRow) : ℕ :=
  (messages.map fun message =>
    match (parseMessageContent message.content).lookup (ofString "attachments") with
    | some (.arr attachments) => attachments.length
    | _ => 0).sum

/-! ### Which messages are shown -/

def anchorOf (chat : List MessageInRow) : Option MessageInRow := (chat.find? (·.trigger)).or chat.getLast?

/-- `chat.slice(-maxMessages)`. -/
def latest (chat : List MessageInRow) (maxMessages : ℕ) : List MessageInRow :=
  if maxMessages = 0 then chat else chat.drop (chat.length - maxMessages)

/-- `inputOrder`, where the last of two rows of one id counts. -/
def inputOrder (chat : List MessageInRow) (id : Text) : ℕ :=
  ((chat.zipIdx.reverse.find? fun p => p.1.id = id).map (·.2)).getD 0

def selectMessages (chat : List MessageInRow) (maxMessages : ℕ) : List MessageInRow :=
  match anchorOf chat with
  | none => latest chat maxMessages
  | some anchor =>
    if (latest chat maxMessages).any fun m => m.id = anchor.id then latest chat maxMessages
    else ((latest chat maxMessages).drop 1 ++ [anchor]).mergeSort fun a b => inputOrder chat a.id ≤ inputOrder chat b.id

structure View where
  msg : MessageInRow
  sender : Text
  visibleText : Text
  truncated : Bool
  anchor : Bool

def viewOf (anchor : Option MessageInRow) (msg : MessageInRow) : View where
  msg
  sender := escapeXml (messageSender msg)
  visibleText := escapeXml (messageText msg)
  truncated := false
  anchor := decide (some msg.id = anchor.map (·.id))

/-! ### The text -/

def marker : Text := ofString "<truncated />"

def workerLine (worker : DestinationEntry) : Text :=
  ofString "    <worker name=\"" ++ (escapeXml worker.name ++ (ofString "\" display_name=\"" ++
    (escapeXml worker.displayName ++ ofString "\" />")))

def metadataLine (timezone : Option Text) (messages : List MessageInRow) : Text :=
  ofString "  <metadata timezone=\"" ++ (escapeXml ((timezone.bind nonBlank).getD (ofString "UTC")) ++
    (ofString "\" input_kind=\"chat\" message_count=\"" ++ (decimalText messages.length ++
      (ofString "\" attachment_count=\"" ++ (decimalText (attachmentCount messages) ++ ofString "\" />")))))

def messageLine (view : View) : Text :=
  ofString "    <message sender=\"" ++ (view.sender ++ (ofString "\">" ++ (view.visibleText ++
    ((if view.truncated then marker else []) ++ ofString "</message>"))))

/-- `lines.join('\n')`. -/
def joinedLines (lines : List Text) : Text := [0x0a].intercalate lines

section Context

variable (timezone : Option Text) (workers : List DestinationEntry) (maxChars : ℤ)

def render (views : List View) : Text :=
  joinedLines ([ofString "<routing_request version=\"1\">", metadataLine timezone (views.map (·.msg)),
      ofString "  <workers>"] ++ (workers.filter fun worker => worker.type = .agent).map workerLine ++
    [ofString "  </workers>", ofString "  <messages>"] ++ views.map messageLine ++
    [ofString "  </messages>", ofString "</routing_request>"])

/-- The text is too long. -/
def Exceeds (views : List View) : Prop := maxChars < (render timezone workers views).length

instance (views : List View) : Decidable (Exceeds timezone workers maxChars views) :=
  inferInstanceAs (Decidable (_ < _))

/-- Rows that only give context go, while there are two of them. -/
def dropOldest : ℕ → List View → List View
  | 0, views => views
  | n + 1, views =>
    if Exceeds timezone workers maxChars views then
      if (views.filter fun view => !view.anchor).length ≤ 1 then views
      else dropOldest n (views.eraseP fun view => !view.anchor)
    else views

/-- A text is cut by what is too much, and by what says so. -/
def View.truncate (view : View) (excess : ℤ) : View :=
  if excess ≤ 0 ∨ view.visibleText.length = 0 then view
  else
    let markerCost : ℤ := if view.truncated then 0 else marker.length
    let keep := max 0 (view.visibleText.length - excess - markerCost)
    { view with visibleText := view.visibleText.take keep.toNat, truncated := true }

/-- `truncate` of the first view of a kind, when the text is too long. -/
def truncate (kind : View → Bool) (views : List View) : List View :=
  if Exceeds timezone workers maxChars views then
    views.modify (views.findIdx kind) (·.truncate ((render timezone workers views).length - maxChars))
  else views

/-- The last row that only gives context goes, and the trigger's text is cut again. -/
def dropLast (views : List View) : List View :=
  if Exceeds timezone workers maxChars views then
    if views.any fun view => !view.anchor then
      truncate timezone workers maxChars (·.anchor) (views.eraseP fun view => !view.anchor)
    else views
  else views

def structuralError : RoutingAttemptError :=
  ⟨.schemaInvalid, ofString "Routing context structural metadata exceeds maxChars", false⟩

/-- The views that are shown in full, or about to be cut. -/
def keptViews (messages : List MessageInRow) (maxMessages : ℕ) : List View :=
  let chat := messages.filter (·.kind.isChat)
  let views := (selectMessages chat maxMessages).map (viewOf (anchorOf chat))
  dropOldest timezone workers maxChars views.length views

def finalViews (views : List View) : List View :=
  dropLast timezone workers maxChars
    (truncate timezone workers maxChars (·.anchor) (truncate timezone workers maxChars (fun view => !view.anchor) views))

def buildRoutingContext (messages : List MessageInRow) (maxMessages : ℕ) : Except RoutingAttemptError Text :=
  let views := finalViews timezone workers maxChars (keptViews timezone workers maxChars messages maxMessages)
  if Exceeds timezone workers maxChars views then .error structuralError
  else .ok (render timezone workers views)

end Context

end AgentDesk.Routing
