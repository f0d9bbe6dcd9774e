/-
# What the runner writes out

The rows of `messages_out` and who resolves where they go: the tools of the MCP server
(`mcp-tools/core.ts`, `interactive.ts`, `roster.ts`, `scheduling.ts`), by the session's routing, by
destination name or by message number, and the dispatcher of result texts (`poll-loop.ts`), by the
names of the blocks or by where the turn came from. Each asks the gate before it writes.

A row is taken with its kind, its destination, the action of a system row and the text of the model it
carries; the rest of its content does not matter to where it goes. Arguments are taken after the
coercions of the handlers: `""` for a text that is left out.

* `sendTo_obeys`, `sendToDestination_obeys`: the row that is written is permitted by the gate.
* `toolRow_obeys`: so is every row of a tool, whatever the arguments.
-/
import AgentDesk.PollLoop
import AgentDesk.ResultBlocks
import AgentDesk.RoutingGate
import AgentDesk.Sequence

namespace AgentDesk

open Js (trim)
open JsonText (Text ofString)

/-! ### Rows and tables -/

/-- Where a message goes. -/
structure Surface where
  channelType : Option Text
  platformId : Option Text
  threadId : Option Text
  deriving DecidableEq, Repr

/-- The `action` of a system row. -/
inductive SystemAction where
  | classifyIntent | escalate | routingFeedback | cancelTask | pauseTask | resumeTask | installPackages
  | addMcpServer | createAgent | gatewayAudit | providerError | rosterInvite | scheduleTask | updateTask
  deriving DecidableEq, Repr

/-- The actions that reach beyond the turn. -/
def SystemAction.opaque : List SystemAction := [.rosterInvite, .scheduleTask, .updateTask]

/-- What a caller gives `writeMessageOut`. -/
structure SentRow where
  kind : OutboundKind
  action : Option SystemAction
  surface : Surface
  text : Option String
  deriving DecidableEq, Repr

/-- A row of `messages_out`. -/
structure NumberedRow extends SentRow where
  seq : ℕ
  deriving DecidableEq, Repr

def nowhere : Surface := ⟨none, none, none⟩

def SystemAction.row (action : SystemAction) (surface : Surface) : SentRow := ⟨.system, some action, surface, none⟩

/-- `RoutingContext`: where the rows of a turn came from. -/
structure RoutingContext extends Surface where
  inReplyTo : Option String
  deriving DecidableEq, Repr

def InboundRow.surface (m : InboundRow) : Surface :=
  ⟨m.channelType.map ofString, m.platformId.map ofString, m.threadId.map ofString⟩

/-- The first chat row, else the first row. -/
def extractRouting (messages : List InboundRow) : RoutingContext :=
  let anchor := (messages.find? fun m => m.kind.isChat).or messages.head?
  { toSurface := (anchor.map InboundRow.surface).getD nowhere, inReplyTo := anchor.map (·.id) }

/-- A row of `destinations`. -/
structure DestinationEntry where
  name : String
  type : TargetType
  channelType : Option Text
  platformId : Option Text
  agentGroupId : Option Text
  deriving DecidableEq, Repr

/-- A tool's row between the check and the insert, with the gate the check has read. -/
structure PendingWrite where
  row : SentRow
  read : Option RoutingGate
  deriving DecidableEq, Repr

/-- The runner: its loop, the tables it reads and writes, and the tools' server. `installed` is the gate
that was set and not cleared since, and `inherited` that a container before this one set it. -/
structure AgentRunner where
  loop : Loop
  turnRouting : RoutingContext
  gateRow : Option Text
  messagesOut : List NumberedRow
  destinations : List DestinationEntry
  sessionRouting : Option Surface
  pending : List PendingWrite
  installed : Option RoutingGate
  inherited : Bool

variable (w : AgentRunner)

/-- The gate that a process of the container reads. -/
def AgentRunner.gate : Option RoutingGate := w.gateRow.bind getRoutingGate

def AgentRunner.getSessionRouting : Surface := w.sessionRouting.getD nowhere

/-- `===` of what is `null` on one side and `undefined` on the other when it is missing. -/
def sameText (a b : Option Text) : Prop := a ≠ none ∧ a = b

instance (a b : Option Text) : Decidable (sameText a b) := inferInstanceAs (Decidable (_ ∧ _))

/-! ### Destinations -/

def AgentRunner.findByName (name : String) : Option DestinationEntry := w.destinations.find? (·.name = name)

def AgentRunner.findByRouting (channelType platformId : Option Text) : Option DestinationEntry :=
  if falsy channelType ∨ falsy platformId then none
  else if channelType = some agentChannel then
    w.destinations.find? fun d => d.type = .agent ∧ d.agentGroupId = platformId
  else w.destinations.find? fun d => d.type = .channel ∧ d.channelType = channelType ∧ d.platformId = platformId

/-- A named destination; in the session's own channel, its thread. -/
def AgentRunner.resolveNamed (name : String) : Option Surface :=
  (w.findByName name).map fun dest => match dest.type with
    | .channel =>
      let session := w.getSessionRouting
      let sameChannel := sameText session.channelType dest.channelType ∧ sameText session.platformId dest.platformId
      ⟨dest.channelType, dest.platformId, if sameChannel then session.threadId else none⟩
    | .agent => ⟨some agentChannel, dest.agentGroupId, none⟩

/-- `resolveRouting`; `none` for its errors. -/
def AgentRunner.resolveRouting (toName : String) : Option Surface :=
  if toName = "" then
    let session := w.getSessionRouting
    if ¬falsy session.channelType ∧ ¬falsy session.platformId then some session
    else match w.destinations with
      | [only] => w.resolveNamed only.name
      | _ => none
  else w.resolveNamed toName

/-- The message with the number, in both tables. -/
def AgentRunner.getRoutingBySeq (seq : ℕ) : Option Surface :=
  match w.loop.inbound.find? (·.seq = seq) with
  | some m => some m.surface
  | none => (w.messagesOut.find? (·.seq = seq)).map (·.surface)

/-- `getMessageIdBySeq` gives an id: an inbound row's own, or one of an outbound row. -/
def AgentRunner.hasMessageId (seq : ℕ) : Bool :=
  match w.loop.inbound.find? (·.seq = seq) with
  | some m => m.id ≠ ""
  | none => (w.messagesOut.find? (·.seq = seq)).isSome

/-! ### The tools -/

/-- A call with its arguments. `found` is that the file is there, `due` the time that was read from
`processAfter`, an option `none` one that is `null`. -/
inductive McpToolCall where
  | sendMessage (toName text : String)
  | sendFile (toName path text : String) (found : Bool)
  | editMessage (messageId : ℕ) (text : String)
  | addReaction (messageId : ℕ) (emoji : String)
  | askUserQuestion (title question : String) (options : List (Option String))
  | sendCard (card : Bool)
  | sendRosterDm (slot text : String)
  | inviteToRoster (member slotLabel : String)
  | scheduleTask (prompt processAfter : String) (due : Option ℕ)
  | updateTask (taskId : String) (prompt : Option String) (processAfter : Option (Option ℕ))
      (recurrence script : Option String)
  /-- The tools that leave a system row for the host and send nothing. -/
  | record (action : SystemAction)
  deriving DecidableEq, Repr

/-- A row to the surface, when the gate allows it. -/
def AgentRunner.sendTo (kind : OutboundKind) (text : Option String) (surface : Surface) : Option SentRow :=
  match enforceRoutingDestination w.gate surface.channelType surface.platformId surface.threadId with
  | .allowed _ => some ⟨kind, none, surface, text⟩
  | .refused _ _ => none

/-- A row whose recipient is the host's business, when the gate allows such. -/
def AgentRunner.sendOpaque (row : SentRow) : Option SentRow :=
  match enforceRoutingOpaqueOutbound w.gate with
  | .allowed _ => some row
  | .refused _ _ => none

/-- `edit_message` and `add_reaction`: a row to where the message with the number went. -/
def AgentRunner.sendToMessage (messageId : ℕ) (text : Option String) : Option SentRow :=
  if messageId = 0 ∨ w.hasMessageId messageId = false then none
  else (w.getRoutingBySeq messageId).bind fun surface =>
    if falsy surface.channelType ∨ falsy surface.platformId then none else w.sendTo .chat text surface

/-- The row a tool is about to insert; `none` when it returns an error. -/
def AgentRunner.toolRow : McpToolCall → Option SentRow
  | .sendMessage toName text => if text = "" then none else (w.resolveRouting toName).bind (w.sendTo .chat (some text))
  | .sendFile toName path text found =>
    if path = "" then none
    else (w.resolveRouting toName).bind fun surface =>
      (w.sendTo .chat (some text) surface).filter fun _ => found
  | .editMessage messageId text => if text = "" then none else w.sendToMessage messageId (some text)
  | .addReaction messageId emoji => if emoji = "" then none else w.sendToMessage messageId none
  | .askUserQuestion title question options =>
    if title = "" ∨ question = "" ∨ options = [] ∨ none ∈ options then none
    else w.sendTo .chatSdk (some question) w.getSessionRouting
  | .sendCard card => if card then w.sendTo .chatSdk none w.getSessionRouting else none
  | .sendRosterDm slot text =>
    if trim slot = "" ∨ trim text = "" then none else w.sendOpaque ⟨.roster, none, nowhere, some text⟩
  | .inviteToRoster member slotLabel =>
    if trim member = "" ∨ trim slotLabel = "" then none
    else w.sendOpaque (SystemAction.rosterInvite.row nowhere)
  | .scheduleTask prompt processAfter due =>
    if prompt = "" ∨ processAfter = "" then none
    else (w.sendOpaque (SystemAction.scheduleTask.row w.getSessionRouting)).filter fun _ => due.isSome
  | .updateTask taskId prompt processAfter recurrence script =>
    if taskId = "" then none
    else (w.sendOpaque (SystemAction.updateTask.row nowhere)).filter fun _ =>
      processAfter ≠ some none && (prompt.isSome || processAfter.isSome || recurrence.isSome || script.isSome)
  | .record action =>
    if action ∈ SystemAction.opaque ∨ action = .classifyIntent ∧ w.gate ≠ none then none
    else some (action.row nowhere)

/-! ### The dispatcher -/

/-- The thread of the newest inbound row from there; for an agent, that of the turn's own row first. -/
def AgentRunner.resolveDestinationThread (channelType platformId : Option Text) : Option Text :=
  let isFrom := fun m : InboundRow =>
    sameText channelType m.surface.channelType ∧ sameText platformId m.surface.platformId
  let anchorRow :=
    if channelType = some agentChannel then
      w.loop.inbound.find? fun m => some m.id = w.turnRouting.inReplyTo ∧ isFrom m
    else none
  let newest := (w.loop.inbound.filter fun m => isFrom m).argmax (·.seq)
  (anchorRow.or newest).bind (·.surface.threadId)

def DestinationEntry.sendChannel (dest : DestinationEntry) : Option Text :=
  if dest.type = .channel then dest.channelType else some agentChannel

def DestinationEntry.sendPlatform (dest : DestinationEntry) : Option Text :=
  if dest.type = .channel then dest.platformId else dest.agentGroupId

/-- The destination is the chat the turn came from. -/
def AgentRunner.isOriginChannel (dest : DestinationEntry) : Prop :=
  dest.type = .channel ∧ sameText dest.sendChannel w.turnRouting.channelType ∧
    sameText dest.sendPlatform w.turnRouting.platformId

instance (dest : DestinationEntry) : Decidable (w.isOriginChannel dest) := inferInstanceAs (Decidable (_ ∧ _ ∧ _))

def AgentRunner.sendToDestination (dest : DestinationEntry) (body : String) : Option SentRow :=
  let candidateThreadId := if w.isOriginChannel dest then w.turnRouting.threadId else none
  match enforceRoutingDestination w.gate dest.sendChannel dest.sendPlatform candidateThreadId with
  | .refused _ _ => none
  | .allowed decisionId =>
    let threadId :=
      if ¬falsy decisionId ∧ w.isOriginChannel dest then w.turnRouting.threadId
      else w.resolveDestinationThread dest.sendChannel dest.sendPlatform
    some ⟨.chat, none, ⟨dest.sendChannel, dest.sendPlatform, threadId⟩, some body⟩

/-- The blocks whose destination is known. -/
def AgentRunner.blockSends (cleaned : String) : List (DestinationEntry × String) :=
  (messageBlocks cleaned).filterMap fun b => (w.findByName b.1).map (·, b.2)

/-- A text that goes out as it is: to where the turn came from, or to the only destination. -/
def AgentRunner.bareSend (bare : String) : Option (DestinationEntry × String) :=
  let only := match w.destinations with
    | [only] => some only
    | _ => none
  if bare = "" then none
  else ((w.findByRouting w.turnRouting.channelType w.turnRouting.platformId).or only).map (·, bare)

def AgentRunner.dispatchResultText (text : String) : List SentRow :=
  let cleaned := normalizeMessageBlocks text
  let sends := w.blockSends cleaned
  (if sends = [] then (w.bareSend (trim cleaned)).toList else sends).filterMap fun s => w.sendToDestination s.1 s.2

/-- An answer of the loop itself to where the turn came from. -/
def AgentRunner.reply : SentRow := ⟨.chat, none, w.turnRouting.toSurface, none⟩

/-! ### Under a gate -/

/-- The row obeys the gate: a message goes where the gate permits, and nothing is handed to the host to
send, or to run later. -/
structure Obeys (gate : RoutingGate) (row : SentRow) : Prop where
  permitted : row.kind = .chat ∨ row.kind = .chatSdk →
    gate.Permits row.surface.channelType row.surface.platformId row.surface.threadId
  visible : row.kind ≠ .roster
  present : ∀ action ∈ SystemAction.opaque, row.action ≠ some action

theorem obeys_message {gate : RoutingGate} {kind : OutboundKind} {surface : Surface} {text : Option String}
    (h : gate.Permits surface.channelType surface.platformId surface.threadId) (hkind : kind ≠ .roster) :
    Obeys gate ⟨kind, none, surface, text⟩ :=
  ⟨fun _ => h, hkind, fun _ _ => nofun⟩

theorem obeys_system {gate : RoutingGate} {action : SystemAction} {surface : Surface}
    (h : action ∉ SystemAction.opaque) : Obeys gate (action.row surface) :=
  ⟨fun hk => hk.elim nofun nofun, nofun, fun _ ha he => h (Option.some.inj he ▸ ha)⟩

section Gated

variable {w : AgentRunner} {gate : RoutingGate} {row : SentRow} (hgate : w.gate = some gate)
include hgate

theorem sendTo_obeys {kind : OutboundKind} {text : Option String} {surface : Surface}
    (h : w.sendTo kind text surface = some row) (hkind : kind ≠ .roster) : Obeys gate row := by
  rw [AgentRunner.sendTo, hgate] at h
  split at h
  · rename_i decisionId hallowed
    obtain rfl := Option.some.inj h
    exact obeys_message (permits_of_allowed hallowed).1 hkind
  · cases h

theorem sendOpaque_refused (row : SentRow) : w.sendOpaque row = none := by
  rw [AgentRunner.sendOpaque, hgate]
  rfl

theorem sendToMessage_obeys {messageId : ℕ} {text : Option String}
    (h : w.sendToMessage messageId text = some row) : Obeys gate row := by
  unfold AgentRunner.sendToMessage at h
  split at h
  · cases h
  · obtain ⟨surface, -, h⟩ := Option.bind_eq_some_iff.mp h
    split at h
    · cases h
    · exact sendTo_obeys hgate h nofun

/-- **No tool escapes.** Whatever the arguments, the row of a tool obeys the gate it has read. -/
theorem toolRow_obeys {call : McpToolCall} (h : w.toolRow call = some row) : Obeys gate row := by
  cases call with
  | sendMessage toName text =>
    simp only [AgentRunner.toolRow] at h
    split at h
    · cases h
    · obtain ⟨surface, -, h⟩ := Option.bind_eq_some_iff.mp h
      exact sendTo_obeys hgate h nofun
  | sendFile toName path text found =>
    simp only [AgentRunner.toolRow] at h
    split at h
    · cases h
    · obtain ⟨surface, -, h⟩ := Option.bind_eq_some_iff.mp h
      exact sendTo_obeys hgate (Option.filter_eq_some_iff.mp h).1 nofun
  | editMessage messageId text =>
    simp only [AgentRunner.toolRow] at h
    split at h
    · cases h
    · exact sendToMessage_obeys hgate h
  | addReaction messageId emoji =>
    simp only [AgentRunner.toolRow] at h
    split at h
    · cases h
    · exact sendToMessage_obeys hgate h
  | askUserQuestion title question options =>
    simp only [AgentRunner.toolRow] at h
    split at h
    · cases h
    · exact sendTo_obeys hgate h nofun
  | sendCard card =>
    simp only [AgentRunner.toolRow] at h
    split at h
    · exact sendTo_obeys hgate h nofun
    · cases h
  | sendRosterDm slot text =>
    simp only [AgentRunner.toolRow, sendOpaque_refused hgate, ite_self] at h
    cases h
  | inviteToRoster member slotLabel =>
    simp only [AgentRunner.toolRow, sendOpaque_refused hgate, ite_self] at h
    cases h
  | scheduleTask prompt processAfter due =>
    simp only [AgentRunner.toolRow, sendOpaque_refused hgate, Option.filter_none, ite_self] at h
    cases h
  | updateTask taskId prompt processAfter recurrence script =>
    simp only [AgentRunner.toolRow, sendOpaque_refused hgate, Option.filter_none, ite_self] at h
    cases h
  | record action =>
    simp only [AgentRunner.toolRow] at h
    split at h
    · cases h
    · rename_i hrecord
      obtain rfl := Option.some.inj h
      exact obeys_system fun ha => hrecord (.inl ha)

end Gated

/-! ### Under the gate of the turn -/

/-- The gate is of the turn that runs: its origin is where the turn came from. -/
structure RoutingGate.OfTurn (gate : RoutingGate) (turnRouting : RoutingContext) : Prop where
  channel : gate.originChannelType = turnRouting.channelType
  platform : gate.originPlatformId = turnRouting.platformId
  thread : gate.originThread = turnRouting.threadId
  human : turnRouting.channelType ≠ some agentChannel
  decided : gate.decisionId ≠ []

section OfTurn

variable {w : AgentRunner} {gate : RoutingGate} {row : SentRow} (hgate : w.gate = some gate)
  (hturn : gate.OfTurn w.turnRouting)
include hgate hturn

omit hgate in
theorem reply_obeys : Obeys gate w.reply := by
  have hpermits := permits_origin (hturn.channel ▸ hturn.human)
  rw [hturn.channel, hturn.platform, hturn.thread] at hpermits
  exact obeys_message hpermits nofun

/-- A block goes to the thread that was checked. -/
theorem sendToDestination_obeys {dest : DestinationEntry} {body : String}
    (h : w.sendToDestination dest body = some row) : Obeys gate row := by
  simp only [AgentRunner.sendToDestination, hgate] at h
  split at h
  · cases h
  · rename_i decisionId hallowed
    obtain rfl := Option.some.inj h
    obtain ⟨hpermits, rfl⟩ := permits_of_allowed hallowed
    refine obeys_message ?_ nofun
    by_cases hagent : dest.sendChannel = some agentChannel
    · rw [RoutingGate.Permits, if_pos hagent] at hpermits ⊢
      exact hpermits
    · obtain ⟨hchannel, hplatform⟩ := origin_of_allowed hagent hallowed
      have htype : dest.type = .channel := by
        by_contra hne
        exact hagent (if_neg hne)
      have horigin : w.isOriginChannel dest :=
        ⟨htype, ⟨hchannel.1, hchannel.2.trans hturn.channel⟩, hplatform.1, hplatform.2.trans hturn.platform⟩
      have hdecision : ¬falsy (some gate.decisionId) = true := by
        simpa [falsy] using hturn.decided
      rw [if_pos horigin] at hpermits
      rw [if_pos ⟨hdecision, horigin⟩]
      exact hpermits

/-- **No text escapes.** Whatever the model has said, every row of it obeys the gate. -/
theorem dispatchResultText_obeys {text : String} (h : row ∈ w.dispatchResultText text) : Obeys gate row := by
  obtain ⟨s, -, hs⟩ := List.mem_filterMap.mp h
  exact sendToDestination_obeys hgate hturn hs

end OfTurn

end AgentDesk
