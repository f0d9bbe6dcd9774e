/-
# What the runner reads and claims

Inside the container, `container/agent-runner/src/db/messages-in.ts` reads the
host's `messages_in` and claims rows in its own `processing_ack`; and
`request-identity.ts` says whose turn a batch of rows is. A row is pending
until it is in `processing_ack`, whatever its status there: a claim withholds
it, releasing the claim gives it back.

A batch is cut twice. `splitBatchByTrigger` keeps the rows up to the second
trigger, so that each trigger gets a turn of its own; `splitBatchByTurn` keeps
the rows of the anchor's user and surface.

Key definitions: `InboundRow`, `AckRow`, `getPendingMessages`, `markProcessing`,
`releaseProcessing`, `markCompleted`, `rowIdentity`, `resolveBatchIdentity`,
`splitBatchByTurn`, `splitBatchByTrigger`.
-/
import Mathlib.Data.List.Sort
import AgentDesk.Inbound
import AgentDesk.Table

namespace AgentDesk

open Js

/-! ### Rows and claims -/

/-- A row of `messages_in`, as the runner reads it. `raw` is the content column, `content` what it
parses to; `pending` is `status = 'pending'`; `processAfter` is in seconds. -/
structure InboundRow where
  id : String
  seq : ℕ
  kind : MessageKind
  pending : Bool
  processAfter : Option ℕ
  trigger : Bool
  platformId : Option String
  channelType : Option String
  threadId : Option String
  raw : String
  content : Content
  originUserId : Option String

inductive AckStatus where
  | processing | completed | failed
  deriving DecidableEq, Repr

/-- A row of `processing_ack`; `statusChanged` is in seconds. -/
structure AckRow where
  messageId : String
  status : AckStatus
  statusChanged : ℕ
  deriving DecidableEq, Repr

/-- The latest `limit` pending rows that are due, less those in `processing_ack`, oldest first. -/
def getPendingMessages (inbound : List InboundRow) (acks : List AckRow) (limit now : ℕ) : List InboundRow :=
  let due := inbound.filter fun r => r.pending && r.processAfter.all (· ≤ now)
  let latest := (due.insertionSort fun a b => b.seq ≤ a.seq).take limit
  (latest.filter fun r => !acks.any fun a => a.messageId = r.id).reverse

/-- `INSERT OR REPLACE` of one status for each id. -/
def markAll (status : AckStatus) (now : ℕ) (acks : List AckRow) (ids : List String) : List AckRow :=
  ids.foldl (fun t id => Table.upsert (·.messageId) t ⟨id, status, now⟩ fun _ => ⟨id, status, now⟩) acks

def markProcessing (now : ℕ) (acks : List AckRow) (ids : List String) : List AckRow :=
  markAll .processing now acks ids

def markCompleted (now : ℕ) (acks : List AckRow) (ids : List String) : List AckRow :=
  markAll .completed now acks ids

def releaseProcessing (acks : List AckRow) (ids : List String) : List AckRow :=
  acks.filter fun a => a.messageId ∉ ids

/-- A new container takes over the rows a crashed one had claimed. -/
def clearStaleProcessingAcks (acks : List AckRow) : List AckRow :=
  acks.filter fun a => a.status ≠ .processing

/-! ### Whose turn it is -/

inductive IdentitySource where
  | session | agentAsserted
  deriving DecidableEq, Repr

structure RequestIdentity where
  userId : Option String
  channelType : Option String
  platformId : Option String
  threadId : Option String
  source : IdentitySource
  deriving DecidableEq, Repr

/-- A property of the parsed content; content that does not parse, or parses to `null`, has none. -/
def InboundRow.field (row : InboundRow) (key : String) : Option Json :=
  row.content.bind fun j => (j.get key).toOption.join

/-- A host notice: `sender` is `'system'`. -/
def isSystemSenderRow (row : InboundRow) : Bool := Json.asString (row.field "sender") = some "system"

/-- The sender of a row. An agent row's content is agent output: it has only the origin column. -/
def rowIdentity (row : InboundRow) : RequestIdentity :=
  let origin := trim (row.originUserId.getD "")
  if origin ≠ "" then
    { userId := some origin, channelType := row.channelType, platformId := row.platformId
      threadId := row.threadId, source := .session }
  else
    let rawSenderId := trim ((Json.asString (row.field "senderId")).getD "")
    let channel := row.channelType.getD ""
    let userId :=
      if row.channelType = some "agent" || rawSenderId = "" then none
      else if rawSenderId.toList.contains ':' || channel = "" then some rawSenderId
      else some s!"{channel}:{rawSenderId}"
    { userId, channelType := row.channelType, platformId := row.platformId, threadId := row.threadId
      source := if userId.isSome then .session else .agentAsserted }

def noIdentity : RequestIdentity := ⟨none, none, none, none, .agentAsserted⟩

/-- The identity of the first user trigger, else of the first row. -/
def resolveBatchIdentity (batch : List InboundRow) : RequestIdentity :=
  match (batch.find? fun m => m.trigger && m.kind.isChat && !isSystemSenderRow m).or batch.head? with
  | none => noIdentity
  | some trigger => if isSystemSenderRow trigger then noIdentity else rowIdentity trigger

/-- Two identities are of one user on one surface. -/
def sameSurface (a b : RequestIdentity) : Bool :=
  a.userId = b.userId && a.channelType.getD "" = b.channelType.getD "" &&
    a.platformId.getD "" = b.platformId.getD "" && a.threadId = b.threadId

/-- Does the row ride with the anchor? Only two trusted identities can disagree. -/
def ridesWith (anchor : RequestIdentity) (row : InboundRow) : Bool :=
  !row.kind.isChat || anchor.source ≠ .session || (rowIdentity row).source ≠ .session ||
    sameSurface anchor (rowIdentity row)

/-- The rows of the anchor's turn, and the others. -/
def splitBatchByTurn (batch : List InboundRow) : List InboundRow × List InboundRow :=
  let anchor := resolveBatchIdentity batch
  (batch.filter (ridesWith anchor), batch.filter fun row => !ridesWith anchor row)

/-- The rows before the second trigger, and those from it on. -/
def splitBatchByTrigger (batch : List InboundRow) : List InboundRow × List InboundRow :=
  go false batch
where
  go (foundTrigger : Bool) : List InboundRow → List InboundRow × List InboundRow
    | [] => ([], [])
    | row :: rows =>
      if row.trigger && foundTrigger then ([], row :: rows)
      else
        let split := go (foundTrigger || row.trigger) rows
        (row :: split.1, split.2)

/-- Must a batch of `incoming`'s wait for a turn of its own? -/
def shouldEndForTurnChange (current : Option RequestIdentity) (incoming : RequestIdentity) : Bool :=
  match current with
  | none => false
  | some current =>
    current.source = .session && truthy current.userId && incoming.source = .session &&
      truthy incoming.userId && !sameSurface current incoming

end AgentDesk
