/-
# The sessions' inbound databases

Every session has an `inbound.db` only the host writes; its `messages_in`
table is what the agent reads. The model keeps all of them in one list, each
row with the session it belongs to, beside the central `sessions` table: a
`World`. `writeSessionMessage` (`src/session-manager.ts`) is the one function
that adds a row, through `insertMessage` (`src/db/session-db.ts`).

A `World` also has its history, which no code reads: every session row ever
inserted (`born`) and every inbound row ever written (`log`). Sessions are
archived and deleted; what they wrote stays written.

The columns of `messages_in` that only the scheduler and the retry machine
read (status, process_after, recurrence, series_id, tries) are left out here.

Key theorems: `World.resolveSession_cases`, `World.writeSessionMessage_cases`,
`mem_collectLegitimateOrigins`, `resolveOriginUserId_spec`.
-/
import AgentDesk.Sessions

namespace AgentDesk

open Js

/-- The `kind` column. -/
inductive MessageKind where
  | chat | chatSdk | task | webhook | system
  | other (text : String)
  deriving DecidableEq, Repr

/-- `kind IN ('chat', 'chat-sdk')`. -/
def MessageKind.isChat (k : MessageKind) : Bool := k = .chat || k = .chatSdk

/-- A row of a session's `messages_in`. -/
structure MessageIn where
  sessionId : String
  id : String
  seq : ℕ
  kind : MessageKind
  platformId : Option String
  channelType : Option String
  threadId : Option String
  content : Content
  trigger : Bool
  sourceSessionId : Option String
  originUserId : Option String
  conversationThreadId : Option String

/-- The session table, the inbound databases, and their history. -/
structure World where
  sessions : List Session
  inbound : List MessageIn
  born : List Session
  log : List MessageIn

/-- A fresh installation. -/
def World.empty : World := ⟨[], [], [], []⟩

theorem World.empty_sessionKeys : (World.empty.sessions.map (·.id)).Nodup := List.nodup_nil

/-- One session's `messages_in`. -/
def World.messagesIn (w : World) (sessionId : String) : List MessageIn :=
  w.inbound.filter fun r => r.sessionId = sessionId

/-! ### Reading `messages_in` -/

def getInboundSourceSessionId (rows : List MessageIn) (messageId : String) : Option String :=
  (rows.find? fun r => r.id = messageId).bind (·.sourceSessionId)

def getMostRecentPeerSourceSessionId (rows : List MessageIn) (peerAgentGroupId : String) : Option String :=
  ((rows.filter fun r => r.channelType = some "agent" && r.platformId = some peerAgentGroupId &&
    r.sourceSessionId.isSome).argmax (·.seq)).bind (·.sourceSessionId)

def latestConversationThreadId (rows : List MessageIn) : Option String :=
  ((rows.filter fun r => r.conversationThreadId.isSome).argmax (·.seq)).bind (·.conversationThreadId)

/-- `<channel>:<id>` of a chat row's sender (`origin-user.ts`): the column an
earlier hop wrote, else the content's `senderId`, which an agent row does not
get to use. -/
def namespacedOriginOf (row : MessageIn) : Option String :=
  if truthy row.originUserId then row.originUserId
  -- an agent row's content is container output
  else if row.channelType = some "agent" then none
  else match row.content with
    | none => none
    | some parsed => match parsed.get "sender", parsed.get "senderId" with
      | .ok sender, .ok senderId =>
        if Json.asString sender = some "system" then none
        else
          let raw := trim ((Json.asString senderId).getD "")
          if raw = "" then none
          else if raw.toList.contains ':' || !truthy row.channelType then some raw
          else
            let channel := row.channelType.getD ""
            some s!"{channel}:{raw}"
      -- `JSON.parse('null')`: reading a property throws, and the catch returns null
      | _, _ => none

/-- The sender of the most recent chat row. -/
def resolveOriginUserId (rows : List MessageIn) : Option String :=
  ((rows.filter fun r => r.kind.isChat).argmax (·.seq)).bind namespacedOriginOf

/-- Every identity that passed through the session. -/
def collectLegitimateOrigins (rows : List MessageIn) : List String :=
  ((rows.filter fun r => r.kind.isChat).filterMap namespacedOriginOf).filter (· ≠ "")

theorem mem_collectLegitimateOrigins {rows : List MessageIn} {u : String}
    (h : u ∈ collectLegitimateOrigins rows) :
    ∃ r ∈ rows, r.kind.isChat = true ∧ namespacedOriginOf r = some u := by
  unfold collectLegitimateOrigins at h
  obtain ⟨h, -⟩ := List.mem_filter.mp h
  obtain ⟨r, hr, hu⟩ := List.mem_filterMap.mp h
  obtain ⟨hm, hk⟩ := List.mem_filter.mp hr
  exact ⟨r, hm, by simpa using hk, hu⟩

theorem resolveOriginUserId_spec {rows : List MessageIn} {u : String}
    (h : resolveOriginUserId rows = some u) :
    ∃ r ∈ rows, r.kind.isChat = true ∧ namespacedOriginOf r = some u := by
  unfold resolveOriginUserId at h
  obtain ⟨r, hr, hu⟩ := Option.bind_eq_some_iff.mp h
  obtain ⟨hm, hk⟩ := List.mem_filter.mp (List.argmax_mem hr)
  exact ⟨r, hm, by simpa using hk, hu⟩

theorem namespacedOriginOf_cases {r : MessageIn} {u : String} (h : namespacedOriginOf r = some u) :
    r.originUserId = some u ∨ truthy r.originUserId = false := by
  by_cases ht : truthy r.originUserId = true
  · left
    unfold namespacedOriginOf at h
    rwa [if_pos ht] at h
  · exact .inr (by simpa using ht)

/-! ### Writing `messages_in` -/

/-- Host rows have even numbers: the next one after the table's largest. -/
def nextEvenSeq (rows : List MessageIn) : ℕ :=
  let maxSeq := (rows.map (·.seq)).foldr max 0
  if maxSeq < 2 then 2 else maxSeq + 2 - maxSeq % 2

/-- What a caller gives `writeSessionMessage`. -/
structure NewMessage where
  id : String
  kind : MessageKind
  platformId : Option String
  channelType : Option String
  threadId : Option String
  content : Content
  trigger : Bool
  sourceSessionId : Option String
  originUserId : Option String
  conversationThreadId : Option String

/-- The file-system side of a call: copying a delegation's files, moving inline
attachments to the inbox, and opening the session's database for the insert.
Each may throw. -/
structure Io where
  forwardAttachedFiles : List String → Except String (List Json)
  extractAttachmentFiles : Content → Except String Content
  openInboundDb : Except String Unit

/-- The inserted row. -/
def NewMessage.row (m : NewMessage) (sessionId : String) (seq : ℕ) (content : Content) : MessageIn :=
  { sessionId, id := m.id, seq, kind := m.kind, platformId := m.platformId, channelType := m.channelType
    threadId := m.threadId, content, trigger := m.trigger, sourceSessionId := m.sourceSessionId
    originUserId := m.originUserId, conversationThreadId := m.conversationThreadId }

/-- Add a row to a session's `messages_in`; the id is its primary key. -/
def World.writeSessionMessage (w : World) (io : Io) (sessionId : String) (m : NewMessage) :
    World × Except String MessageIn :=
  match io.extractAttachmentFiles m.content, io.openInboundDb with
  | .error e, _ => (w, .error e)
  | .ok _, .error e => (w, .error e)
  | .ok content, .ok _ =>
    if (w.messagesIn sessionId).any fun r => r.id = m.id then
      (w, .error "UNIQUE constraint failed: messages_in.id")
    else
      let row := m.row sessionId (nextEvenSeq (w.messagesIn sessionId)) content
      ({ w with inbound := w.inbound ++ [row], log := w.log ++ [row] }, .ok row)

theorem World.writeSessionMessage_cases {w w' : World} {io : Io} {sid : String} {m : NewMessage}
    {r : Except String MessageIn} (h : w.writeSessionMessage io sid m = (w', r)) :
    (w' = w ∧ ∃ e, r = .error e) ∨
    (∃ seq content, r = .ok (m.row sid seq content) ∧
      w' = { w with inbound := w.inbound ++ [m.row sid seq content],
                    log := w.log ++ [m.row sid seq content] }) := by
  unfold World.writeSessionMessage at h
  split at h
  · obtain ⟨rfl, rfl⟩ := Prod.mk.inj h
    exact .inl ⟨rfl, _, rfl⟩
  · obtain ⟨rfl, rfl⟩ := Prod.mk.inj h
    exact .inl ⟨rfl, _, rfl⟩
  · rename_i content _ _ _
    split at h
    · obtain ⟨rfl, rfl⟩ := Prod.mk.inj h
      exact .inl ⟨rfl, _, rfl⟩
    · obtain ⟨rfl, rfl⟩ := Prod.mk.inj h
      exact .inr ⟨_, content, rfl, rfl⟩

/-! ### The table with its history -/

/-- The world with the table a call of `resolveSession` left: a row it appended is born. -/
def World.withSessions (w : World) (db : List Session) : World :=
  { w with sessions := db, born := w.born ++ db.drop w.sessions.length }

@[simp] theorem World.withSessions_self (w : World) : w.withSessions w.sessions = w := by
  simp [World.withSessions]

@[simp] theorem World.withSessions_append (w : World) (s : Session) :
    w.withSessions (w.sessions ++ [s]) =
      { w with sessions := w.sessions ++ [s], born := w.born ++ [s] } := by
  simp [World.withSessions]

@[simp] theorem World.withSessions_inbound (w : World) (db : List Session) :
    (w.withSessions db).inbound = w.inbound := rfl

@[simp] theorem World.withSessions_log (w : World) (db : List Session) :
    (w.withSessions db).log = w.log := rfl

/-- `generateId` puts the millisecond and a random suffix in an id, so that no
id is drawn twice. The primary key rejects an id still in the table; only an id
of a session deleted since could come back unnoticed. -/
def World.redrawn (w : World) (d : Draw) : Bool :=
  w.born.any (fun b => b.id = generateId d.now d.rand) &&
    !w.sessions.any fun s => s.id = generateId d.now d.rand

end AgentDesk
