/-
# Feishu events are marked before they are handled

Feishu delivers an event again when its handler failed. `handleMessageReceive` and `handleCardAction`
(`src/channels/feishu.ts`) write the event's key to `inbound_dedup` first and then do what it asks for:
revoke the grants of a participant who leaves, record a consent, route the message, or hand an answer to
the response handlers. A redelivery is short-circuited by its key. Only the routing has a ledger behind it
(`inbound_ingress`), so that what fails elsewhere after the mark is not tried again.

Which statement, hook or handler throws is the call's `FeishuIo`. What `primitives.ts` reads out of a text
is the configuration's.

* `redeliverable_iff`: whatever comes in between, a redelivery is handled exactly when the key is not in
  the table.
* `event_kept_iff`: an event is kept (its effect took place, or the ledger has its row, or a redelivery is
  handled) exactly when the mark fails or what follows it gets as far as its last write.
* `leave_swallowed`: a participant's "leave" that meets a locked database.
-/
import Mathlib.Data.List.TakeWhile
import AgentDesk.ApprovalAuthority
import AgentDesk.Feishu
import AgentDesk.PersistBeforeRoute
import AgentDesk.RosterInvites
import AgentDesk.RosterRevocation
import AgentDesk.Trans

namespace AgentDesk

open Js

/-! ### The table of seen events -/

/-- A row of `inbound_dedup`. -/
structure DedupRow where
  channel : String
  eventId : String
  seenAt : ℕ
  deriving DecidableEq, Repr

def seen (rows : List DedupRow) (channel eventId : String) : Bool :=
  rows.any fun row => row.channel = channel && row.eventId = trim eventId

/-- `INSERT OR IGNORE`: is the event new? -/
def markInboundSeen (rows : List DedupRow) (channel eventId : String) (now : ℕ) (insert : Except String Unit) :
    List DedupRow × Except String Bool :=
  if trim eventId = "" then (rows, .ok true)
  else match insert with
    | .error e => (rows, .error e)
    | .ok _ =>
      if seen rows channel eventId then (rows, .ok false)
      else (rows ++ [⟨channel, trim eventId, now⟩], .ok true)

def pruneInboundDedup (rows : List DedupRow) (olderThanMs now : ℕ) : List DedupRow :=
  rows.filter fun row => !((row.seenAt : ℤ) < (now : ℤ) - olderThanMs)

/-! ### What an event asks for -/

/-- The event of `im.message.receive_v1`; `timestamp` is what `timestampToIso(create_time)` throws. -/
structure FeishuMessage where
  openId : Option Json
  userId : Option Json
  unionId : Option Json
  messageId : String
  chatId : String
  chatType : String
  messageType : String
  content : String
  rootId : Option String
  parentId : Option String
  threadId : Option String
  mentions : List Json
  timestamp : Except String Unit

/-- The event of `card.action.trigger`. -/
structure FeishuCardAction where
  token : String
  openId : Option Json
  userId : Option Json
  unionId : Option Json
  value : List (String × Json)
  chatId : Option Json

inductive FeishuEvent where
  | message (m : FeishuMessage)
  | card (c : FeishuCardAction)

/-- The adapter's configuration, and what `primitives.ts` and the regular expression of a plain opt-out
make of a message. -/
structure FeishuConfig where
  botOpenId : Option String
  mentionsBot : FeishuMessage → Bool
  parseTextContent : String → String → String
  parseJsonObject : String → Option (List (String × Json))
  plainOptOut : String → Bool
  stringify : Json → String
  parseSqliteUtc : String → Option ℤ

/-- The statements of a consent. -/
structure ConsentIo where
  readGroup : Except String Unit
  createGroup : Except String Unit
  insert : Except String Unit
  readSlot : Except String Unit
  audit : Except String Unit

/-- The outside of a handling: the clock, a drawn id, which statements throw (the `i`-th `UPDATE` of an
opt-out and its audit row), the call of `routeInbound`, and the tables as each response handler finds
them. -/
structure FeishuIo where
  now : ℕ
  id : String
  mark : Except String Unit
  list : Except String Unit
  update : ℕ → Except String Unit
  auditRevoke : ℕ → Except String Unit
  consent : ConsentIo
  route : RouteEnv
  ingress : IngressCall
  desks : List ResponseDesk

/-- What is to be done after the mark. -/
inductive FeishuTask where
  | ignore
  | throws (error : String)
  | optOut (openId : String) (scopeId : Option String)
  | consent (a : InsertDmGrantArgs)
  | route (event : InboundEvent)
  | respond (payload : ResponsePayload)

/-- The scope of an opt-out, `none` inside for all of them. -/
def parseRosterOptOut (value : Option (List (String × Json))) (plain : Bool) : Option (Option String) :=
  match value with
  | some fields =>
    if Json.asString (fieldOf fields "kind") = some "roster.optout" then some (readString (fieldOf fields "scopeId"))
    else if plain then some none else none
  | none => if plain then some none else none

/-- The arguments with which `mintGrant` calls `insertDmGrant`. -/
def mintArgs (cfg : FeishuConfig) (io : FeishuIo) (optIn : RosterOptInPayload) (target : ConsentTarget)
    (consentSource inboundMsgId : String) (originPlatformId : Option String) : InsertDmGrantArgs :=
  { id := io.id, scopeId := optIn.scopeId, agentGroupId := optIn.agentGroupId, slotLabel := optIn.slotLabel
    participantOpenId := target.participantOpenId, dmPlatformId := target.dmPlatformId
    channelType := some target.channelType, consentSource, consentInboundMsgId := inboundMsgId
    consentOriginUserId := none, originPlatformId, maxSends := optIn.maxSends.map fun n => (n : ℚ)
    expiresAt := optIn.expiresAt.map fun text => ⟨text, cfg.parseSqliteUtc text⟩, now := io.now }

def captureP2pIngressConsent (cfg : FeishuConfig) (io : FeishuIo) (optIn : RosterOptInPayload)
    (senderOpenId : Option String) (inboundMsgId : String) (isGroup : Bool) : Except String InsertDmGrantArgs :=
  if isGroup then .error "group_intent_only"
  else match parseConsentTarget (senderOpenId.getD "") with
    | none => .error "bad_open_id"
    | some target => .ok (mintArgs cfg io optIn target "p2p-ingress" inboundMsgId none)

def captureDirectedCardConsent (cfg : FeishuConfig) (io : FeishuIo) (optIn : RosterOptInPayload)
    (operatorOpenId : Option String) (inboundMsgId : String) (originPlatformId : Option String) :
    Except String InsertDmGrantArgs :=
  let operator := operatorOpenId.getD ""
  match optIn.expectedUserId with
  | none => .error "unscoped_card"
  | some expectedUserId =>
    if !cardActionOperatorAllowed expectedUserId operator then .error "operator_mismatch"
    else match parseConsentTarget operator with
      | none => .error "bad_open_id"
      | some target => .ok (mintArgs cfg io optIn target "directed-card" inboundMsgId originPlatformId)

/-- The grant a consent asks for, unless it is refused. -/
def consentTask : Except String InsertDmGrantArgs → FeishuTask
  | .ok a => .consent a
  | .error _ => .ignore

def FeishuMessage.senderId (m : FeishuMessage) : Option String :=
  ((readString m.openId).or (readString m.userId)).or (readString m.unionId)

def normalizeFeishuPlatformId (chatId chatType : String) (senderOpenId : Option String) : Option String :=
  if chatType = "p2p" ∨ chatType = "private" then
    let senderId := trim (senderOpenId.getD "")
    if senderId = "" then none else some s!"feishu:p2p:{senderId}"
  else some s!"feishu:{chatId}"

def FeishuMessage.platformId (m : FeishuMessage) : Option String :=
  normalizeFeishuPlatformId m.chatId m.chatType m.senderId

/-- A trimmed text, `none` for an empty one. -/
def trimmed (s : Option String) : Option String := readString (s.map .str)

def resolveThreadId (m : FeishuMessage) : Option String := (trimmed m.rootId).or (trimmed m.threadId)

def textField (key : String) (value : Option String) : List (String × Json) :=
  value.toList.map fun s => (key, .str s)

/-- The content that `onInbound` is given; `JSON.stringify` leaves out what is undefined. -/
def FeishuMessage.toContent (m : FeishuMessage) (text : String) : Json :=
  .obj (textField "senderId" m.senderId ++
    [("sender", .str (m.senderId.getD "feishu-user")), ("text", .str text), ("chatId", .str m.chatId),
      ("chatType", .str m.chatType), ("messageType", .str m.messageType), ("messageId", .str m.messageId)] ++
    textField "rootId" m.rootId ++ textField "parentId" m.parentId ++ textField "threadId" m.threadId ++
    [("mentions", .arr m.mentions)])

/-- `onInbound` hands the event to `routeInbound`. -/
def FeishuConfig.inboundEvent (cfg : FeishuConfig) (m : FeishuMessage) (platformId text : String) : InboundEvent :=
  let isGroup := m.chatType = "group"
  { channelType := "feishu", platformId, threadId := resolveThreadId m, id := m.messageId, kind := .chat
    raw := cfg.stringify (m.toContent text), content := some (m.toContent text)
    isMention := if isGroup then cfg.mentionsBot m else true, isGroup := isGroup, replyTo := none }

/-- `handleMessageReceive` after the mark. -/
def FeishuConfig.messageTask (cfg : FeishuConfig) (io : FeishuIo) (m : FeishuMessage) (platformId : String) :
    FeishuTask :=
  let isGroup := m.chatType = "group"
  let text := cfg.parseTextContent m.content m.messageType
  let command := cfg.parseJsonObject text
  match if isGroup then none else parseRosterOptOut command (cfg.plainOptOut text) with
  | some scopeId => match readString m.openId with
    | some openId => .optOut openId scopeId
    | none => .ignore
  | none => match command.bind fun fields => parseRosterOptIn (.obj fields) with
    | some optIn =>
      consentTask (captureP2pIngressConsent cfg io optIn (readString m.openId) s!"msg:{m.messageId}" isGroup)
    | none => match m.timestamp with
      | .error e => .throws e
      | .ok _ => .route (cfg.inboundEvent m platformId text)

/-- The question a click answers: what it is, the option, and who may answer. -/
def parseFeishuQuestionActionPayload (value : List (String × Json)) (now : ℕ) :
    Option (String × String × Option String) :=
  if Json.asString (fieldOf value "kind") ≠ some "card.ask_question" then none
  else match readString (fieldOf value "questionId"), readString (fieldOf value "selectedOption") with
    | some questionId, some selectedOption =>
      let expired := match fieldOf value "expiresAt" with
        | some (.num expiresAt) => decide (expiresAt < now)
        | _ => false
      if expired then none else some (questionId, selectedOption, readString (fieldOf value "expectedUserId"))
    | _, _ => none

/-- `handleCardAction` after the mark. The notice of an expired card is sent or not, and nothing more. -/
def FeishuConfig.cardTask (cfg : FeishuConfig) (io : FeishuIo) (c : FeishuCardAction) : FeishuTask :=
  match parseRosterOptOut (some c.value) false with
  | some scopeId =>
    let expected := (readString (fieldOf c.value "expectedUserId")).getD ""
    match readString c.openId with
    | some openId => if cardActionOperatorAllowed expected openId then .optOut openId scopeId else .ignore
    | none => .ignore
  | none => match parseRosterOptIn (.obj c.value) with
    | some optIn =>
      let origin := (readString c.chatId).map fun chatId => s!"feishu:{chatId}"
      consentTask (captureDirectedCardConsent cfg io optIn (readString c.openId) s!"action:{trim c.token}" origin)
    | none => match parseFeishuQuestionActionPayload c.value io.now with
      | none => .ignore
      | some (questionId, selectedOption, expectedUserId) =>
        let operatorUserId :=
          (((readString c.openId).or (readString c.userId)).or (readString c.unionId)).getD ""
        if !cardActionOperatorAllowed (expectedUserId.getD "") operatorUserId then .ignore
        else .respond ⟨questionId, selectedOption, some operatorUserId, "feishu", "", none⟩

/-- The key an event is marked under; `none` when it is dropped before. -/
def FeishuConfig.key (cfg : FeishuConfig) : FeishuEvent → Option String
  | .message m =>
    if truthy cfg.botOpenId && m.senderId = cfg.botOpenId then none
    else m.platformId.map fun _ => s!"msg:{m.messageId}"
  | .card c => if trim c.token = "" then none else some s!"action:{trim c.token}"

def FeishuConfig.task (cfg : FeishuConfig) (io : FeishuIo) : FeishuEvent → FeishuTask
  | .message m => match m.platformId with
    | none => .ignore
    | some platformId => cfg.messageTask io m platformId
  | .card c => cfg.cardTask io c

/-! ### The host -/

/-- The tables the handlers work on, with the keys of `dm_grants`. -/
structure FeishuHost where
  dedup : List DedupRow
  grants : List DmGrantRow
  desk : Desk
  ledger : List IngressRow
  grantIds : (grants.map (·.id)).Nodup
  scopeKeys : (grants.map fun g => (g.scopeId, g.participantOpenId)).Nodup

theorem revokeWhere_keys {α : Type} (key : DmGrantRow → α)
    (hkey : ∀ g revokedAt, key { g with revokedAt } = key g) (grants : List DmGrantRow) (covers : DmGrantRow → Bool)
    (now : ℕ) : (revokeWhere grants covers now).map key = grants.map key := by
  rw [revokeWhere, List.map_map]
  refine List.map_congr_left fun g _ => ?_
  rw [Function.comp]
  split
  · exact hkey g _
  · rfl

theorem insertDmGrant_keys {grants : List DmGrantRow} (a : InsertDmGrantArgs) (hids : (grants.map (·.id)).Nodup)
    (hkeys : (grants.map fun g => (g.scopeId, g.participantOpenId)).Nodup) :
    ((insertDmGrant grants a).1.map fun g => (g.scopeId, g.participantOpenId)).Nodup := by
  unfold insertDmGrant
  split
  · exact hkeys
  · split
    · rename_i g hslot
      split
      · rename_i hsame
        have hg : g ∈ grants := List.mem_of_find?_eq_some hslot
        have hmap : (Table.update (·.id) grants g.id a.renew).map (fun g => (g.scopeId, g.participantOpenId)) =
            grants.map fun g => (g.scopeId, g.participantOpenId) := by
          rw [Table.update, List.map_map]
          refine List.map_congr_left fun g' hg' => ?_
          rw [Function.comp]
          split
          · rename_i hid
            obtain rfl : g' = g := List.inj_on_of_nodup_map hids hg' hg hid
            rw [InsertDmGrantArgs.renew, hsame]
          · rfl
        rw [hmap]
        exact hkeys
      · exact hkeys
    · split
      · exact hkeys
      · rename_i hfree
        rw [List.map_append, List.nodup_append]
        refine ⟨hkeys, by simp, fun k hk k' hk' he => hfree ?_⟩
        obtain ⟨g, hg, rfl⟩ := List.mem_map.mp hk
        obtain rfl : k' = (a.scopeId, a.participantOpenId) := by simpa [InsertDmGrantArgs.row] using hk'
        obtain ⟨hscope, hparticipant⟩ := Prod.mk.inj he
        exact List.any_eq_true.mpr ⟨g, hg, by simp [hscope, hparticipant]⟩

def FeishuHost.revoke (h : FeishuHost) (scopeId participantOpenId : String) (now : ℕ) : FeishuHost :=
  { h with
    grants := revokeParticipantInScope h.grants scopeId participantOpenId now
    grantIds := by
      rw [revokeParticipantInScope, revokeWhere_keys _ fun _ _ => rfl]
      exact h.grantIds
    scopeKeys := by
      rw [revokeParticipantInScope, revokeWhere_keys _ fun _ _ => rfl]
      exact h.scopeKeys }

def FeishuHost.grant (h : FeishuHost) (a : InsertDmGrantArgs) : FeishuHost :=
  { h with
    grants := (insertDmGrant h.grants a).1
    grantIds := insertDmGrant_ids h.grants a h.grantIds
    scopeKeys := insertDmGrant_keys a h.grantIds h.scopeKeys }

/-- Has the participant a grant in the scope that is not revoked? -/
def liveIn (grants : List DmGrantRow) (participantOpenId scopeId : String) : Bool :=
  grants.any fun g => g.scopeId = scopeId && g.participantOpenId = participantOpenId && g.revokedAt.isNone

/-- The scopes of `listLiveGrantsForParticipant`. -/
def liveScopes (grants : List DmGrantRow) (participantOpenId : String) : List String :=
  (grants.filter fun g => g.participantOpenId = participantOpenId && g.revokedAt.isNone).map (·.scopeId)

/-- The loop of `optOutParticipant` from its `i`-th scope on. An `UPDATE` that changes a row is audited. -/
def revokeEach (io : FeishuIo) (participantOpenId : String) : ℕ → List String → FeishuHost →
    FeishuHost × Except String Unit
  | _, [], h => (h, .ok ())
  | i, scopeId :: scopeIds, h => match io.update i with
    | .error e => (h, .error e)
    | .ok _ =>
      let revoked := h.revoke scopeId participantOpenId io.now
      match if liveIn h.grants participantOpenId scopeId then io.auditRevoke i else .ok () with
      | .error e => (revoked, .error e)
      | .ok _ => revokeEach io participantOpenId (i + 1) scopeIds revoked

/-- `id.startsWith('ou_')`. -/
def isOpenId (id : String) : Bool := startsWith id "ou_"

/-- The scopes an opt-out goes through. -/
def optOutScopes (grants : List DmGrantRow) (id : String) (scopeId : Option String) : List String :=
  match scopeId with
  | some scopeId => [scopeId]
  | none => liveScopes grants id

def optOutParticipant (io : FeishuIo) (h : FeishuHost) (openId : String) (scopeId : Option String) :
    FeishuHost × Except String Unit :=
  let id := trim openId
  if !isOpenId id then (h, .ok ())
  else match if scopeId.isSome then .ok () else io.list with
    | .error e => (h, .error e)
    | .ok _ => revokeEach io id 0 (optOutScopes h.grants id scopeId) h

/-- The id `mintGrant` gives the p2p chat of a participant. -/
def rosterGroupId (dmPlatformId : String) : String :=
  "mg-roster-" ++ String.ofList (dmPlatformId.toList.flatMap fun c =>
    if c.isAlphanum || c = '_' then [c] else List.replicate (codeUnits c) '_')

/-- `getMessagingGroupByPlatform('feishu', …)`. -/
def Desk.hasFeishuChat (desk : Desk) (platformId : String) : Bool :=
  desk.messagingGroups.any fun m => m.channelType = "feishu" && m.platformId = platformId

/-- The p2p chat is there, or is made. -/
def ensureP2pMessagingGroup (io : ConsentIo) (h : FeishuHost) (dmPlatformId : String) :
    FeishuHost × Except String Unit :=
  match io.readGroup with
  | .error e => (h, .error e)
  | .ok _ =>
    if h.desk.hasFeishuChat dmPlatformId then (h, .ok ())
    else match io.createGroup with
      | .error e => (h, .error e)
      | .ok _ =>
        let mg : MessagingGroup := ⟨rosterGroupId dmPlatformId, "feishu", dmPlatformId, false, none⟩
        if h.desk.messagingGroups.any fun m => m.id = mg.id then
          (h, .error "UNIQUE constraint failed: messaging_groups.id")
        else ({ h with desk := { h.desk with messagingGroups := h.desk.messagingGroups ++ [mg] } }, .ok ())

/-- `insertDmGrant` catches whatever its `INSERT` throws; reading the slot and the audit come after it. -/
def mintGrant (io : ConsentIo) (h : FeishuHost) (a : InsertDmGrantArgs) : FeishuHost × Except String Unit :=
  match ensureP2pMessagingGroup io h a.dmPlatformId with
  | (h', .error e) => (h', .error e)
  | (h', .ok _) => match io.insert with
    | .error _ => (h', .ok ())
    | .ok _ => (h'.grant a, io.readSlot >>= fun _ => io.audit)

/-- How each response handler would end. -/
def FeishuIo.handled (io : FeishuIo) (payload : ResponsePayload) : List (Except String Bool) :=
  (responseHandlers.zip io.desks).map fun x => (x.1 x.2 payload).2

/-- The handlers run in turn, until one claims the response; one that throws has not claimed it. -/
def responseClaimed : List (Except String Bool) → Bool
  | [] => false
  | .ok true :: _ => true
  | _ :: rest => responseClaimed rest

/-- What comes after the mark. `onInbound` and `onAction` do not wait for what they start, and what it
throws is caught there. -/
def FeishuTask.perform (io : FeishuIo) (h : FeishuHost) : FeishuTask → FeishuHost × Except String Unit
  | ignore => (h, .ok ())
  | throws e => (h, .error e)
  | optOut openId scopeId => optOutParticipant io h openId scopeId
  | consent a => mintGrant io.consent h a
  | route event =>
    let routed := io.route.routeInbound io.ingress event h.desk h.ledger
    ({ h with desk := routed.1, ledger := routed.2.1 }, .ok ())
  | respond _ => (h, .ok ())

inductive FeishuOutcome where
  | ignored | deduped | done
  | thrown (error : String)
  deriving DecidableEq, Repr

def FeishuOutcome.of : Except String Unit → FeishuOutcome
  | .ok _ => .done
  | .error e => .thrown e

/-- `handleMessageReceive` and `handleCardAction`. -/
def FeishuHost.handle (cfg : FeishuConfig) (io : FeishuIo) (h : FeishuHost) (e : FeishuEvent) :
    FeishuHost × FeishuOutcome :=
  match cfg.key e with
  | none => (h, .ignored)
  | some key => match markInboundSeen h.dedup "feishu" key io.now io.mark with
    | (_, .error e) => (h, .thrown e)
    | (_, .ok false) => (h, .deduped)
    | (dedup, .ok true) =>
      let performed := (cfg.task io e).perform io { h with dedup }
      (performed.1, .of performed.2)

/-! ### Redelivery -/

/-- What happens on the host: a delivery, the pruning of seen events, and anything else that changes the
other tables. -/
inductive FeishuStep where
  | deliver (e : FeishuEvent) (io : FeishuIo)
  | prune (olderThanMs now : ℕ)
  | outside (h : FeishuHost)

def feishuStep (cfg : FeishuConfig) (h : FeishuHost) : FeishuStep → Option FeishuHost
  | .deliver e io => some (h.handle cfg io e).1
  | .prune olderThanMs now => some { h with dedup := pruneInboundDedup h.dedup olderThanMs now }
  | .outside h' => some { h' with dedup := h.dedup }

/-- The step does not deliver the event. -/
def FeishuStep.Passes (cfg : FeishuConfig) (e : FeishuEvent) : FeishuStep → Prop
  | .deliver e' _ => (cfg.key e').map trim ≠ (cfg.key e).map trim
  | _ => True

/-- Whatever happens before it comes again, the event is not taken for a duplicate. -/
def Redeliverable (cfg : FeishuConfig) (h : FeishuHost) (e : FeishuEvent) : Prop :=
  ∀ es h', (∀ s ∈ es, s.Passes cfg e) → Trans.run (feishuStep cfg) h es = some h' →
    ∀ io, (h'.handle cfg io e).2 ≠ .deduped

theorem trim_ne_empty {s : String} {c : Char} {cs : List Char} (hs : s.toList = c :: cs) (hc : isSpace c = false) :
    trim s ≠ "" := by
  intro h
  have hdrop : s.toList.dropWhile isSpace = c :: cs := by
    rw [hs, List.dropWhile_cons_of_neg (by simp [hc])]
  have hnil : (c :: cs).reverse.dropWhile isSpace = [] := by
    have hlist := congrArg String.toList h
    simpa [trim, hdrop] using hlist
  have hall := List.dropWhile_eq_nil_iff.mp hnil c (by simp)
  rw [hc] at hall
  cases hall

theorem key_nonblank {cfg : FeishuConfig} {e : FeishuEvent} {key : String} (hkey : cfg.key e = some key) :
    trim key ≠ "" := by
  cases e with
  | message m =>
    simp only [FeishuConfig.key] at hkey
    split at hkey
    · cases hkey
    · obtain ⟨_, -, rfl⟩ := Option.map_eq_some_iff.mp hkey
      have hlist : s!"msg:{m.messageId}".toList = 'm' :: ("sg:".toList ++ m.messageId.toList) := by
        simp [toString, String.toList_append]
      exact trim_ne_empty hlist (by decide)
  | card c =>
    simp only [FeishuConfig.key] at hkey
    split at hkey
    · cases hkey
    · obtain rfl := Option.some.inj hkey
      have hlist : s!"action:{trim c.token}".toList = 'a' :: ("ction:".toList ++ (trim c.token).toList) := by
        simp [toString, String.toList_append]
      exact trim_ne_empty hlist (by decide)

theorem seen_append (rows : List DedupRow) (row : DedupRow) (channel eventId : String) :
    seen (rows ++ [row]) channel eventId =
      (seen rows channel eventId || (row.channel = channel && row.eventId = trim eventId)) := by
  simp [seen, List.any_append]

theorem markInboundSeen_cases (rows : List DedupRow) (channel : String) {eventId : String}
    (hne : trim eventId ≠ "") (now : ℕ) (insert : Except String Unit) :
    (∃ e, insert = .error e ∧ markInboundSeen rows channel eventId now insert = (rows, .error e)) ∨
    (insert = .ok () ∧ seen rows channel eventId = true ∧
      markInboundSeen rows channel eventId now insert = (rows, .ok false)) ∨
    (insert = .ok () ∧ seen rows channel eventId = false ∧
      markInboundSeen rows channel eventId now insert = (rows ++ [⟨channel, trim eventId, now⟩], .ok true)) := by
  cases insert with
  | error e => exact .inl ⟨e, rfl, by simp [markInboundSeen, hne]⟩
  | ok _ =>
    cases hseen : seen rows channel eventId with
    | true => exact .inr (.inl ⟨rfl, rfl, by simp [markInboundSeen, hne, hseen]⟩)
    | false => exact .inr (.inr ⟨rfl, rfl, by simp [markInboundSeen, hne, hseen]⟩)

section Run

variable {cfg : FeishuConfig} {io : FeishuIo} {h h' : FeishuHost} {e : FeishuEvent} {key : String}

theorem revokeEach_dedup (io : FeishuIo) (participantOpenId : String) (scopeIds : List String) (i : ℕ)
    (h : FeishuHost) : (revokeEach io participantOpenId i scopeIds h).1.dedup = h.dedup := by
  induction scopeIds generalizing i h with
  | nil => rfl
  | cons scopeId scopeIds ih =>
    rw [revokeEach]
    split
    · rfl
    · dsimp only
      split
      · rfl
      · exact ih (i + 1) (h.revoke scopeId participantOpenId io.now)

theorem ensureP2pMessagingGroup_frame (io : ConsentIo) (h : FeishuHost) (dmPlatformId : String) :
    (ensureP2pMessagingGroup io h dmPlatformId).1.dedup = h.dedup ∧
      (ensureP2pMessagingGroup io h dmPlatformId).1.grants = h.grants := by
  unfold ensureP2pMessagingGroup
  split
  · exact ⟨rfl, rfl⟩
  · split
    · exact ⟨rfl, rfl⟩
    · split
      · exact ⟨rfl, rfl⟩
      · dsimp only
        split <;> exact ⟨rfl, rfl⟩

theorem perform_dedup (io : FeishuIo) (h : FeishuHost) (task : FeishuTask) :
    (task.perform io h).1.dedup = h.dedup := by
  cases task with
  | optOut openId scopeId =>
    rw [FeishuTask.perform, optOutParticipant]
    split
    · rfl
    · split
      · rfl
      · exact revokeEach_dedup io (trim openId) _ 0 h
  | consent a =>
    have hframe := (ensureP2pMessagingGroup_frame io.consent h a.dmPlatformId).1
    rw [FeishuTask.perform, mintGrant]
    split
    · rename_i hmade
      rw [hmade] at hframe
      exact hframe
    · rename_i hmade
      rw [hmade] at hframe
      split <;> exact hframe
  | _ => rfl

theorem handle_unseen {e' : FeishuEvent} (hkey : cfg.key e = some key)
    (hother : (cfg.key e').map trim ≠ (cfg.key e).map trim) (hseen : seen h.dedup "feishu" key = false) :
    seen (h.handle cfg io e').1.dedup "feishu" key = false := by
  unfold FeishuHost.handle
  cases hkey' : cfg.key e' with
  | none => exact hseen
  | some key' =>
    have hne : trim key' ≠ trim key := by
      intro he
      rw [hkey, hkey', Option.map_some, Option.map_some, he] at hother
      exact hother rfl
    rcases markInboundSeen_cases h.dedup "feishu" (key_nonblank hkey') io.now io.mark with
      ⟨_, -, hmark⟩ | ⟨-, -, hmark⟩ | ⟨-, -, hmark⟩
    · simpa only [hmark] using hseen
    · simpa only [hmark] using hseen
    · simp only [hmark, perform_dedup, seen_append, hseen]
      simp [hne]

theorem step_unseen {s : FeishuStep} (hkey : cfg.key e = some key) (hpass : s.Passes cfg e)
    (hseen : seen h.dedup "feishu" key = false) (hs : feishuStep cfg h s = some h') :
    seen h'.dedup "feishu" key = false := by
  cases s with
  | deliver e' io' =>
    obtain rfl := Option.some.inj hs
    exact handle_unseen hkey hpass hseen
  | prune olderThanMs now =>
    obtain rfl := Option.some.inj hs
    rw [Bool.eq_false_iff] at hseen ⊢
    intro hany
    obtain ⟨row, hrow, hmatch⟩ := List.any_eq_true.mp hany
    exact hseen (List.any_eq_true.mpr ⟨row, (List.mem_filter.mp hrow).1, hmatch⟩)
  | outside h₂ =>
    obtain rfl := Option.some.inj hs
    exact hseen

/-- **When a redelivery is handled.** -/
theorem redeliverable_iff (io : FeishuIo) (hkey : cfg.key e = some key) :
    Redeliverable cfg h e ↔ seen h.dedup "feishu" key = false := by
  constructor
  · intro hr
    rw [Bool.eq_false_iff]
    intro hseen
    have hagain := hr [] h (by simp) rfl { io with mark := .ok () }
    simp only [FeishuHost.handle, hkey] at hagain
    rcases markInboundSeen_cases h.dedup "feishu" (key_nonblank hkey) io.now (.ok ()) with
      ⟨_, hio, -⟩ | ⟨-, -, hmark⟩ | ⟨-, hnot, -⟩
    · cases hio
    · rw [hmark] at hagain
      exact hagain rfl
    · rw [hseen] at hnot
      cases hnot
  · intro hseen es h' hpass hrun io'
    have halways : Trans.Always (feishuStep cfg) (fun h => seen h.dedup "feishu" key = false) h es :=
      Trans.always_of_along (fun _ hJ => hJ) (fun _ _ _ hJ hs hpass => step_unseen hkey hpass hJ hs) hseen
        (Trans.along_of_forall fun s hs _ => hpass s hs)
    have hunseen := halways es [] h' (List.append_nil es).symm hrun
    simp only [FeishuHost.handle, hkey]
    rcases markInboundSeen_cases h'.dedup "feishu" (key_nonblank hkey) io'.now io'.mark with
      ⟨_, -, hmark⟩ | ⟨-, hagain, -⟩ | ⟨-, -, hmark⟩
    · simp [hmark]
    · rw [hunseen] at hagain
      cases hagain
    · rw [hmark]
      dsimp only
      unfold FeishuOutcome.of
      split <;> simp

end Run

/-! ### Opting out -/

/-- The participant has no live grant in the scope, or in any. -/
def OptedOut (grants : List DmGrantRow) (id : String) (scopeId : Option String) : Prop :=
  ∀ s, scopeId = none ∨ scopeId = some s → liveIn grants id s = false

/-- No statement of the opt-out up to its last `UPDATE` throws. -/
def FeishuIo.Revokes (io : FeishuIo) (grants : List DmGrantRow) (id : String) (scopeId : Option String) : Prop :=
  (scopeId = none → io.list = .ok ()) ∧ ∀ i < (optOutScopes grants id scopeId).length,
    io.update i = .ok () ∧ (i + 1 < (optOutScopes grants id scopeId).length → io.auditRevoke i = .ok ())

theorem mem_liveScopes {grants : List DmGrantRow} {id s : String} :
    s ∈ liveScopes grants id ↔ liveIn grants id s = true := by
  simp only [liveScopes, liveIn, List.mem_map, List.mem_filter, List.any_eq_true, Bool.and_eq_true, decide_eq_true_eq]
  constructor
  · rintro ⟨g, ⟨hg, hid, hlive⟩, rfl⟩
    exact ⟨g, hg, ⟨rfl, hid⟩, hlive⟩
  · rintro ⟨g, hg, ⟨rfl, hid⟩, hlive⟩
    exact ⟨g, ⟨hg, hid, hlive⟩, rfl⟩

theorem liveScopes_nodup {grants : List DmGrantRow}
    (hkeys : (grants.map fun g => (g.scopeId, g.participantOpenId)).Nodup) (id : String) :
    (liveScopes grants id).Nodup := by
  have hpair : (liveScopes grants id).map (fun s => (s, id)) =
      (grants.filter fun g => g.participantOpenId = id && g.revokedAt.isNone).map
        fun g => (g.scopeId, g.participantOpenId) := by
    rw [liveScopes, List.map_map]
    refine List.map_congr_left fun g hg => ?_
    have hid : g.participantOpenId = id := by
      have hboth := (List.mem_filter.mp hg).2
      simp only [Bool.and_eq_true, decide_eq_true_eq] at hboth
      exact hboth.1
    rw [Function.comp, hid]
  refine List.Nodup.of_map (fun s => (s, id)) ?_
  rw [hpair]
  exact hkeys.sublist (List.Sublist.map _ List.filter_sublist)

theorem liveIn_revoke (h : FeishuHost) (scopeId id : String) (now : ℕ) (s : String) :
    liveIn (h.revoke scopeId id now).grants id s = (decide (s ≠ scopeId) && liveIn h.grants id s) := by
  simp only [FeishuHost.revoke, revokeParticipantInScope, revokeWhere, liveIn, List.any_map]
  rw [Bool.eq_iff_iff]
  simp only [List.any_eq_true, Function.comp, Bool.and_eq_true, decide_eq_true_eq, Revocation.covers]
  constructor
  · rintro ⟨g, hg, hmatch⟩
    split at hmatch
    · simp at hmatch
    · rename_i hkept
      obtain ⟨⟨rfl, rfl⟩, hlive⟩ := hmatch
      refine ⟨fun he => hkept ⟨⟨he, rfl⟩, hlive⟩, g, hg, ⟨rfl, rfl⟩, hlive⟩
  · rintro ⟨hne, g, hg, ⟨rfl, rfl⟩, hlive⟩
    refine ⟨g, hg, ?_⟩
    rw [if_neg fun hkept => hne hkept.1.1]
    exact ⟨⟨rfl, rfl⟩, hlive⟩

theorem liveIn_revokeEach {io : FeishuIo} {id s : String} {scopeIds : List String} {i : ℕ} {h : FeishuHost}
    (hdead : liveIn h.grants id s = false) : liveIn (revokeEach io id i scopeIds h).1.grants id s = false := by
  induction scopeIds generalizing i h with
  | nil => exact hdead
  | cons scopeId scopeIds ih =>
    have hrevoked : liveIn (h.revoke scopeId id io.now).grants id s = false := by
      rw [liveIn_revoke, hdead, Bool.and_false]
    rw [revokeEach]
    split
    · exact hdead
    · dsimp only
      split
      · exact hrevoked
      · exact ih hrevoked

theorem revokeEach_iff (io : FeishuIo) (id : String) {scopeIds : List String} (i : ℕ) (h : FeishuHost)
    (hnodup : scopeIds.Nodup) (hlive : ∀ s ∈ scopeIds, liveIn h.grants id s = true) :
    (∀ s ∈ scopeIds, liveIn (revokeEach io id i scopeIds h).1.grants id s = false) ↔
      ∀ j < scopeIds.length,
        io.update (i + j) = .ok () ∧ (j + 1 < scopeIds.length → io.auditRevoke (i + j) = .ok ()) := by
  induction scopeIds generalizing i h with
  | nil => simp
  | cons scopeId scopeIds ih =>
    have hhead := hlive scopeId (.head _)
    have hnotin : scopeId ∉ scopeIds := (List.nodup_cons.mp hnodup).1
    have hrest : ∀ s ∈ scopeIds, liveIn (h.revoke scopeId id io.now).grants id s = true := by
      intro s hs
      have hne : s ≠ scopeId := fun he => hnotin (he ▸ hs)
      rw [liveIn_revoke, hlive s (.tail _ hs), decide_eq_true hne, Bool.and_true]
    have hgone : liveIn (h.revoke scopeId id io.now).grants id scopeId = false := by
      rw [liveIn_revoke]
      simp
    rw [revokeEach, List.forall_mem_cons, List.length_cons, Nat.forall_lt_succ_left, Nat.add_zero]
    cases hupdate : io.update i with
    | error e =>
      have hleft : liveIn h.grants id scopeId ≠ false := by simp [hhead]
      exact iff_of_false (fun hall => hleft hall.1) fun hall => nomatch hall.1.1
    | ok _ =>
      simp only [hhead, if_true]
      cases haudit : io.auditRevoke i with
      | error e =>
        cases scopeIds with
        | nil => exact iff_of_true ⟨hgone, by simp⟩ ⟨⟨trivial, by simp⟩, by simp⟩
        | cons s scopeIds =>
          have hleft : liveIn (h.revoke scopeId id io.now).grants id s ≠ false := by simp [hrest s (.head _)]
          refine iff_of_false (fun hall => hleft (hall.2 s (.head _))) fun hall => ?_
          exact nomatch hall.1.2 (by simp)
      | ok _ =>
        have htail := ih (i + 1) (h.revoke scopeId id io.now) (List.nodup_cons.mp hnodup).2 hrest
        rw [and_iff_right (liveIn_revokeEach hgone), htail, and_iff_right ⟨trivial, fun _ => rfl⟩]
        refine forall₂_congr fun j _ => ?_
        rw [Nat.add_right_comm i 1 j, Nat.add_assoc i j 1, Nat.succ_lt_succ_iff]

/-- **An opt-out takes effect** exactly when there was nothing to revoke or it gets to its last
`UPDATE`. -/
theorem optedOut_iff (io : FeishuIo) (h : FeishuHost) {openId : String} (scopeId : Option String)
    (hopen : isOpenId (trim openId) = true) :
    OptedOut (optOutParticipant io h openId scopeId).1.grants (trim openId) scopeId ↔
      OptedOut h.grants (trim openId) scopeId ∨ io.Revokes h.grants (trim openId) scopeId := by
  simp only [optOutParticipant, hopen, Bool.not_true, Bool.false_eq_true, if_false]
  cases scopeId with
  | some scopeId =>
    have hone : ∀ grants, OptedOut grants (trim openId) (some scopeId) ↔ liveIn grants (trim openId) scopeId = false := by
      intro grants
      constructor
      · exact fun hall => hall scopeId (.inr rfl)
      · rintro hdead s (hs | hs)
        · cases hs
        · obtain rfl := Option.some.inj hs
          exact hdead
    simp only [Option.isSome_some, if_true, optOutScopes, hone, FeishuIo.Revokes]
    cases hlive : liveIn h.grants (trim openId) scopeId with
    | false => exact iff_of_true (liveIn_revokeEach hlive) (.inl rfl)
    | true =>
      have hloop := revokeEach_iff io (trim openId) 0 h (List.nodup_singleton scopeId)
        fun s hs => by rw [List.mem_singleton.mp hs, hlive]
      simp only [Nat.zero_add, List.forall_mem_singleton] at hloop
      rw [hloop]
      simp
  | none =>
    have hall : ∀ grants, OptedOut grants (trim openId) none ↔ ∀ s, liveIn grants (trim openId) s = false := by
      intro grants
      exact ⟨fun hall s => hall s (.inl rfl), fun hall s _ => hall s⟩
    simp only [Option.isSome_none, Bool.false_eq_true, if_false, optOutScopes, hall, FeishuIo.Revokes, true_imp_iff]
    cases hlist : io.list with
    | error e => simp
    | ok _ =>
      have hloop := revokeEach_iff io (trim openId) 0 h (liveScopes_nodup h.scopeKeys (trim openId))
        fun s => mem_liveScopes.mp
      simp only [Nat.zero_add] at hloop
      have hnone : (∀ s, liveIn h.grants (trim openId) s = false) →
          ∀ s ∈ liveScopes h.grants (trim openId),
            liveIn (revokeEach io (trim openId) 0 (liveScopes h.grants (trim openId)) h).1.grants
              (trim openId) s = false := by
        intro hdead s _
        exact liveIn_revokeEach (hdead s)
      simp only [true_and]
      rw [← hloop, or_iff_right_of_imp hnone]
      constructor
      · exact fun hdead s _ => hdead s
      · intro hdead s
        cases hlive : liveIn h.grants (trim openId) s with
        | false => exact liveIn_revokeEach hlive
        | true => exact hdead s (mem_liveScopes.mpr hlive)

/-! ### Consent -/

/-- The grant that the consent asks for is there. -/
def Granted (grants : List DmGrantRow) (a : InsertDmGrantArgs) : Prop :=
  ∃ g ∈ grants, g.scopeId = a.scopeId ∧ g.slotLabel = a.slotLabel ∧ g.participantOpenId = a.participantOpenId ∧
    g.consentInboundMsgId = a.consentInboundMsgId ∧ g.revokedAt = none

/-- The p2p chat can be looked up, and is there or can be made. -/
def ConsentIo.OpensChat (io : ConsentIo) (desk : Desk) (dmPlatformId : String) : Prop :=
  io.readGroup = .ok () ∧ (desk.hasFeishuChat dmPlatformId = true ∨
    io.createGroup = .ok () ∧ ∀ m ∈ desk.messagingGroups, m.id ≠ rosterGroupId dmPlatformId)

/-- The consent gets to its `INSERT`, which does not throw. -/
def ConsentIo.Inserts (io : ConsentIo) (desk : Desk) (a : InsertDmGrantArgs) : Prop :=
  io.OpensChat desk a.dmPlatformId ∧ io.insert = .ok ()

theorem opensChat_iff (io : ConsentIo) (h : FeishuHost) (dmPlatformId : String) :
    (ensureP2pMessagingGroup io h dmPlatformId).2 = .ok () ↔ io.OpensChat h.desk dmPlatformId := by
  unfold ensureP2pMessagingGroup ConsentIo.OpensChat
  cases io.readGroup with
  | error e => simp
  | ok _ =>
    cases hthere : h.desk.hasFeishuChat dmPlatformId with
    | true => simp
    | false =>
      cases io.createGroup with
      | error e => simp
      | ok _ =>
        simp only [Bool.false_eq_true, if_false, false_or, true_and]
        split
        · rename_i htaken
          simpa using htaken
        · rename_i hfree
          simpa using hfree

theorem granted_insert {grants : List DmGrantRow} {a : InsertDmGrantArgs}
    (haccepted : (insertDmGrant grants a).2 ≠ none) : Granted (insertDmGrant grants a).1 a := by
  unfold insertDmGrant at haccepted ⊢
  split
  · rename_i hany
    simp [hany] at haccepted
  · rename_i hany
    simp only [hany] at haccepted
    split
    · rename_i g hslot
      simp only [hslot] at haccepted
      split
      · rename_i hsame
        have hfound : g.scopeId = a.scopeId ∧ g.slotLabel = a.slotLabel := by
          simpa using List.find?_some hslot
        refine ⟨a.renew g, List.mem_map.mpr ⟨g, List.mem_of_find?_eq_some hslot, by simp⟩, ?_⟩
        exact ⟨hfound.1, hfound.2, rfl, rfl, rfl⟩
      · rename_i hother
        simp [hother] at haccepted
    · rename_i hslot
      simp only [hslot] at haccepted
      split
      · rename_i htaken
        simp [htaken] at haccepted
      · exact ⟨a.row, by simp, rfl, rfl, rfl, rfl, rfl⟩

/-- **A consent takes effect** exactly when it is refused, was recorded before, or gets to its `INSERT`. -/
theorem consent_iff (io : ConsentIo) (h : FeishuHost) (a : InsertDmGrantArgs) :
    ((insertDmGrant h.grants a).2 = none ∨ Granted (mintGrant io h a).1.grants a) ↔
      (insertDmGrant h.grants a).2 = none ∨ Granted h.grants a ∨ io.Inserts h.desk a := by
  have hframe := (ensureP2pMessagingGroup_frame io h a.dmPlatformId).2
  by_cases hrefused : (insertDmGrant h.grants a).2 = none
  · exact iff_of_true (.inl hrefused) (.inl hrefused)
  rw [or_iff_right hrefused, or_iff_right hrefused, mintGrant, ConsentIo.Inserts, ← opensChat_iff]
  split
  · rename_i h' e hmade
    rw [hmade] at hframe ⊢
    simp only [reduceCtorEq, false_and, or_false]
    rw [show h'.grants = h.grants from hframe]
  · rename_i h' u hmade
    rw [hmade] at hframe ⊢
    have hgrants : h'.grants = h.grants := hframe
    cases hinsert : io.insert with
    | error e => simp [hgrants]
    | ok _ =>
      have hgranted : Granted (h'.grant a).grants a := by
        show Granted (insertDmGrant h'.grants a).1 a
        rw [hgrants]
        exact granted_insert hrefused
      exact iff_of_true hgranted (.inr ⟨rfl, rfl⟩)

/-! ### Routing -/

/-- The routing gets to its fan-out, or ends before it on purpose. -/
def Routes (env : RouteEnv) (event : InboundEvent) (desk : Desk) : Prop :=
  ∃ r, (env.route event desk).2 = .ok r

/-- **A routed message takes effect or is in the ledger** exactly when the routing returns and every agent
that engages can land it, or the ledger has its row from before, or the call holds a row that stays: it
cannot be deleted, or the routing throws. -/
theorem routed_iff (env : RouteEnv) (c : IngressCall) (event : InboundEvent) (desk : Desk) (ledger : List IngressRow) :
    ((Routes env event desk ∧ Persisted env event desk (env.routeInbound c event desk ledger).1.world) ∨
      InLedger event (env.routeInbound c event desk ledger).2.1) ↔
    ((Routes env event desk ∧ Landable env event desk) ∨ InLedger event ledger ∨
      ((c.ingressId ledger).isSome ∧
        ((∃ e, c.delete = .error e) ∨ DropFails env event desk ∨ ¬Routes env event desk))) := by
  have hthrows : ¬Routes env event desk → ∃ e, (env.routeInboundInner event desk).2 = .error e := by
    intro hroutes
    rcases hr : env.route event desk with ⟨desk', e | r⟩
    · exact ⟨e, by rw [RouteEnv.routeInboundInner, hr]⟩
    · exact absurd ⟨r, congrArg Prod.snd hr⟩ hroutes
  cases hid : c.ingressId ledger with
  | none =>
    simp only [RouteEnv.routeInbound, hid, persisted_inner_iff]
    simp
  | some id =>
    have hkept := inner_kept_iff env event desk
    rw [persisted_inner_iff] at hkept
    simp only [RouteEnv.routeInbound, hid, persisted_inner_iff, Option.isSome_some, true_and,
      settle_iff (ingressId_fresh hid)]
    tauto

/-! ### Answers -/

theorem responseClaimed_iff {results : List (Except String Bool)} :
    responseClaimed results = true ↔ .ok true ∈ results := by
  induction results with
  | nil => simp [responseClaimed]
  | cons result results ih =>
    unfold responseClaimed
    split
    · simp_all
    · simp_all
    · rename_i hpasses heq
      obtain ⟨rfl, rfl⟩ := List.cons.inj heq
      rw [ih, List.mem_cons, or_iff_right fun he => hpasses he.symm]

/-! ### Every event -/

/-- What the task is for took place. An answer that all handlers pass on is nobody's. -/
def TookEffect (io : FeishuIo) (h h' : FeishuHost) : FeishuTask → Prop
  | .ignore => True
  | .throws _ => False
  | .optOut openId scopeId => isOpenId (trim openId) = true → OptedOut h'.grants (trim openId) scopeId
  | .consent a => (insertDmGrant h.grants a).2 = none ∨ Granted h'.grants a
  | .route event => Routes io.route event h.desk ∧ Persisted io.route event h.desk h'.desk.world
  | .respond payload =>
    responseClaimed (io.handled payload) = true ∨ ∀ result ∈ io.handled payload, result = .ok false

/-- The ledger has a row of the task's event. -/
def HasIngressRow (h' : FeishuHost) : FeishuTask → Prop
  | .route event => InLedger event h'.ledger
  | _ => False

/-- The handling gets as far as its last write, or leaves a row in the ledger. -/
def TaskSafe (io : FeishuIo) (h : FeishuHost) : FeishuTask → Prop
  | .ignore => True
  | .throws _ => False
  | .optOut openId scopeId => isOpenId (trim openId) = true →
      OptedOut h.grants (trim openId) scopeId ∨ io.Revokes h.grants (trim openId) scopeId
  | .consent a => (insertDmGrant h.grants a).2 = none ∨ Granted h.grants a ∨ io.consent.Inserts h.desk a
  | .route event =>
    (Routes io.route event h.desk ∧ Landable io.route event h.desk) ∨ InLedger event h.ledger ∨
      ((io.ingress.ingressId h.ledger).isSome ∧ ((∃ e, io.ingress.delete = .error e) ∨
        DropFails io.route event h.desk ∨ ¬Routes io.route event h.desk))
  | .respond payload =>
    .ok true ∈ io.handled payload ∨ ∀ result ∈ io.handled payload, result = .ok false

theorem task_iff (io : FeishuIo) (h : FeishuHost) (task : FeishuTask) :
    (TookEffect io h (task.perform io h).1 task ∨ HasIngressRow (task.perform io h).1 task) ↔ TaskSafe io h task := by
  cases task with
  | ignore => simp [TookEffect, TaskSafe]
  | throws e => simp [TookEffect, TaskSafe, HasIngressRow]
  | optOut openId scopeId =>
    simp only [TookEffect, HasIngressRow, TaskSafe, or_false, FeishuTask.perform]
    exact forall_congr' fun hopen => optedOut_iff io h scopeId hopen
  | consent a =>
    simp only [TookEffect, HasIngressRow, TaskSafe, or_false, FeishuTask.perform]
    exact consent_iff io.consent h a
  | route event => exact routed_iff io.route io.ingress event h.desk h.ledger
  | respond payload => simp only [TookEffect, HasIngressRow, TaskSafe, or_false, responseClaimed_iff]

theorem tookEffect_marked (io : FeishuIo) (h h' : FeishuHost) (dedup : List DedupRow) (task : FeishuTask) :
    TookEffect io { h with dedup } h' task ↔ TookEffect io h h' task := by
  cases task <;> rfl

theorem taskSafe_marked (io : FeishuIo) (h : FeishuHost) (dedup : List DedupRow) (task : FeishuTask) :
    TaskSafe io { h with dedup } task ↔ TaskSafe io h task := by
  cases task <;> rfl

/-- A handling of an event that was not seen: its effect took place, or the ledger has its row, or the
event is handled when it comes again. -/
def Kept (cfg : FeishuConfig) (io : FeishuIo) (h : FeishuHost) (e : FeishuEvent) : Prop :=
  ∀ key, cfg.key e = some key → seen h.dedup "feishu" key = false →
    TookEffect io h (h.handle cfg io e).1 (cfg.task io e) ∨
      HasIngressRow (h.handle cfg io e).1 (cfg.task io e) ∨ Redeliverable cfg (h.handle cfg io e).1 e

/-- The mark fails, or what comes after it is safe. -/
def Safe (cfg : FeishuConfig) (io : FeishuIo) (h : FeishuHost) (e : FeishuEvent) : Prop :=
  ∀ key, cfg.key e = some key → seen h.dedup "feishu" key = false →
    (∃ error, io.mark = .error error) ∨ TaskSafe io h (cfg.task io e)

/-- **When deduplication keeps an event.** -/
theorem event_kept_iff (cfg : FeishuConfig) (io : FeishuIo) (h : FeishuHost) (e : FeishuEvent) :
    Kept cfg io h e ↔ Safe cfg io h e := by
  refine forall_congr' fun key => forall_congr' fun hkey => forall_congr' fun hseen => ?_
  rw [redeliverable_iff io hkey]
  rcases markInboundSeen_cases h.dedup "feishu" (key_nonblank hkey) io.now io.mark with
    ⟨error, hio, hmark⟩ | ⟨-, hagain, -⟩ | ⟨hio, -, hmark⟩
  · have hsame : (h.handle cfg io e).1 = h := by simp only [FeishuHost.handle, hkey, hmark]
    rw [hsame]
    exact iff_of_true (.inr (.inr hseen)) (.inl ⟨error, hio⟩)
  · rw [hseen] at hagain
    cases hagain
  · let marked : FeishuHost := { h with dedup := h.dedup ++ [⟨"feishu", trim key, io.now⟩] }
    have hdone : (h.handle cfg io e).1 = ((cfg.task io e).perform io marked).1 := by
      simp only [FeishuHost.handle, hkey, hmark, marked]
    have hmarked : seen ((cfg.task io e).perform io marked).1.dedup "feishu" key = true := by
      rw [perform_dedup, seen_append]
      simp
    have hiff : (TookEffect io h ((cfg.task io e).perform io marked).1 (cfg.task io e) ∨
        HasIngressRow ((cfg.task io e).perform io marked).1 (cfg.task io e)) ↔ TaskSafe io h (cfg.task io e) := by
      have htask := task_iff io marked (cfg.task io e)
      rwa [tookEffect_marked, taskSafe_marked] at htask
    rw [hdone, hmarked, hio]
    simpa [← or_assoc] using hiff

/-! ### The defect -/

/-- A bot that is sent "leave". -/
def sampleFeishuConfig : FeishuConfig :=
  { botOpenId := some "ou_bot", mentionsBot := fun _ => false, parseTextContent := fun _ _ => "leave"
    parseJsonObject := fun _ => none, plainOptOut := fun text => text = "leave", stringify := fun _ => ""
    parseSqliteUtc := fun _ => none }

def leaveMessage : FeishuEvent :=
  .message
    { openId := some (.str "ou_u"), userId := none, unionId := none, messageId := "om_1", chatId := "oc_1"
      chatType := "p2p", messageType := "text", content := "\x7b\"text\":\"leave\"\x7d", rootId := none
      parentId := none, threadId := none, mentions := [], timestamp := .ok () }

/-- The participant may be written to in one scope. -/
def optedInHost : FeishuHost :=
  { dedup := []
    grants := [{ id := "g-1", scopeId := "scope-1", agentGroupId := "ag-front", slotLabel := "buyer"
                 participantOpenId := "ou_u", dmPlatformId := "feishu:p2p:ou_u", channelType := "feishu"
                 consentSource := "p2p-ingress", consentInboundMsgId := "msg:om_0", consentOriginUserId := none
                 originPlatformId := none, createdAt := 0, expiresAt := none, revokedAt := none, maxSends := 0
                 sendsUsed := 0 }]
    desk := sampleDesk, ledger := [], grantIds := by simp, scopeKeys := by simp }

/-- Every statement succeeds but the `UPDATE` of an opt-out. -/
def lockedIo : FeishuIo :=
  { now := 1, id := "g-2", mark := .ok (), list := .ok (), update := fun _ => .error "SQLITE_BUSY"
    auditRevoke := fun _ => .ok (), consent := ⟨.ok (), .ok (), .ok (), .ok (), .ok ()⟩, route := sampleRouteEnv
    ingress := sampleIngress, desks := [] }

/-- The handling of the "leave" throws, the grant is live, and the redelivery is taken for a duplicate. -/
theorem leave_swallowed : ¬Kept sampleFeishuConfig lockedIo optedInHost leaveMessage := by
  intro hkept
  have hkey : sampleFeishuConfig.key leaveMessage = some "msg:om_1" := by decide
  have htask : sampleFeishuConfig.task lockedIo leaveMessage = .optOut "ou_u" none := rfl
  rcases hkept "msg:om_1" hkey rfl with heffect | hrow | hagain
  · rw [htask] at heffect
    have hout := heffect (by decide) "scope-1" (.inl rfl)
    exact absurd hout (by decide)
  · rw [htask] at hrow
    exact hrow
  · rw [redeliverable_iff lockedIo hkey] at hagain
    exact absurd hagain (by decide)

end AgentDesk
