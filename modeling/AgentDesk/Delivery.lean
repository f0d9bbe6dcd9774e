/-
# Delivering one outbound row

`src/delivery.ts`, `deliverMessage` and `deliverRosterMessage`, with the
content contract of `src/outbound-contract.ts`. Every field of an outbound row
is container-written. A row is decoded, handed to a system action or to another
agent, sent to the person a roster grant names, or sent to the chat its own
fields name if the session may write there.

`deliverMessage` here is what one call decides: everything up to its last
await, with every table and answer it reads in its `HostEnv` (an outside
service's answer, a failing file read). What then comes back from the adapter,
the handler or the other agent is not decided here.

* `deliverMessage_send`: it sends only to a target `Confined` to the session:
  its own chat, a destination of its agent group, or what a live grant resolves
  to.
-/
import AgentDesk.AgentRoute
import AgentDesk.DmGrants

namespace AgentDesk

open Js

/-! ### The row and its content -/

/-- The `kind` column. -/
inductive OutboundKind where
  | chat | chatSdk | system | roster | llmUsage
  | other (text : String)
  deriving DecidableEq, Repr

def OutboundKind.text : OutboundKind → String
  | .chat => "chat"
  | .chatSdk => "chat-sdk"
  | .system => "system"
  | .roster => "roster"
  | .llmUsage => "llm-usage"
  | .other text => text

/-- The content column: its length in bytes, and what `JSON.parse` makes of it. -/
structure OutboundContent where
  bytes : ℕ
  parsed : Except String Json

/-- A row of a session's `messages_out`. -/
structure OutboundMessage where
  id : String
  kind : OutboundKind
  timestamp : String
  platformId : Option String
  channelType : Option String
  threadId : Option String
  content : OutboundContent
  inReplyTo : Option String
  deliverAfter : Option String
  recurrence : Option String
  originUserId : Option String

def maxOutboundContentBytes : ℕ := 4 * 1024 * 1024

def forbiddenKeys : List String := ["__proto__", "constructor", "prototype"]

def maxDepth : ℕ := 12

mutual

/-- Why a value is not admissible, if it is not. -/
def scan (depth : ℕ) : Json → Option String
  | .arr l => if maxDepth < depth then some s!"payload nests deeper than {maxDepth} levels"
    else scanItems (depth + 1) l
  | .obj fields => if maxDepth < depth then some s!"payload nests deeper than {maxDepth} levels"
    else scanFields (depth + 1) fields
  | _ => if maxDepth < depth then some s!"payload nests deeper than {maxDepth} levels" else none

def scanItems (depth : ℕ) : List Json → Option String
  | [] => none
  | j :: js => match scan depth j with
    | some bad => some bad
    | none => scanItems depth js

def scanFields (depth : ℕ) : List (String × Json) → Option String
  | [] => none
  | (key, v) :: fs =>
    if key ∈ forbiddenKeys then some s!"payload contains forbidden key \"{key}\""
    else match scan depth v with
      | some bad => some bad
      | none => scanFields depth fs

end

/-- The fields of an admissible content, or why it is not one. -/
def parseOutboundContent (raw : OutboundContent) : Except String (List (String × Json)) :=
  if maxOutboundContentBytes < raw.bytes then
    .error s!"payload exceeds {maxOutboundContentBytes} bytes"
  else match raw.parsed with
    | .error message => .error s!"payload is not valid JSON: {message}"
    | .ok (.obj fields) => match scan 0 (.obj fields) with
      | some bad => .error bad
      | none => .ok fields
    | .ok .null => .error "payload is null, expected a JSON object"
    | .ok (.arr _) => .error "payload is an array, expected a JSON object"
    | .ok (.bool _) => .error "payload is boolean, expected a JSON object"
    | .ok (.num _) => .error "payload is number, expected a JSON object"
    | .ok (.str _) => .error "payload is string, expected a JSON object"

/-- `content[key]`. -/
def fieldOf (content : List (String × Json)) (key : String) : Option Json :=
  (content.find? fun f => f.1 = key).map (·.2)

theorem fieldOf_set {content : List (String × Json)} {key key' : String} {v : Json} (hne : key' ≠ key) :
    fieldOf (Json.set content key v) key' = fieldOf content key' := by
  have hin : ∀ fields : List (String × Json),
      fieldOf (fields.map fun f => if f.1 = key then (key, v) else f) key' = fieldOf fields key' := by
    intro fields
    induction fields with
    | nil => rfl
    | cons f fs ih =>
      unfold fieldOf at ih ⊢
      by_cases hf : f.1 = key
      · have hf' : f.1 ≠ key' := fun h => hne (h.symm.trans hf)
        rw [List.map_cons, if_pos hf, List.find?_cons_of_neg (by simpa using hne.symm),
          List.find?_cons_of_neg (by simpa using hf')]
        exact ih
      · rw [List.map_cons, if_neg hf]
        by_cases hf' : f.1 = key'
        · rw [List.find?_cons_of_pos (by simpa using hf'), List.find?_cons_of_pos (by simpa using hf')]
        · rw [List.find?_cons_of_neg (by simpa using hf'), List.find?_cons_of_neg (by simpa using hf')]
          exact ih
  unfold Json.set
  split
  · exact hin content
  · simp [fieldOf, List.find?_append, Ne.symm hne]

/-! ### What a call reads -/

/-- A row of `messaging_groups`. -/
structure MessagingGroup where
  id : String
  channelType : String
  platformId : String
  isGroup : Bool
  deniedAt : Option String
  deriving DecidableEq, Repr

/-- A chat as the adapters address it. -/
structure Target where
  channelType : String
  platformId : String
  deriving DecidableEq, Repr

/-- The gateway's answer to `authorizeDm`, its target override included. -/
structure AuthorizeDmDecision where
  allow : Bool
  targetChannelType : Option String
  targetDmPlatformId : Option String
  deriving DecidableEq, Repr

/-- The tables, the configuration and the outside answers of one call. -/
structure HostEnv where
  now : ℕ
  /-- `deliveryAdapter` is set. -/
  adapter : Bool
  central : Central
  messagingGroups : List MessagingGroup
  rosterDmEnabledForGroup : String → Bool
  /-- The grants at the live check, and both tables at the reservation. -/
  grants : List DmGrantRow
  rosterAtReserve : Roster
  rosterGatewayAuthorityEnabled : Bool
  /-- For each group with a `backendGateway.baseUrl`: does it have a signing key? -/
  gateway : String → Option Bool
  authorizeDm : AuthorizeDmDecision
  rosterVerifyMembershipEnabled : Bool
  /-- The membership answer; `none` is unknown, or no group to ask about. -/
  stillMember : Option Bool
  deployQuota : DeployQuotaConfig
  /-- Persisting a pending question, and reading the outbox, may throw. -/
  pendingQuestion : Except String Unit
  outboxFiles : Except String Unit

def getMessagingGroupByPlatform (env : HostEnv) (channelType platformId : String) : Option MessagingGroup :=
  env.messagingGroups.find? fun mg => mg.channelType = channelType && mg.platformId = platformId

def hostScopeForSession (session : Session) : String := session.rootSessionId.getD session.id

/-- A prefix test that ignores ASCII case. -/
def startsWithIgnoringCase (s pre : String) : Bool :=
  (s.toList.map Char.toLower).take pre.length = pre.toList

def looksLikeRawPlatformId (value : Option String) : Bool :=
  truthy value &&
    ["feishu:", "ou_", "oc_", "p2p:", "chat:", "open_id:", "user:", "dm:", "group:"].any fun pre =>
      startsWithIgnoringCase (trim (value.getD "")) pre

/-- A container-written opt-in card, by its render type or by its payload. -/
def isForgedRosterOptInCard (content : List (String × Json)) : Bool :=
  Json.asString (fieldOf content "type") = some "roster_invite" ||
    match fieldOf content "optIn" with
    | some (.obj optIn) => Json.asString (fieldOf optIn "kind") = some "roster.optin"
    | _ => false

/-! ### Roster messages -/

def GrantReason.text : GrantReason → String
  | .noGrant => "no_grant"
  | .badConsentSource => "bad_consent_source"
  | .scopeMismatch => "scope_mismatch"
  | .revoked => "revoked"
  | .expired => "expired"
  | .maxSends => "max_sends"

def ReserveReason.text : ReserveReason → String
  | .maxSends => "max_sends"
  | .rateLimited => "rate_limited"
  | .deployDailyCap => "deploy_daily_cap"

/-- `reject`. -/
def reject {α : Type} (msg : OutboundMessage) (reason : String) : Except String α :=
  .error s!"roster-dm rejected ({reason}) for message {msg.id}"

def isRootSessionModeForRosterDm (env : HostEnv) (agentGroupId : String) : Except String Bool :=
  match getAgentGroup env.central agentGroupId with
  | none => .ok false
  | some g => g.a2aSessionMode.map fun m => decide (m.getD .agentShared = .rootSession)

/-- The slot the content names. -/
def slotOf (content : List (String × Json)) : Option String :=
  match fieldOf content "slot" with
  | some (.str slot) => if trim slot = "" then none else some (trim slot)
  | _ => none

/-- Gates 1 to 8: the live grant of the slot, with a target that is its participant. -/
def rosterGate (env : HostEnv) (session : Session) (msg : OutboundMessage)
    (content : List (String × Json)) : Except String DmGrantRow :=
  if !env.rosterDmEnabledForGroup session.agentGroupId then reject msg "flag_disabled"
  else match isRootSessionModeForRosterDm env session.agentGroupId with
  | .error e => .error e
  | .ok false => reject msg "agent_shared_mode"
  | .ok true =>
    if truthy msg.deliverAfter || truthy msg.recurrence then reject msg "scheduled_or_recurring"
    else match slotOf content with
    | none => reject msg "missing_slot"
    | some slot =>
      if looksLikeRawPlatformId msg.platformId then reject msg "raw_platform_id"
      else match checkGrantLive env.grants (hostScopeForSession session) slot env.now with
      | .error reason => reject msg reason.text
      | .ok grant => match getMessagingGroupByPlatform env grant.channelType grant.dmPlatformId with
        | none => reject msg "no_grant"
        | some mg =>
          if mg.isGroup then reject msg "not_p2p_open_id"
          else if grant.channelType ≠ "feishu" || !"ou_".toList.isPrefixOf grant.participantOpenId.toList ||
              s!"feishu:p2p:{grant.participantOpenId}" ≠ grant.dmPlatformId then
            reject msg "target_mismatch"
          else .ok grant

/-- Gate 8b: the grant's target, or the one the gateway gives where it is the authority. -/
def rosterTarget (env : HostEnv) (session : Session) (msg : OutboundMessage) (grant : DmGrantRow) :
    Except String Target :=
  let own : Target := ⟨grant.channelType, grant.dmPlatformId⟩
  if !env.rosterGatewayAuthorityEnabled || (getAgentGroup env.central session.agentGroupId).isNone then .ok own
  else match env.gateway session.agentGroupId with
    | none => .ok own
    | some false => reject msg "gateway_unsigned_authority"
    | some true =>
      let decision := env.authorizeDm
      if !decision.allow then reject msg "gateway_denied"
      else if !truthy decision.targetDmPlatformId then .ok own
      else
        let target : Target :=
          ⟨decision.targetChannelType.getD grant.channelType, decision.targetDmPlatformId.getD ""⟩
        -- the override is a known person's chat, like the grant's own target
        match getMessagingGroupByPlatform env target.channelType target.platformId with
        | none => reject msg "gateway_target_invalid"
        | some mg =>
          if target.channelType ≠ "feishu" || !startsWithIgnoringCase target.platformId "feishu:p2p:ou_" ||
              mg.isGroup then reject msg "gateway_target_invalid"
          else .ok target

/-- The send to account for. -/
def rosterSend (env : HostEnv) (session : Session) (msg : OutboundMessage) (grant : DmGrantRow) : Send :=
  { messageOutId := msg.id, grantId := grant.id,
    rateKeys := ⟨grant.id, hostScopeForSession session, grant.participantOpenId, env.deployQuota.key⟩,
    windows := { defaultRateWindows with deploy := env.deployQuota.window },
    deploy := env.deployQuota, now := env.now }

/-- The target of a roster row, when every gate passes and the send is reserved. -/
def deliverRosterMessage (env : HostEnv) (session : Session) (msg : OutboundMessage)
    (content : List (String × Json)) : Except String Target :=
  match rosterGate env session msg content with
  | .error e => .error e
  | .ok grant => match rosterTarget env session msg grant with
    | .error e => .error e
    | .ok target =>
      if env.rosterVerifyMembershipEnabled && env.stillMember = some false then reject msg "not_in_scope"
      else match (reserveRosterSend env.rosterAtReserve (rosterSend env session msg grant)).2 with
        | some (.ok _) => .ok target
        | some (.refused reason _) => reject msg reason.text
        | none => .error "Invalid time value"

/-! ### Any row -/

/-- What a call decides before it waits for an answer. -/
inductive Plan where
  /-- No adapter: nothing is sent and the call returns. -/
  | drop
  /-- `OutboundContractError`. -/
  | violation (reason : String)
  | throws (message : String)
  /-- To the handler of a system action. -/
  | system (content : List (String × Json))
  /-- To `routeAgentMessage`. -/
  | agent
  /-- Routing fields missing: nothing is sent and the call returns. -/
  | unrouted
  /-- To the adapter. -/
  | send (target : Target) (threadId : Option String)

/-- The destination check of a channel row. -/
def channelAcl (env : HostEnv) (session : Session) (msg : OutboundMessage) (channelType platformId : String) :
    Except String Unit :=
  if channelType = "feishu" && startsWithIgnoringCase platformId "feishu:p2p:" &&
      env.rosterDmEnabledForGroup session.agentGroupId then
    .error (s!"roster-dm: agent group {session.agentGroupId} attempted a direct p2p channel send to " ++
      s!"{platformId} while roster DM is enabled — use kind='roster' with a slot (ADR-0023)")
  else match getMessagingGroupByPlatform env channelType platformId with
    | none => .error s!"unknown messaging group for {channelType}/{platformId} (message {msg.id})"
    | some mg =>
      if session.messagingGroupId = some mg.id then .ok ()
      else if hasDestination env.central session.agentGroupId .channel mg.id then .ok ()
      else .error (s!"unauthorized channel destination: {session.agentGroupId} cannot send to " ++
        s!"{mg.channelType}/{mg.platformId}")

def deliverMessage (env : HostEnv) (session : Session) (msg : OutboundMessage) : Plan :=
  if !env.adapter then .drop
  else match parseOutboundContent msg.content with
  | .error reason => .violation reason
  | .ok content =>
    if msg.kind = .system then .system content
    else if msg.channelType = some "agent" then .agent
    else if msg.kind = .roster then
      match deliverRosterMessage env session msg content with
      | .error e => .throws e
      | .ok target => .send target none
    else if isForgedRosterOptInCard content then
      .throws (s!"roster-dm: refusing a container-authored roster opt-in card on a kind='{msg.kind.text}' row — " ++
        "opt-in cards are host-built only (ADR-0044); use invite_to_roster")
    else if truthy msg.channelType && truthy msg.platformId then
      let target : Target := ⟨msg.channelType.getD "", msg.platformId.getD ""⟩
      match channelAcl env session msg target.channelType target.platformId with
      | .error e => .throws e
      | .ok () => match env.pendingQuestion with
        | .error e => .throws e
        | .ok () => match env.outboxFiles with
          | .error e => .throws e
          | .ok () => .send target msg.threadId
    else match env.pendingQuestion with
      | .error e => .throws e
      | .ok () => .unrouted

/-! ### Where it sends -/

/-- The session may write to the chat: it is its own, or a channel destination of its agent group. -/
def MayWrite (env : HostEnv) (session : Session) (t : Target) : Prop :=
  ∃ mg, getMessagingGroupByPlatform env t.channelType t.platformId = some mg ∧
    (session.messagingGroupId = some mg.id ∨
      hasDestination env.central session.agentGroupId .channel mg.id = true)

/-- What a live grant of the session's scope resolves to: its own target, or the person's chat the
gateway names for it where the gateway is the authority. -/
def GrantTarget (env : HostEnv) (session : Session) (t : Target) : Prop :=
  ∃ slot grant, checkGrantLive env.grants (hostScopeForSession session) slot env.now = .ok grant ∧
    (t = ⟨grant.channelType, grant.dmPlatformId⟩ ∨
      (env.rosterGatewayAuthorityEnabled = true ∧ env.authorizeDm.allow = true ∧
        env.authorizeDm.targetDmPlatformId = some t.platformId ∧
        ∃ mg, getMessagingGroupByPlatform env t.channelType t.platformId = some mg ∧ mg.isGroup = false))

/-- The targets a session's rows may reach. -/
def Confined (env : HostEnv) (session : Session) (t : Target) : Prop :=
  MayWrite env session t ∨ GrantTarget env session t

theorem rosterGate_spec {env : HostEnv} {session : Session} {msg : OutboundMessage}
    {content : List (String × Json)} {grant : DmGrantRow}
    (h : rosterGate env session msg content = .ok grant) :
    (∃ slot, checkGrantLive env.grants (hostScopeForSession session) slot env.now = .ok grant) ∧
      grant.channelType = "feishu" := by
  unfold rosterGate reject at h
  split at h
  · cases h
  split at h
  · cases h
  · cases h
  split at h
  · cases h
  split at h
  · cases h
  rename_i slot _
  split at h
  · cases h
  split at h
  · cases h
  rename_i g hlive
  split at h
  · cases h
  split at h
  · cases h
  split at h
  · cases h
  rename_i hshape
  cases h
  simp only [Bool.or_eq_true, not_or] at hshape
  exact ⟨⟨slot, hlive⟩, by simpa using hshape.1.1⟩

theorem rosterTarget_cases {env : HostEnv} {session : Session} {msg : OutboundMessage} {grant : DmGrantRow}
    {t : Target} (h : rosterTarget env session msg grant = .ok t) :
    t = ⟨grant.channelType, grant.dmPlatformId⟩ ∨
      (t.channelType = "feishu" ∧ env.rosterGatewayAuthorityEnabled = true ∧ env.authorizeDm.allow = true ∧
        env.authorizeDm.targetDmPlatformId = some t.platformId ∧
        ∃ mg, getMessagingGroupByPlatform env t.channelType t.platformId = some mg ∧ mg.isGroup = false) := by
  unfold rosterTarget reject at h
  simp only at h
  split at h
  · cases h
    exact .inl rfl
  rename_i hauth
  split at h
  · cases h
    exact .inl rfl
  · cases h
  split at h
  · cases h
  rename_i hallow
  split at h
  · cases h
    exact .inl rfl
  rename_i hpid
  obtain ⟨pid, hp, -⟩ := truthy_iff.mp (by simpa using hpid)
  split at h
  · cases h
  rename_i mg hmg
  split at h
  · cases h
  rename_i hshape
  cases h
  simp only [Bool.or_eq_true, not_or] at hshape
  refine .inr ⟨by simpa using hshape.1.1, by simp_all, by simpa using hallow, by simp [hp], mg, hmg, ?_⟩
  simpa using hshape.2

/-- A roster row passes: its gates, the target's, the membership check and the reservation. -/
structure RosterPasses (env : HostEnv) (session : Session) (msg : OutboundMessage)
    (content : List (String × Json)) (grant : DmGrantRow) (target : Target) : Prop where
  gate : rosterGate env session msg content = .ok grant
  resolved : rosterTarget env session msg grant = .ok target
  member : ¬ (env.rosterVerifyMembershipEnabled = true ∧ env.stillMember = some false)
  reserved : ∃ fresh, (reserveRosterSend env.rosterAtReserve (rosterSend env session msg grant)).2 =
    some (.ok fresh)

theorem deliverRosterMessage_ok {env : HostEnv} {session : Session} {msg : OutboundMessage}
    {content : List (String × Json)} {target : Target} :
    deliverRosterMessage env session msg content = .ok target ↔
      ∃ grant, RosterPasses env session msg content grant target := by
  constructor
  · intro h
    unfold deliverRosterMessage reject at h
    split at h
    · cases h
    rename_i grant hgate
    split at h
    · cases h
    rename_i t ht
    split at h
    · cases h
    rename_i hmember
    split at h
    · rename_i fresh hreserve
      cases h
      exact ⟨grant, hgate, ht, by simpa using hmember, fresh, hreserve⟩
    · cases h
    · cases h
  · rintro ⟨grant, hp⟩
    obtain ⟨fresh, hreserve⟩ := hp.reserved
    have hmember : ¬ (env.rosterVerifyMembershipEnabled && decide (env.stillMember = some false)) = true := by
      simpa using hp.member
    unfold deliverRosterMessage
    simp only [hp.gate, hp.resolved, hreserve]
    rw [if_neg hmember]

theorem RosterPasses.feishu {env : HostEnv} {session : Session} {msg : OutboundMessage}
    {content : List (String × Json)} {grant : DmGrantRow} {target : Target}
    (h : RosterPasses env session msg content grant target) : target.channelType = "feishu" := by
  rcases rosterTarget_cases h.resolved with rfl | ⟨hfeishu, -⟩
  · exact (rosterGate_spec h.gate).2
  · exact hfeishu

theorem deliverRosterMessage_target {env : HostEnv} {session : Session} {msg : OutboundMessage}
    {content : List (String × Json)} {t : Target}
    (h : deliverRosterMessage env session msg content = .ok t) : GrantTarget env session t := by
  obtain ⟨grant, hp⟩ := deliverRosterMessage_ok.mp h
  obtain ⟨slot, hlive⟩ := (rosterGate_spec hp.gate).1
  refine ⟨slot, grant, hlive, ?_⟩
  rcases rosterTarget_cases hp.resolved with hown | ⟨-, hover⟩
  · exact .inl hown
  · exact .inr hover

theorem channelAcl_ok {env : HostEnv} {session : Session} {msg : OutboundMessage} {ct pid : String}
    (h : channelAcl env session msg ct pid = .ok ()) : MayWrite env session ⟨ct, pid⟩ := by
  unfold channelAcl at h
  split at h
  · cases h
  split at h
  · cases h
  rename_i mg hmg
  split at h
  · rename_i hown
    exact ⟨mg, hmg, .inl hown⟩
  split at h
  · rename_i hdest
    exact ⟨mg, hmg, .inr hdest⟩
  · cases h

/-- A channel row passes: it is no opt-in card by type or payload, it names a chat the session may write
to, and its question and its files are in order. -/
structure ChannelPasses (env : HostEnv) (session : Session) (msg : OutboundMessage)
    (content : List (String × Json)) : Prop where
  kind : msg.kind ≠ .system ∧ msg.kind ≠ .roster
  notAgent : msg.channelType ≠ some "agent"
  notForged : isForgedRosterOptInCard content = false
  routed : truthy msg.channelType = true ∧ truthy msg.platformId = true
  acl : channelAcl env session msg (msg.channelType.getD "") (msg.platformId.getD "") = .ok ()
  question : env.pendingQuestion = .ok ()
  files : env.outboxFiles = .ok ()

theorem deliverMessage_eq_send {env : HostEnv} {session : Session} {msg : OutboundMessage} {t : Target}
    {th : Option String} :
    deliverMessage env session msg = .send t th ↔
      env.adapter = true ∧ ∃ content, parseOutboundContent msg.content = .ok content ∧
        ((msg.kind = .roster ∧ msg.channelType ≠ some "agent" ∧
            deliverRosterMessage env session msg content = .ok t ∧ th = none) ∨
          (ChannelPasses env session msg content ∧
            t = ⟨msg.channelType.getD "", msg.platformId.getD ""⟩ ∧ th = msg.threadId)) := by
  constructor
  · intro h
    unfold deliverMessage at h
    split at h
    · cases h
    rename_i hadapter
    split at h
    · cases h
    rename_i content hcontent
    split at h
    · cases h
    rename_i hsys
    split at h
    · cases h
    rename_i hagent
    refine ⟨by simpa using hadapter, content, hcontent, ?_⟩
    split at h
    · rename_i hroster
      split at h
      · cases h
      · rename_i target hr
        cases h
        exact .inl ⟨hroster, hagent, hr, rfl⟩
    rename_i hroster
    split at h
    · cases h
    rename_i hforged
    split at h
    · rename_i hrouted
      simp only at h
      split at h
      · cases h
      rename_i hacl
      split at h
      · cases h
      rename_i hq
      split at h
      · cases h
      rename_i hf
      cases h
      have hpasses : ChannelPasses env session msg content :=
        ⟨⟨hsys, hroster⟩, hagent, by simpa using hforged, by simpa using hrouted, hacl, hq, hf⟩
      exact .inr ⟨hpasses, rfl, rfl⟩
    · split at h <;> cases h
  · rintro ⟨hadapter, content, hcontent, ⟨hroster, hagent, hr, rfl⟩ | ⟨hp, rfl, rfl⟩⟩
    · simp [deliverMessage, hadapter, hcontent, hroster, hagent, hr]
    · obtain ⟨hc, hpid⟩ := hp.routed
      simp [deliverMessage, hadapter, hcontent, hp.kind, hp.notAgent, hp.notForged, hc, hpid, hp.acl, hp.question,
        hp.files]

/-- **A delivery sends only where the session may.** -/
theorem deliverMessage_send {env : HostEnv} {session : Session} {msg : OutboundMessage} {t : Target}
    {th : Option String} (h : deliverMessage env session msg = .send t th) : Confined env session t := by
  obtain ⟨-, content, -, ⟨-, -, hr, -⟩ | ⟨hp, rfl, -⟩⟩ := deliverMessage_eq_send.mp h
  · exact .inr (deliverRosterMessage_target hr)
  · exact .inl (channelAcl_ok hp.acl)

end AgentDesk
