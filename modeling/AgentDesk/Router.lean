/-
# Inbound routing

`src/router.ts`: a channel event is shown to the interceptors, its chat is
looked up (or created, or wired to the front desk), its sender resolved, and
then every agent wired to the chat has its turn: it engages, passes the gates
and gets the message as a trigger, or gets it as silent context, or does not
get it. `routeInbound` around this keeps the event in the `inbound_ingress`
ledger (`src/db/inbound-ingress.ts`) while it is being routed.

A turn may throw; the loop over the agents catches that and goes on with the
next one. What the interceptors, the front desk's wiring and the permission
hooks do, and which database and file operations fail, is the call's
`RouteEnv`; the tables it works on are its `Desk`.

Key definitions: `Desk`, `RouteEnv`, `evaluateEngage`, `routeOneAgent`,
`fanOut`, `routeInboundInner`, `routeInbound`.
-/
import Mathlib.Data.List.Sort
import AgentDesk.Ingress
import AgentDesk.Delivery
import AgentDesk.Table

namespace AgentDesk

open Js

/-! ### The event -/

structure DeliveryAddress where
  channelType : String
  platformId : String
  threadId : Option String

/-- An event of a channel adapter; `raw` is the message's content, `content` what it parses to. -/
structure InboundEvent where
  channelType : String
  platformId : String
  threadId : Option String
  id : String
  kind : MessageKind
  raw : String
  content : Content
  isMention : Bool
  isGroup : Bool
  replyTo : Option DeliveryAddress

/-- A property of `safeParseContent(content)`: content that does not parse is its own text, and
content that parses to `null` throws at the first read. -/
def InboundEvent.field (e : InboundEvent) (key : String) : Except String (Option Json) :=
  match e.content with
  | none => .ok (if key = "text" then some (.str e.raw) else none)
  | some parsed => match parsed.get key with
    | .error _ => .error s!"TypeError: Cannot read properties of null (reading {key})"
    | .ok (some .null) => .ok none
    | .ok v => .ok v

/-! ### The command gate -/

inductive Role where
  | owner | admin
  | other (text : String)
  deriving DecidableEq, Repr

/-- A row of `user_roles`. -/
structure UserRole where
  userId : String
  role : Role
  agentGroupId : Option String

/-- `user_roles`, if the permissions module made it, and `ALLOW_ADMIN_WITHOUT_ROLES`. -/
structure CommandRoles where
  userRoles : Option (List UserRole)
  adminWithoutRolesAllowed : Bool

def filteredCommands : List String := ["/help", "/login", "/logout", "/doctor", "/config", "/remote-control"]

def adminCommands : List String := ["/clear", "/compact", "/context", "/cost", "/files"]

def isAdmin (c : CommandRoles) (userId : Option String) (agentGroupId : String) : Bool :=
  if !truthy userId then false
  else match c.userRoles with
    | none => c.adminWithoutRolesAllowed
    | some rows => rows.any fun r => some r.userId = userId && (r.role = .owner || r.role = .admin) &&
        (r.agentGroupId = none || r.agentGroupId = some agentGroupId)

/-- `(parsed.text || '').trim()`, or the trimmed content where that throws. -/
def commandText (raw : String) (content : Content) : String :=
  match content with
  | none => trim raw
  | some parsed => match parsed.get "text" with
    | .ok (some (.str s)) => trim s
    | .ok none | .ok (some .null) | .ok (some (.bool false)) => ""
    | .ok (some (.num n)) => if n = 0 then "" else trim raw
    -- a property of `null`, or `trim` of a value that is not a string
    | _ => trim raw

/-- What may reach the container. The commands are ASCII, so that lowering ASCII letters decides
membership as `toLowerCase` does. -/
def gateCommand (c : CommandRoles) (raw : String) (content : Content) (userId : Option String)
    (agentGroupId : String) : GateResult :=
  let text := (commandText raw content).toList
  if text.head? ≠ some '/' then .pass
  else
    let command := String.ofList ((text.takeWhile fun ch => !isSpace ch).map Char.toLower)
    if command ∈ filteredCommands then .filter
    else if command ∈ adminCommands then
      if isAdmin c userId agentGroupId then .pass else .deny command
    else .pass

/-! ### Wirings and the tables -/

inductive EngageMode where
  | pattern | mention | mentionSticky
  deriving DecidableEq, Repr

/-- A row of `messaging_group_agents`. The engage mode has no default in the database. -/
structure MessagingGroupAgent where
  messagingGroupId : String
  agentGroupId : String
  engageMode : Option EngageMode
  engagePattern : Option String
  accumulate : Bool
  sessionMode : SessionMode
  priority : ℤ

inductive DropReason where
  | noAgentWired | noAgentEngaged
  deriving DecidableEq, Repr

/-- A call of `recordDroppedMessage`. -/
structure DroppedMessage where
  channelType : String
  platformId : String
  userId : Option String
  senderName : Option Json
  reason : DropReason
  messagingGroupId : String

/-- The tables the router works on, with the keys the schema gives them. -/
structure Desk where
  world : World
  central : Central
  messagingGroups : List MessagingGroup
  wirings : List MessagingGroupAgent
  dropped : List DroppedMessage
  sessionKeys : (world.sessions.map (·.id)).Nodup
  wiringKeys : (wirings.map fun m => (m.messagingGroupId, m.agentGroupId)).Nodup

def getMessagingGroupWithAgentCount (h : Desk) (channelType platformId : String) :
    Option (MessagingGroup × ℕ) :=
  (h.messagingGroups.find? fun m => m.channelType = channelType && m.platformId = platformId).map
    fun mg => (mg, (h.wirings.filter fun m => m.messagingGroupId = mg.id).length)

/-- `ORDER BY priority DESC`. -/
def getMessagingGroupAgents (h : Desk) (messagingGroupId : String) : List MessagingGroupAgent :=
  (h.wirings.filter fun m => m.messagingGroupId = messagingGroupId).insertionSort
    fun a b => b.priority ≤ a.priority

/-! ### What the outside gives a call -/

/-- The outside of one agent's turn: whether its reads of the central database, the audit of a
denied command and the steps after the write throw, and what clock, random and files give. -/
structure AgentTurn where
  reads : Except String Unit
  draw : Draw
  io : Io
  now : ℕ
  rand : String
  auditDenial : Except String Unit
  afterWrite : Except String Unit

/-- The outside of a call. `supportsThreads` is the adapter's, `none` without an adapter; the hooks
are null when their module is not installed; `regExpTest` is `none` for a pattern that does not
compile. An interceptor and the front desk's wiring may change the tables. -/
structure RouteEnv where
  supportsThreads : Option Bool
  interceptors : List (InboundEvent → Desk → Desk × Except String Bool)
  maybeAutowire : MessagingGroup → InboundEvent → Desk → Desk × Except String Bool
  senderResolver : Option (InboundEvent → Except String (Option String))
  accessGate : Option (InboundEvent → Option String → MessagingGroup → String → Except String Bool)
  senderScopeGate : Option (InboundEvent → Option String → MessagingGroup → MessagingGroupAgent →
    Except String Bool)
  regExpTest : String → Json → Option Bool
  roles : CommandRoles
  now : ℕ
  rand : String
  readGroup : Except String Unit
  readAgents : Except String Unit
  recordDrop : Except String Unit
  turn : String → AgentTurn

/-! ### Up to the fan-out -/

/-- The first interceptor to claim the event consumes it; one that throws has not claimed it. -/
def runInterceptors (event : InboundEvent) :
    List (InboundEvent → Desk → Desk × Except String Bool) → Desk → Desk × Bool
  | [], h => (h, false)
  | f :: fs, h => match f event h with
    | (h', .ok true) => (h', true)
    | (h', _) => runInterceptors event fs h'

/-- Non-threaded adapters collapse threads to the channel. -/
def RouteEnv.collapse (env : RouteEnv) (event : InboundEvent) : InboundEvent :=
  if env.supportsThreads = some false then { event with threadId := none } else event

/-- The row the router makes for a chat it is addressed in for the first time. -/
def RouteEnv.newGroup (env : RouteEnv) (event : InboundEvent) : MessagingGroup :=
  { id := s!"mg-{env.now}-{env.rand}", channelType := event.channelType, platformId := event.platformId
    isGroup := event.isGroup, deniedAt := none }

/-- The chat's row and how many agents are wired to it, before the front desk's second chance;
`none` for plain chatter in an unknown chat. -/
def RouteEnv.findGroup (env : RouteEnv) (event : InboundEvent) (h : Desk) :
    Desk × Except String (Option (MessagingGroup × ℕ)) :=
  match env.readGroup with
  | .error e => (h, .error e)
  | .ok _ => match getMessagingGroupWithAgentCount h event.channelType event.platformId with
    | some found => (h, .ok (some found))
    | none =>
      if !event.isMention then (h, .ok none)
      else
        let mg := env.newGroup event
        if h.messagingGroups.any fun m => m.id = mg.id then
          (h, .error "UNIQUE constraint failed: messaging_groups.id")
        else match env.maybeAutowire mg event { h with messagingGroups := h.messagingGroups ++ [mg] } with
          | (h', .error e) => (h', .error e)
          | (h', .ok wired) => (h', .ok (some (mg, if wired then 1 else 0)))

/-- What the fan-out works with. -/
structure Route where
  event : InboundEvent
  mg : MessagingGroup
  userId : Option String
  agents : List MessagingGroupAgent
  messageText : Json

def RouteEnv.recordDroppedMessage (env : RouteEnv) (h : Desk) (event : InboundEvent)
    (userId : Option String) (reason : DropReason) (mg : MessagingGroup) : Desk × Except String Unit :=
  match event.field "sender" with
  | .error e => (h, .error e)
  | .ok senderName => match env.recordDrop with
    | .error e => (h, .error e)
    | .ok _ => ({ h with dropped := h.dropped ++ [{ channelType := event.channelType
                                                    platformId := event.platformId, userId, senderName
                                                    reason, messagingGroupId := mg.id }] }, .ok ())

/-- The chat has an agent: resolve the sender and fetch the wirings. -/
def RouteEnv.withAgents (env : RouteEnv) (event : InboundEvent) (mg : MessagingGroup) (h : Desk) :
    Except String Route :=
  (match env.senderResolver with
    | some resolve => resolve event
    | none => .ok none) >>= fun userId =>
  env.readAgents >>= fun _ =>
  event.field "text" >>= fun text =>
  .ok { event, mg, userId, agents := getMessagingGroupAgents h mg.id, messageText := text.getD (.str "") }

/-- `routeInboundInner` up to the loop over the agents: what to fan out, `none` when the event ends here. -/
def RouteEnv.route (env : RouteEnv) (event : InboundEvent) (h : Desk) : Desk × Except String (Option Route) :=
  match runInterceptors event env.interceptors h with
  | (h, true) => (h, .ok none)
  | (h, false) =>
    let event := env.collapse event
    match env.findGroup event h with
    | (h, .error e) => (h, .error e)
    | (h, .ok none) => (h, .ok none)
    | (h, .ok (some (mg, agentCount))) =>
      match (if agentCount = 0 then env.maybeAutowire mg event h else (h, .ok true)) with
      | (h, .error e) => (h, .error e)
      | (h, .ok true) => (h, (env.withAgents event mg h).map some)
      | (h, .ok false) =>
        if !event.isMention || truthy mg.deniedAt then (h, .ok none)
        else match env.recordDroppedMessage h event none .noAgentWired mg with
          | (h, .error e) => (h, .error e)
          | (h, .ok _) => (h, .ok none)

/-! ### One agent's turn -/

def resolveEffectiveSessionMode (sessionMode : SessionMode) (adapterSupportsThreads isGroupChat : Bool) :
    SessionMode :=
  if !adapterSupportsThreads || !isGroupChat then sessionMode
  else match sessionMode with
    | .agentShared | .perThread | .perUserPerThread => sessionMode
    | .perUser => .perUserPerThread
    | .shared => .perThread

/-- Is there a session of this routing scope, which an earlier mention opened? -/
def stickySession (db : List Session) (agentGroupId mgId : String) (threadId : Option String)
    (mode : SessionMode) (userId : Option String) : Bool :=
  match mode with
  | .agentShared => (findSessionByAgentGroup db agentGroupId).isSome
  | .perUser => owned none
  | .perUserPerThread => owned threadId
  | .shared => (findSessionForAgent db agentGroupId mgId none).isSome
  | .perThread => (findSessionForAgent db agentGroupId mgId threadId).isSome
where
  owned (lookupThreadId : Option String) : Bool :=
    match userId with
    | some u => u ≠ "" && (findSessionForAgentOwner db agentGroupId mgId u lookupThreadId).isSome
    | none => false

def evaluateEngage (env : RouteEnv) (r : Route) (db : List Session) (agent : MessagingGroupAgent)
    (effectiveSessionMode : SessionMode) : Bool :=
  match agent.engageMode with
  | some .pattern =>
    let pat := agent.engagePattern.getD "."
    -- a pattern that does not compile keeps the agent silent
    if pat = "." then true else (env.regExpTest pat r.messageText).getD false
  | some .mention => r.event.isMention
  | some .mentionSticky =>
    if r.event.isMention then true
    else if !r.mg.isGroup then false
    else stickySession db agent.agentGroupId r.mg.id r.event.threadId effectiveSessionMode r.userId
  | none => false

def messageIdForAgent (t : AgentTurn) (baseId agentGroupId : String) : String :=
  let id := if baseId ≠ "" then baseId else s!"msg-{t.now}-{t.rand}"
  s!"{id}:{agentGroupId}"

/-- The effective mode of a wiring in this chat. -/
def RouteEnv.mode (env : RouteEnv) (r : Route) (agent : MessagingGroupAgent) : SessionMode :=
  resolveEffectiveSessionMode agent.sessionMode (env.supportsThreads = some true) r.mg.isGroup

/-- The call of `deliverToAgent` a turn makes. -/
def RouteEnv.delivery (env : RouteEnv) (r : Route) (agent : MessagingGroupAgent) (wake : Bool) : Delivery :=
  let addr := r.event.replyTo.getD ⟨r.event.channelType, r.event.platformId, r.event.threadId⟩
  let t := env.turn agent.agentGroupId
  { agentGroupId := agent.agentGroupId, messagingGroupId := r.mg.id, threadId := r.event.threadId
    effectiveSessionMode := env.mode r agent, userId := r.userId
    messageId := messageIdForAgent t r.event.id agent.agentGroupId, kind := r.event.kind
    platformId := some addr.platformId, channelType := some addr.channelType, replyThreadId := addr.threadId
    content := r.event.content, wake
    gate := gateCommand env.roles r.event.raw r.event.content r.userId agent.agentGroupId
    auditDenial := t.auditDenial, afterWrite := t.afterWrite }

inductive TurnResult where
  | engaged | accumulated | dropped | noAgentGroup
  deriving DecidableEq, Repr

/-- `engagedCount` and `accumulatedCount` are only ever added up. -/
def TurnResult.counted : Except String TurnResult → Bool
  | .ok .engaged | .ok .accumulated => true
  | _ => false

theorem World.deliverToAgent_keys {w : World} (hw : (w.sessions.map (·.id)).Nodup) (d : Draw) (io : Io)
    (x : Delivery) : ((w.deliverToAgent d io x).1.sessions.map (·.id)).Nodup := by
  generalize hr : w.deliverToAgent d io x = r
  obtain ⟨w', e⟩ := r
  obtain ⟨db, hdb, hw'⟩ := World.deliverToAgent_cases hr
  have hsess : w'.sessions = db := by
    rcases hw' with rfl | ⟨_, _, _, -, rfl⟩ <;> rfl
  simp only [hsess]
  rcases hdb with rfl | ⟨rfl, hfresh, -⟩
  · exact hw
  · rw [List.map_append, List.nodup_append]
    refine ⟨hw, by simp, fun a ha b hb => ?_⟩
    obtain ⟨s, hs, rfl⟩ := List.mem_map.mp ha
    have hb' : b = generateId d.now d.rand := by
      simpa [Delivery.newSession, newSession] using hb
    rw [hb']
    exact hfresh s hs

/-- `deliverToAgent`, on the tables. -/
def RouteEnv.deliverToAgent (env : RouteEnv) (r : Route) (h : Desk) (agent : MessagingGroupAgent)
    (wake : Bool) : Desk × Except String Unit :=
  let t := env.turn agent.agentGroupId
  let d := h.world.deliverToAgent t.draw t.io (env.delivery r agent wake)
  ({ h with world := d.1, sessionKeys := World.deliverToAgent_keys h.sessionKeys _ _ _ }, d.2)

/-- The gates' verdicts, in the order they are asked; a gate not installed allows. -/
def RouteEnv.accessVerdict (env : RouteEnv) (r : Route) (agent : MessagingGroupAgent) : Except String Bool :=
  match env.accessGate with
  | some gate => gate r.event r.userId r.mg agent.agentGroupId
  | none => .ok true

def RouteEnv.scopeVerdict (env : RouteEnv) (r : Route) (agent : MessagingGroupAgent) : Except String Bool :=
  match env.senderScopeGate with
  | some gate => gate r.event r.userId r.mg agent
  | none => .ok true

def RouteEnv.sessionIdentityOk (env : RouteEnv) (r : Route) (agent : MessagingGroupAgent) : Bool :=
  !isUserScopedSessionMode (env.mode r agent) || r.userId.isSome

/-- `engages && sessionIdentityOk && …`, then `engages && …`: an agent that does not engage asks no gate. -/
def RouteEnv.gates (env : RouteEnv) (r : Route) (agent : MessagingGroupAgent) (engages : Bool) :
    Except String (Bool × Bool) :=
  (if engages && env.sessionIdentityOk r agent then env.accessVerdict r agent else .ok false) >>= fun accessOk =>
  (if engages then env.scopeVerdict r agent else .ok false) >>= fun scopeOk =>
  .ok (accessOk, scopeOk)

def RouteEnv.engages (env : RouteEnv) (r : Route) (h : Desk) (agent : MessagingGroupAgent) : Bool :=
  evaluateEngage env r h.world.sessions agent (env.mode r agent)

def RouteEnv.routeOneAgent (env : RouteEnv) (r : Route) (h : Desk) (agent : MessagingGroupAgent) :
    Desk × Except String TurnResult :=
  match (env.turn agent.agentGroupId).reads with
  | .error e => (h, .error e)
  | .ok _ =>
    if (getAgentGroup h.central agent.agentGroupId).isNone then (h, .ok .noAgentGroup)
    else
      let engages := env.engages r h agent
      match env.gates r agent engages with
      | .error e => (h, .error e)
      | .ok (accessOk, scopeOk) =>
        if engages && accessOk && scopeOk then
          let d := env.deliverToAgent r h agent true
          (d.1, d.2.map fun _ => .engaged)
        else if env.sessionIdentityOk r agent && agent.accumulate &&
            !(engages && (!accessOk || !scopeOk)) then
          let d := env.deliverToAgent r h agent false
          (d.1, d.2.map fun _ => .accumulated)
        else (h, .ok .dropped)

/-! ### The fan-out and the ledger -/

/-- Every agent has its turn, whatever happens in the others'; how many of them were counted. -/
def RouteEnv.fanOut (env : RouteEnv) (r : Route) : Desk → List MessagingGroupAgent → Desk × ℕ
  | h, [] => (h, 0)
  | h, agent :: agents =>
    let t := env.routeOneAgent r h agent
    let rest := env.fanOut r t.1 agents
    (rest.1, rest.2 + if TurnResult.counted t.2 then 1 else 0)

def RouteEnv.routeInboundInner (env : RouteEnv) (event : InboundEvent) (h : Desk) :
    Desk × Except String Unit :=
  match env.route event h with
  | (h, .error e) => (h, .error e)
  | (h, .ok none) => (h, .ok ())
  | (h, .ok (some r)) =>
    let f := env.fanOut r h r.agents
    if f.2 = 0 then env.recordDroppedMessage f.1 r.event r.userId .noAgentEngaged r.mg
    else (f.1, .ok ())

inductive IngressStatus where
  | received | failed
  deriving DecidableEq, Repr

/-- A row of `inbound_ingress`; `message` is the stored envelope. -/
structure IngressRow where
  id : String
  channelType : String
  platformId : String
  threadId : Option String
  message : InboundEvent
  status : IngressStatus
  attempts : ℕ
  lastError : Option String

/-- The ledger's side of a call: the option, `INGRESS_DURABILITY` as it resolves, the drawn id, and
which of the three writes throw. -/
structure IngressCall where
  persistIngress : Option Bool
  durability : String
  insert : Except String String
  delete : Except String Unit
  markFailed : Except String Unit

def IngressCall.ingressDurabilityEnabled (c : IngressCall) : Bool :=
  let raw := String.ofList ((trim c.durability).toList.map Char.toLower)
  !(raw = "off" || raw = "0" || raw = "false")

def newIngress (id : String) (event : InboundEvent) : IngressRow :=
  { id, channelType := event.channelType, platformId := event.platformId, threadId := event.threadId
    message := event, status := .received, attempts := 0, lastError := none }

/-- The id of the row the call holds: none when it asks for none, or when the insert fails. -/
def IngressCall.ingressId (c : IngressCall) (ledger : List IngressRow) : Option String :=
  if c.persistIngress ≠ some false && c.ingressDurabilityEnabled then
    match c.insert with
    | .ok id => if ledger.any fun row => row.id = id then none else some id
    | .error _ => none
  else none

def deleteIngress (ledger : List IngressRow) (id : String) : List IngressRow :=
  Table.delete (·.id) ledger id

def markIngressFailed (ledger : List IngressRow) (id error : String) : List IngressRow :=
  Table.update (·.id) ledger id fun row =>
    { row with status := .failed, attempts := row.attempts + 1
               lastError := some (String.ofList (takeUnits 2000 error.toList)) }

/-- The ledger after the routing, when the call holds the row `id`. -/
def IngressCall.settle (c : IngressCall) (ledger : List IngressRow) (id : String) :
    Except String Unit → List IngressRow
  | .ok _ => match c.delete with
    | .ok _ => deleteIngress ledger id
    | .error _ => ledger
  | .error e => match c.markFailed with
    | .ok _ => markIngressFailed ledger id e
    | .error _ => ledger

def RouteEnv.routeInbound (env : RouteEnv) (c : IngressCall) (event : InboundEvent) (h : Desk)
    (ledger : List IngressRow) : Desk × List IngressRow × Except String Unit :=
  let inner := env.routeInboundInner event h
  match c.ingressId ledger with
  | none => (inner.1, ledger, inner.2)
  | some id => (inner.1, c.settle (ledger ++ [newIngress id event]) id inner.2, inner.2)

end AgentDesk
