/-
# Agent-to-agent routing

`src/modules/agent-to-agent/agent-route.ts`: a container's outbound row with
`channel_type = 'agent'` is copied into the inbound database of a session of
the target agent group. `resolveTargetSession` picks that session (the return
path of a reply, then the lane of the source's root or owner, then a new one);
`routeAgentMessage` checks the edge, picks the session, settles the origin user
and writes the row.

The row (`RoutableAgentMessage`) is container-written: every field of it is
arbitrary. What the central database holds about agent groups and destinations
at the call is its `Central`.

* `resolveTargetSession_resolved`, `routeAgentMessage_cases`: everything a call
  can do to the world.
-/
import AgentDesk.Inbound

namespace AgentDesk

open Js

/-- `a2aSessionMode` of a group's container.json. -/
inductive A2aSessionMode where
  | agentShared | rootSession
  deriving DecidableEq, Repr

/-- An agent group, with what `readContainerConfig` gives for its folder. -/
structure AgentGroup where
  id : String
  organizationId : Option String
  a2aSessionMode : Except String (Option A2aSessionMode)

inductive TargetType where
  | channel | agent
  deriving DecidableEq, Repr

/-- A row of `agent_destinations`. -/
structure AgentDestination where
  agentGroupId : String
  targetType : TargetType
  targetId : String
  deriving DecidableEq, Repr

/-- The central tables a call reads, and `AGENTDESK_MAX_SPAWN_DEPTH` as `parseInt` reads it. -/
structure Central where
  agentGroups : List AgentGroup
  destinations : List AgentDestination
  maxSpawnDepthEnv : Option ℤ

def getAgentGroup (c : Central) (id : String) : Option AgentGroup :=
  c.agentGroups.find? fun g => g.id = id

def hasDestination (c : Central) (agentGroupId : String) (targetType : TargetType) (targetId : String) :
    Bool :=
  c.destinations.any fun r =>
    r.agentGroupId = agentGroupId && r.targetType = targetType && r.targetId = targetId

def orgOfAgentGroup (c : Central) (id : String) : Option String :=
  (getAgentGroup c id).bind (·.organizationId)

/-- The cap on the spawn depth: 2 unless the environment sets a positive number. -/
def resolveMaxSpawnDepth (c : Central) : ℕ :=
  match c.maxSpawnDepthEnv with
  | some n => if n < 1 then 2 else n.toNat
  | none => 2

def getTargetA2aSessionMode (c : Central) (target : String) : Except String A2aSessionMode :=
  match getAgentGroup c target with
  | none => .ok .agentShared
  | some g => g.a2aSessionMode.map fun m => m.getD .agentShared

/-- The container-written row. -/
structure RoutableAgentMessage where
  id : String
  platformId : Option String
  content : Content
  inReplyTo : Option String
  originUserId : Option String

/-! ### Picking the target session -/

/-- The session the reply anchor names: the source of the row replied to, else
of the peer's latest row. -/
def originSessionId (rows : List MessageIn) (msg : RoutableAgentMessage) (target : String) :
    Option String :=
  let direct := match msg.inReplyTo with
    | some m => if m ≠ "" then getInboundSourceSessionId rows m else none
    | none => none
  if truthy direct then direct else getMostRecentPeerSourceSessionId rows target

/-- The anchored session, if it is an active session of the target and does not
belong to another user. -/
def returnPath (db : List Session) (src : Session) (target : String) (origin : Option String) :
    Option Session :=
  match origin with
  | none => none
  | some o =>
    if o = "" then none
    else (getSession db o).filter fun c =>
      c.agentGroupId = target && c.status = .active &&
        !(src.ownerUserId.isSome && c.ownerUserId.isSome && src.ownerUserId ≠ c.ownerUserId)

/-- The lane of the source on the target, when no anchor is honoured. -/
def resolveLane (c : Central) (d : Draw) (db : List Session) (src : Session) (target : String) :
    List Session × Except String (Session × Bool) :=
  let rootSessionId := some (src.rootSessionId.getD src.id)
  match getTargetA2aSessionMode c target with
  | .error e => (db, .error e)
  | .ok .rootSession =>
    resolveSession db d target none none .agentShared src.ownerUserId rootSessionId (some src.spawnDepth)
  | .ok .agentShared =>
    match src.ownerUserId with
    | some owner =>
      if owner = "" then
        resolveSession db d target none none .agentShared none none (some src.spawnDepth)
      else match findNewestOwnedSessionForAgent db target owner with
        | some sameOwner => (db, .ok (sameOwner, false))
        | none => match findNewestOwnerlessSessionForAgent db target with
          | some sharedLane => (db, .ok (sharedLane, false))
          | none =>
            resolveSession db d target none none .agentShared (some owner) rootSessionId
              (some src.spawnDepth)
    | none => resolveSession db d target none none .agentShared none none (some src.spawnDepth)

def resolveTargetSession (c : Central) (d : Draw) (w : World) (msg : RoutableAgentMessage)
    (src : Session) (target : String) : List Session × Except String (Session × Bool) :=
  match returnPath w.sessions src target (originSessionId (w.messagesIn src.id) msg target) with
  | some candidate => (w.sessions, .ok (candidate, false))
  | none => resolveLane c d w.sessions src target

/-! ### Routing -/

/-- Merge the copied files into the content's attachments. -/
def forwardFileAttachments (io : Io) (content : Content) : Except String Content :=
  match content with
  | none => .ok none
  | some parsed => match parsed, parsed.get "files" with
    | .obj fields, .ok (some (.arr files)) =>
      let filenames := files.filterMap fun f => Json.asString (some f)
      if filenames = [] then .ok content
      else match io.forwardAttachedFiles filenames with
        | .error e => .error e
        | .ok attachments =>
          let existing := match parsed.get "attachments" with
            | .ok (some (.arr l)) => l
            | _ => []
          .ok (some (.obj (Json.set fields "attachments" (.arr (existing ++ attachments)))))
    | _, .error _ => .error "Cannot read properties of null (reading 'files')"
    | _, _ => .ok content

/-- The origin user of a hop: the container's claim if it is one of the source
session's identities, else the sender of its latest chat row, else its owner. -/
def originUserId (rows : List MessageIn) (msg : RoutableAgentMessage) (src : Session) : Option String :=
  let accepted := match msg.originUserId with
    | some claimed =>
      if claimed ≠ "" ∧ claimed ∈ collectLegitimateOrigins rows then some claimed else none
    | none => none
  let found := if truthy accepted then accepted else resolveOriginUserId rows
  if truthy found then found else src.ownerUserId

/-- The checks before anything is read or written; the target agent group. -/
def checkEdge (c : Central) (msg : RoutableAgentMessage) (session : Session) : Except String String :=
  match msg.platformId with
  | none => .error s!"agent-to-agent message {msg.id} is missing a target agent group id"
  | some target =>
    let self := session.agentGroupId
    if target = "" then .error s!"agent-to-agent message {msg.id} is missing a target agent group id"
    else if target ≠ self && !hasDestination c self .agent target then
      .error s!"unauthorized agent-to-agent: {self} has no destination for {target}"
    else if (getAgentGroup c target).isNone then
      .error s!"target agent group {target} not found for message {msg.id}"
    else if target ≠ self && (orgOfAgentGroup c self).isSome && (orgOfAgentGroup c target).isSome &&
        orgOfAgentGroup c self ≠ orgOfAgentGroup c target then
      let srcOrg := (orgOfAgentGroup c self).getD ""
      let dstOrg := (orgOfAgentGroup c target).getD ""
      .error s!"cross-org agent-to-agent refused (ADR-0052): {self}[{srcOrg}] → {target}[{dstOrg}]"
    else if target ≠ self && decide (resolveMaxSpawnDepth c ≤ session.spawnDepth) then
      let cap := resolveMaxSpawnDepth c
      .error (s!"spawn-depth cap exceeded: source {self} session {session.id} is at depth " ++
        s!"{session.spawnDepth}, AGENTDESK_MAX_SPAWN_DEPTH={cap}")
    else .ok target

/-- The row a hop writes. -/
def a2aMessage (a2aMsgId : String) (rows : List MessageIn) (msg : RoutableAgentMessage) (session : Session)
    (content : Content) : NewMessage :=
  { id := a2aMsgId, kind := .chat, platformId := some session.agentGroupId, channelType := some "agent"
    threadId := none, content, trigger := true, sourceSessionId := some session.id
    originUserId := originUserId rows msg session
    conversationThreadId := latestConversationThreadId rows }

/-- Carry the conversation thread onto the target's session row. -/
def setSessionConversationThreadId (db : List Session) (sessionId : String) (conv : String) : List Session :=
  db.map fun s => if s.id = sessionId then { s with conversationThreadId := some conv } else s

/-- Route one row of `session`. The world after the call, and the session and
row it wrote or the error it threw; a session created before a throw stays. -/
def routeAgentMessage (c : Central) (d : Draw) (io : Io) (a2aMsgId : String) (w : World)
    (msg : RoutableAgentMessage) (session : Session) : World × Except String (Session × MessageIn) :=
  match checkEdge c msg session with
  | .error e => (w, .error e)
  | .ok target =>
    match resolveTargetSession c d w msg session target with
    | (db, .error e) => (w.withSessions db, .error e)
    | (db, .ok (targetSession, _)) =>
      match forwardFileAttachments io msg.content with
      | .error e => (w.withSessions db, .error e)
      | .ok content =>
        let m := a2aMessage a2aMsgId (w.messagesIn session.id) msg session content
        match (w.withSessions db).writeSessionMessage io targetSession.id m with
        | (w', .error e) => (w', .error e)
        | (w', .ok row) =>
          match m.conversationThreadId with
          | some conv =>
            if conv = "" then (w', .ok (targetSession, row))
            else ({ w' with sessions := setSessionConversationThreadId w'.sessions targetSession.id conv },
              .ok (targetSession, row))
          | none => (w', .ok (targetSession, row))

/-! ### What a call can do -/

/-- How a target that already existed was found. -/
inductive Found (src t : Session) : Prop
  /-- The anchored session, or the same user's or a shared lane. -/
  | checked : (src.ownerUserId = none ∨ t.ownerUserId = none ∨ t.ownerUserId = src.ownerUserId) →
      Found src t
  /-- A session of the source's root. -/
  | root : t.rootSessionId = some (src.rootSessionId.getD src.id) → Found src t
  /-- An ownerless source takes the newest session of the target. -/
  | ownerless : truthy src.ownerUserId = false → Found src t

/-- The row a hop creates on a target: in the source's lane, with its owner; or
in a lane of its own, for an ownerless source. -/
def Created (d : Draw) (src t : Session) (target : String) : Prop :=
  t = newSession d target none none .agentShared src.ownerUserId (some (src.rootSessionId.getD src.id))
      (some src.spawnDepth) ∨
  (truthy src.ownerUserId = false ∧
    t = newSession d target none none .agentShared none none (some src.spawnDepth))

theorem returnPath_spec {db : List Session} {src c : Session} {target : String} {origin : Option String}
    (h : returnPath db src target origin = some c) :
    c ∈ db ∧ c.agentGroupId = target ∧ Found src c := by
  unfold returnPath at h
  split at h
  · cases h
  · split at h
    · cases h
    · obtain ⟨hg, hc⟩ := Option.filter_eq_some_iff.mp h
      obtain ⟨hm, -⟩ := find_spec hg
      simp only [Bool.and_eq_true, decide_eq_true_eq, Bool.not_eq_true'] at hc
      refine ⟨hm, hc.1.1, .checked ?_⟩
      have hcross := hc.2
      cases hs : src.ownerUserId with
      | none => exact .inl rfl
      | some u =>
        cases ht : c.ownerUserId with
        | none => exact .inr (.inl rfl)
        | some v =>
          simp only [hs, ht, Option.isSome_some, Bool.true_and, decide_eq_false_iff_not,
            not_not] at hcross
          exact .inr (.inr hcross.symm)

/-- What resolving a target can do to the table: nothing, and the session
returned is one of it; or it appends the session returned. -/
def Resolved (d : Draw) (db : List Session) (src : Session) (target : String) (db' : List Session)
    (r : Except String (Session × Bool)) : Prop :=
  (db' = db ∧ ∀ t b, r = .ok (t, b) → t ∈ db ∧ t.agentGroupId = target ∧ Found src t) ∨
  (∃ t, db' = db ++ [t] ∧ Created d src t target ∧ (∀ s ∈ db, s.id ≠ generateId d.now d.rand) ∧
    ∀ t' b, r = .ok (t', b) → t' = t)

theorem Resolved.existing {d : Draw} {db : List Session} {src s : Session} {target : String}
    (hm : s ∈ db) (hg : s.agentGroupId = target) (hf : Found src s) :
    Resolved d db src target db (.ok (s, false)) := by
  refine .inl ⟨rfl, fun t b he => ?_⟩
  simp only [Except.ok.injEq, Prod.mk.injEq] at he
  obtain ⟨rfl, -⟩ := he
  exact ⟨hm, hg, hf⟩

theorem Resolved.of_resolveSession {d : Draw} {db db' : List Session} {src : Session} {target : String}
    {owner root : Option String} {r : Except String (Session × Bool)}
    (hc : Created d src (newSession d target none none .agentShared owner root (some src.spawnDepth)) target)
    (hf : ∀ s : Session, (truthy root = true → s.rootSessionId = root) → Found src s)
    (h : resolveSession db d target none none .agentShared owner root (some src.spawnDepth) = (db', r)) :
    Resolved d db src target db' r := by
  rcases resolveSession_cases h with ⟨rfl, e, rfl⟩ | ⟨rfl, s, rfl, hm, hg, -, hr⟩ | ⟨rfl, hfr, -, hr⟩
  · exact .inl ⟨rfl, fun t b he => by cases he⟩
  · exact Resolved.existing hm hg (hf s hr)
  · exact .inr ⟨_, rfl, hc, hfr, hr⟩

theorem resolveLane_resolved {c : Central} {d : Draw} {db db' : List Session} {src : Session}
    {target : String} {r : Except String (Session × Bool)} (hne : src.rootSessionId.getD src.id ≠ "")
    (h : resolveLane c d db src target = (db', r)) : Resolved d db src target db' r := by
  have hroot : ∀ s : Session, (truthy (some (src.rootSessionId.getD src.id)) = true →
      s.rootSessionId = some (src.rootSessionId.getD src.id)) → Found src s :=
    fun s hs => .root (hs (by simpa using hne))
  unfold resolveLane at h
  simp only at h
  split at h
  · obtain ⟨rfl, rfl⟩ := Prod.mk.inj h
    exact .inl ⟨rfl, fun t b he => by cases he⟩
  · exact Resolved.of_resolveSession (.inl rfl) hroot h
  · split at h
    · rename_i owner ho
      split at h
      · rename_i hemp
        have hfalse : truthy src.ownerUserId = false := by simp [ho, hemp]
        exact Resolved.of_resolveSession (.inr ⟨hfalse, rfl⟩) (fun _ _ => .ownerless hfalse) h
      · split at h
        · rename_i s hs
          obtain ⟨rfl, rfl⟩ := Prod.mk.inj h
          obtain ⟨hm, hp, -⟩ := newestActive_spec hs
          simp only [Bool.and_eq_true, decide_eq_true_eq] at hp
          exact Resolved.existing hm hp.1 (.checked (.inr (.inr (hp.2.trans ho.symm))))
        · split at h
          · rename_i s hs
            obtain ⟨rfl, rfl⟩ := Prod.mk.inj h
            obtain ⟨hm, hp, -⟩ := newestActive_spec hs
            simp only [Bool.and_eq_true, decide_eq_true_eq] at hp
            exact Resolved.existing hm hp.1 (.checked (.inr (.inl hp.2)))
          · rw [← ho] at h
            exact Resolved.of_resolveSession (.inl rfl) hroot h
    · rename_i ho
      have hfalse : truthy src.ownerUserId = false := by simp [ho]
      exact Resolved.of_resolveSession (.inr ⟨hfalse, rfl⟩) (fun _ _ => .ownerless hfalse) h

/-- **Everything `resolveTargetSession` can do**, for a source with a root. -/
theorem resolveTargetSession_resolved {c : Central} {d : Draw} {w : World} {msg : RoutableAgentMessage}
    {src : Session} {target : String} {db' : List Session} {r : Except String (Session × Bool)}
    (hne : src.rootSessionId.getD src.id ≠ "")
    (h : resolveTargetSession c d w msg src target = (db', r)) :
    Resolved d w.sessions src target db' r := by
  unfold resolveTargetSession at h
  split at h
  · rename_i s hs
    obtain ⟨rfl, rfl⟩ := Prod.mk.inj h
    obtain ⟨hm, hg, hf⟩ := returnPath_spec hs
    exact Resolved.existing hm hg hf
  · exact resolveLane_resolved hne h

theorem mem_setSessionConversationThreadId {db : List Session} {sid conv : String} {s : Session}
    (h : s ∈ setSessionConversationThreadId db sid conv) :
    ∃ s₀ ∈ db, s = s₀ ∨ s = { s₀ with conversationThreadId := some conv } := by
  obtain ⟨s₀, hm, rfl⟩ := List.mem_map.mp h
  refine ⟨s₀, hm, ?_⟩
  split
  · exact .inr rfl
  · exact .inl rfl

/-- **Everything `routeAgentMessage` can do.** It changes nothing, or only what
resolving the target of an edge that passed the checks did; or it also writes one
row, to the session resolved, whose source is `session` and whose origin is `originUserId` of the source's
rows, and may stamp the conversation thread on that session. -/
theorem routeAgentMessage_cases {c : Central} {d : Draw} {io : Io} {mid : String} {w w' : World}
    {msg : RoutableAgentMessage} {session : Session} {r : Except String (Session × MessageIn)}
    (hne : session.rootSessionId.getD session.id ≠ "")
    (h : routeAgentMessage c d io mid w msg session = (w', r)) :
    (w' = w ∧ ∃ e, r = .error e) ∨
    ∃ target db q, checkEdge c msg session = .ok target ∧ Resolved d w.sessions session target db q ∧
      ((w' = w.withSessions db ∧ ∃ e, r = .error e) ∨
       ∃ t b seq content stored, q = .ok (t, b) ∧
        let row := (a2aMessage mid (w.messagesIn session.id) msg session content).row t.id seq stored
        r = .ok (t, row) ∧ w'.born = (w.withSessions db).born ∧
        w'.inbound = w.inbound ++ [row] ∧ w'.log = w.log ++ [row] ∧
        (w'.sessions = db ∨ ∃ conv, w'.sessions = setSessionConversationThreadId db t.id conv)) := by
  unfold routeAgentMessage at h
  split at h
  · obtain ⟨rfl, rfl⟩ := Prod.mk.inj h
    exact .inl ⟨rfl, _, rfl⟩
  · rename_i target hedge
    split at h
    · rename_i db e hq
      obtain ⟨rfl, rfl⟩ := Prod.mk.inj h
      exact .inr ⟨target, db, _, hedge, resolveTargetSession_resolved hne hq, .inl ⟨rfl, _, rfl⟩⟩
    · rename_i db t b hq
      refine .inr ⟨target, db, _, hedge, resolveTargetSession_resolved hne hq, ?_⟩
      split at h
      · obtain ⟨rfl, rfl⟩ := Prod.mk.inj h
        exact .inl ⟨rfl, _, rfl⟩
      · rename_i content _
        simp only at h
        split at h
        · rename_i w₁ e hw
          obtain ⟨rfl, rfl⟩ := Prod.mk.inj h
          rcases World.writeSessionMessage_cases hw with ⟨rfl, -⟩ | ⟨_, _, hr, -⟩
          · exact .inl ⟨rfl, _, rfl⟩
          · cases hr
        · rename_i w₁ row hw
          rcases World.writeSessionMessage_cases hw with ⟨-, _, hr⟩ | ⟨seq, stored, hr, rfl⟩
          · cases hr
          · obtain rfl := Except.ok.inj hr
            refine .inr ⟨t, b, seq, content, stored, rfl, ?_⟩
            split at h
            · split at h
              · obtain ⟨rfl, rfl⟩ := Prod.mk.inj h
                exact ⟨rfl, rfl, rfl, rfl, .inl rfl⟩
              · obtain ⟨rfl, rfl⟩ := Prod.mk.inj h
                exact ⟨rfl, rfl, rfl, rfl, .inr ⟨_, rfl⟩⟩
            · obtain ⟨rfl, rfl⟩ := Prod.mk.inj h
              exact ⟨rfl, rfl, rfl, rfl, .inl rfl⟩

end AgentDesk
