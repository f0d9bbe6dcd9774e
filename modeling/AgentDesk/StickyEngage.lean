/-
# A sticky agent and its first mention

An agent wired `mention-sticky` answers a message that does not mention it when
a session of the message's routing scope exists: "so a previous mention
activated it", says `evaluateEngage`. But a session is opened by whatever is
first delivered in its scope. With `ignored_message_policy = 'accumulate'` that
is the first message at all, stored as silent context; and a mention that the
command gate swallows, or whose row cannot be written, has opened the session
too.

* `accumulated_then_engaged`: one message of small talk, and the agent joins in.
* `sticky_mentioned_iff`: over every run of messages of the chat, the agent
  engages on unmentioning messages only in scopes with an earlier mention it was
  given with trigger 1, exactly when every message that opens a session of its
  scope is such a mention, or comes after one.
-/
import AgentDesk.OwnerIsolation
import AgentDesk.Router

namespace AgentDesk

open Js

/-! ### The scope of a message -/

/-- What a session of the chat is looked up by: its owner and its thread. -/
structure Scope where
  owner : Option String
  thread : Option String
  deriving DecidableEq, Repr

def isThreadedSessionMode (mode : SessionMode) : Bool := mode = .perThread || mode = .perUserPerThread

/-- The scope of a message under a session mode; an empty thread id is no thread. -/
def routingScope (mode : SessionMode) (threadId userId : Option String) : Scope :=
  { owner := if isUserScopedSessionMode mode then userId else none
    thread := if isThreadedSessionMode mode && truthy threadId then threadId else none }

/-- A session of the agent in the chat of its wiring. -/
def MessagingGroupAgent.inChat (agent : MessagingGroupAgent) (s : Session) : Bool :=
  s.agentGroupId = agent.agentGroupId && s.messagingGroupId = some agent.messagingGroupId

theorem threadIs_iff {threadId : Option String} {s : Session} :
    threadIs threadId s = true ↔ s.threadId = if truthy threadId then threadId else none := by
  unfold threadIs
  split <;> simp

/-- A scope is sticky when it has an active session. -/
theorem stickySession_iff {db : List Session} {agent : MessagingGroupAgent} {th user : Option String}
    {mode : SessionMode} (hmode : mode ≠ .agentShared) :
    stickySession db agent.agentGroupId agent.messagingGroupId th mode user = true ↔
      (isUserScopedSessionMode mode = true → truthy user = true) ∧
      ∃ s ∈ db, agent.inChat s = true ∧ s.ownerUserId = (routingScope mode th user).owner ∧
        s.threadId = (routingScope mode th user).thread ∧ s.status = .active := by
  have hshared : ∀ t, (findSessionForAgent db agent.agentGroupId agent.messagingGroupId t).isSome = true ↔
      ∃ s ∈ db, agent.inChat s = true ∧ s.ownerUserId = none ∧
        s.threadId = (if truthy t then t else none) ∧ s.status = .active := by
    intro t
    unfold findSessionForAgent
    rw [List.find?_isSome]
    refine exists_congr fun s => and_congr_right fun _ => ?_
    simp only [Bool.and_eq_true, decide_eq_true_eq, threadIs_iff, MessagingGroupAgent.inChat]
    tauto
  have howned : ∀ t, stickySession.owned db agent.agentGroupId agent.messagingGroupId user t = true ↔
      truthy user = true ∧ ∃ s ∈ db, agent.inChat s = true ∧ s.ownerUserId = user ∧
        s.threadId = (if truthy t then t else none) ∧ s.status = .active := by
    intro t
    unfold stickySession.owned
    cases user with
    | none => simp
    | some u =>
      simp only [Bool.and_eq_true, truthy_some]
      refine and_congr_right fun _ => ?_
      unfold findSessionForAgentOwner
      rw [List.find?_isSome]
      refine exists_congr fun s => and_congr_right fun _ => ?_
      simp only [Bool.and_eq_true, decide_eq_true_eq, threadIs_iff, MessagingGroupAgent.inChat]
      tauto
  cases mode with
  | agentShared => exact absurd rfl hmode
  | shared => simpa [stickySession, routingScope, isUserScopedSessionMode, isThreadedSessionMode] using hshared none
  | perThread =>
    simpa [stickySession, routingScope, isUserScopedSessionMode, isThreadedSessionMode] using hshared th
  | perUser => simpa [stickySession, routingScope, isUserScopedSessionMode, isThreadedSessionMode] using howned none
  | perUserPerThread =>
    simpa [stickySession, routingScope, isUserScopedSessionMode, isThreadedSessionMode] using howned th

/-! ### What a turn delivers -/

/-- Whether a turn delivers, and then whether with trigger 1: the decision of `routeOneAgent`. -/
def RouteEnv.turnWake (env : RouteEnv) (r : Route) (h : Desk) (agent : MessagingGroupAgent) : Option Bool :=
  match (env.turn agent.agentGroupId).reads with
  | .error _ => none
  | .ok _ =>
    if (getAgentGroup h.central agent.agentGroupId).isNone then none
    else
      let engages := env.engages r h agent
      match env.gates r agent engages with
      | .error _ => none
      | .ok (accessOk, scopeOk) =>
        if engages && accessOk && scopeOk then some true
        else if env.sessionIdentityOk r agent && agent.accumulate &&
            !(engages && (!accessOk || !scopeOk)) then some false
        else none

theorem routeOneAgent_desk (env : RouteEnv) (r : Route) (h : Desk) (agent : MessagingGroupAgent) :
    (env.routeOneAgent r h agent).1 = match env.turnWake r h agent with
      | some wake => (env.deliverToAgent r h agent wake).1
      | none => h := by
  unfold RouteEnv.routeOneAgent RouteEnv.turnWake
  cases (env.turn agent.agentGroupId).reads with
  | error e => rfl
  | ok u =>
    by_cases hgroup : (getAgentGroup h.central agent.agentGroupId).isNone = true
    · simp only [if_pos hgroup]
    · simp only [if_neg hgroup]
      rcases env.gates r agent (env.engages r h agent) with e | ⟨accessOk, scopeOk⟩
      · rfl
      · dsimp only
        split
        · rfl
        · split <;> rfl

/-- What the delivery of a message to a new session needs to leave a row: it is no command the gate
stops, its files can be stored, the session's folder and database can be opened, and the session has no
row of its id. -/
structure Lands (x : Delivery) (t : AgentTurn) (w : World) : Prop where
  passes : x.gated = false
  storable : x.Storable t.io
  folder : t.draw.folderOk = true
  new : ¬ x.RowIn w.inbound (x.newSession t.draw)

/-- The session row a delivery inserts: none of its scope is found, and the drawn id is free. -/
structure OpensSession (x : Delivery) (d : Draw) (db : List Session) : Prop where
  identified : isUserScopedSessionMode x.effectiveSessionMode = true → truthy x.userId = true
  missing : resolveExisting db x.agentGroupId (some x.messagingGroupId) x.threadId x.effectiveSessionMode
    x.userId none = none
  fresh : ∀ s ∈ db, s.id ≠ generateId d.now d.rand

theorem Delivery.resolve_opens {x : Delivery} {d : Draw} {db : List Session} (h : OpensSession x d db) :
    x.resolve d db = (db ++ [x.newSession d],
      if d.folderOk then .ok (x.newSession d, true) else .error "initSessionFolder failed") := by
  unfold Delivery.resolve resolveSession
  have hid : (isUserScopedSessionMode x.effectiveSessionMode && !truthy x.userId) = false := by
    cases hm : isUserScopedSessionMode x.effectiveSessionMode with
    | false => rfl
    | true => simp [h.identified hm]
  have hfresh : (db.any fun s => s.id = (x.newSession d).id) = false := by
    rw [List.any_eq_false]
    intro s hs
    simpa [Delivery.newSession, AgentDesk.newSession] using h.fresh s hs
  rw [hid, h.missing]
  change (if (db.any fun s => s.id = (x.newSession d).id) = true then _ else _) = _
  rw [hfresh]
  cases d.folderOk <;> rfl

theorem Delivery.resolve_keeps {x : Delivery} {d : Draw} {db : List Session} (h : ¬ OpensSession x d db) :
    (x.resolve d db).1 = db := by
  unfold Delivery.resolve resolveSession
  split
  · rfl
  · rename_i hid
    split
    · rfl
    · rename_i hnone
      dsimp only
      split
      · rfl
      · rename_i hfresh
        refine absurd ⟨fun hm => ?_, hnone, fun s hs he => hfresh ?_⟩ h
        · by_contra ht
          exact hid (by simp [hm, ht])
        · exact List.any_eq_true.mpr ⟨s, hs, by simpa [AgentDesk.newSession] using he⟩

/-- The rows a step added. -/
def addedRows (w w' : World) : List MessageIn := w'.inbound.drop w.inbound.length

theorem opened_trigger_iff {w : World} {t : AgentTurn} {x : Delivery}
    (h : OpensSession x t.draw w.sessions) :
    ((addedRows w (w.deliverToAgent t.draw t.io x).1).any (·.trigger) = true) ↔
      x.wake = true ∧ Lands x t w := by
  have hres := Delivery.resolve_opens h
  unfold addedRows
  rw [World.deliverToAgent_eq, hres]
  cases hf : t.draw.folderOk with
  | false =>
    refine ⟨fun hany => absurd hany (by simp), fun hl => ?_⟩
    exact absurd (hf.symm.trans hl.2.folder) (by simp)
  | true =>
    simp only [if_true]
    cases hg : x.gated with
    | true =>
      refine ⟨fun hany => absurd hany (by simp), fun hl => ?_⟩
      exact absurd (hg.symm.trans hl.2.passes) (by simp)
    | false =>
      simp only [Bool.false_eq_true, if_false]
      set s := x.newSession t.draw
      have hrow : ((w.withSessions (w.sessions ++ [s])).messagesIn s.id).any (fun r => r.id = x.messageId) = true ↔
          x.RowIn w.inbound s := by
        simp only [List.any_eq_true, World.messagesIn, List.mem_filter, World.withSessions_inbound,
          decide_eq_true_eq, Delivery.RowIn]
        constructor
        · rintro ⟨m, ⟨hm, hsid⟩, hid⟩
          exact ⟨m, hm, hsid, hid⟩
        · rintro ⟨m, hm, hsid, hid⟩
          exact ⟨m, ⟨hm, hsid⟩, hid⟩
      unfold World.writeSessionMessage
      cases hc : t.io.extractAttachmentFiles (x.message s).content with
      | error e =>
        refine ⟨fun hany => absurd hany (by simp), fun hl => ?_⟩
        obtain ⟨content, hcontent⟩ := hl.2.storable.1
        exact absurd (hc.symm.trans hcontent) (by simp)
      | ok content =>
        cases ho : t.io.openInboundDb with
        | error e =>
          refine ⟨fun hany => absurd hany (by simp), fun hl => ?_⟩
          exact absurd (ho.symm.trans hl.2.storable.2) (by simp)
        | ok u =>
          dsimp only
          by_cases hdup : x.RowIn w.inbound s
          · have hdup' := hrow.mpr hdup
            change ((w.withSessions (w.sessions ++ [s])).messagesIn s.id).any
              (fun r => decide (r.id = (x.message s).id)) = true at hdup'
            rw [if_pos hdup']
            refine ⟨fun hany => absurd hany (by simp), fun hl => absurd hdup hl.2.new⟩
          · have hdup' : ¬ ((w.withSessions (w.sessions ++ [s])).messagesIn s.id).any
                (fun r => decide (r.id = (x.message s).id)) = true := fun hc => hdup (hrow.mp hc)
            rw [if_neg hdup']
            have hlands : Lands x t w := ⟨hg, ⟨⟨content, hc⟩, ho⟩, hf, hdup⟩
            simp [NewMessage.row, Delivery.message, hlands]

/-! ### Runs of the chat -/

/-- The tables, and the scopes in which a mention was delivered to the agent with trigger 1. -/
structure StickyRun where
  desk : Desk
  opened : List Scope

inductive StickyEvent where
  /-- A message of the chat: the agent's turn. -/
  | message (env : RouteEnv) (r : Route)
  /-- Whatever else happens to the sessions. Only the wiring's own turns open a session of its chat
  for its agent: other chats' and other agents' deliveries have other keys, delegations have no chat. -/
  | elsewhere (w : World)

/-- The scope of a message for the agent. -/
def RouteEnv.scope (env : RouteEnv) (r : Route) (agent : MessagingGroupAgent) : Scope :=
  routingScope (env.mode r agent) r.event.threadId r.userId

/-- The agent's sessions of the chat have the scopes they had, or are gone. -/
def keepsChat (agent : MessagingGroupAgent) (db db' : List Session) : Bool :=
  db'.all fun s => !agent.inChat s || db.any fun s₀ => agent.inChat s₀ && s₀.ownerUserId = s.ownerUserId &&
    s₀.threadId = s.threadId

def stickyStep (agent : MessagingGroupAgent) (s : StickyRun) : StickyEvent → Option StickyRun
  | .message env r =>
    -- a group chat, the one the agent is wired in
    if r.mg.id = agent.messagingGroupId && r.mg.isGroup then
      let desk := (env.routeOneAgent r s.desk agent).1
      let triggered := (addedRows s.desk.world desk.world).any (·.trigger)
      some ⟨desk, if r.event.isMention && triggered then s.opened ++ [env.scope r agent] else s.opened⟩
    else none
  | .elsewhere w =>
    if h : (w.sessions.map (·.id)).Nodup then
      if keepsChat agent s.desk.world.sessions w.sessions then
        some { s with desk := { s.desk with world := w, sessionKeys := h } }
      else none
    else none

/-- On a message of the chat that does not mention it, the agent would engage only in a scope with an
earlier mention it was given with trigger 1. -/
def SilentUntilMentioned (agent : MessagingGroupAgent) (s : StickyRun) : Prop :=
  ∀ (env : RouteEnv) (r : Route), r.mg.id = agent.messagingGroupId → r.mg.isGroup = true →
    r.event.isMention = false → env.engages r s.desk agent = true → env.scope r agent ∈ s.opened

/-- A message that is delivered and opens a session of its scope is a mention that lands with trigger 1,
or its scope has had one. (A session whose thread is the empty string is never found again.) -/
def OpenedByMention (agent : MessagingGroupAgent) (s : StickyRun) : StickyEvent → Prop
  | .message env r => ∀ wake, env.turnWake r s.desk agent = some wake →
      let x := env.delivery r agent wake
      let t := env.turn agent.agentGroupId
      OpensSession x t.draw s.desk.world.sessions →
      (isThreadedSessionMode (env.mode r agent) = true → r.event.threadId ≠ some "") →
      env.scope r agent ∈ s.opened ∨ (r.event.isMention = true ∧ wake = true ∧ Lands x t s.desk.world)
  | .elsewhere _ => True

/-- Every session of the chat that a lookup can find has a scope with a delivered mention. -/
def StickyInv (agent : MessagingGroupAgent) (s : StickyRun) : Prop :=
  ∀ t ∈ s.desk.world.sessions, agent.inChat t = true → t.threadId ≠ some "" →
    (⟨t.ownerUserId, t.threadId⟩ : Scope) ∈ s.opened

section

variable {agent : MessagingGroupAgent} (hsticky : agent.engageMode = some .mentionSticky)
  (hshared : agent.sessionMode ≠ .agentShared)

include hshared in
theorem mode_ne_agentShared (env : RouteEnv) (r : Route) : env.mode r agent ≠ .agentShared := by
  unfold RouteEnv.mode resolveEffectiveSessionMode
  split
  · exact hshared
  · split <;> simp_all

theorem routingScope_thread_ne (mode : SessionMode) (th user : Option String) :
    (routingScope mode th user).thread ≠ some "" := by
  unfold routingScope
  dsimp only
  split
  · rename_i ht
    rintro rfl
    simp at ht
  · simp

include hsticky hshared in
theorem engages_unmentioned_iff {env : RouteEnv} {r : Route} {h : Desk} (hmg : r.mg.id = agent.messagingGroupId)
    (hgroup : r.mg.isGroup = true) (hno : r.event.isMention = false) :
    env.engages r h agent = true ↔
      (isUserScopedSessionMode (env.mode r agent) = true → truthy r.userId = true) ∧
      ∃ s ∈ h.world.sessions, agent.inChat s = true ∧ s.ownerUserId = (env.scope r agent).owner ∧
        s.threadId = (env.scope r agent).thread ∧ s.status = .active := by
  unfold RouteEnv.engages evaluateEngage
  rw [hsticky]
  simp only [hno, hgroup, Bool.false_eq_true, if_false, Bool.not_true, hmg]
  exact stickySession_iff (mode_ne_agentShared hshared env r)

include hsticky hshared in
theorem silent_of_inv (s : StickyRun) (h : StickyInv agent s) : SilentUntilMentioned agent s := by
  intro env r hmg hgroup hno hengages
  obtain ⟨-, t, ht, hchat, howner, hthread, -⟩ :=
    (engages_unmentioned_iff hsticky hshared hmg hgroup hno).mp hengages
  have hne : t.threadId ≠ some "" := by
    rw [hthread]
    exact routingScope_thread_ne _ _ _
  have hmem := h t ht hchat hne
  rwa [howner, hthread] at hmem

theorem newSession_scope (env : RouteEnv) (r : Route) (hmg : r.mg.id = agent.messagingGroupId) (wake : Bool)
    (d : Draw) :
    agent.inChat ((env.delivery r agent wake).newSession d) = true ∧
      ((env.delivery r agent wake).newSession d).ownerUserId = (env.scope r agent).owner ∧
      ((env.delivery r agent wake).newSession d).status = .active ∧
      ((isThreadedSessionMode (env.mode r agent) = true → r.event.threadId ≠ some "") →
        ((env.delivery r agent wake).newSession d).threadId = (env.scope r agent).thread) ∧
      (isThreadedSessionMode (env.mode r agent) = true → r.event.threadId = some "" →
        ((env.delivery r agent wake).newSession d).threadId = some "") := by
  have hthreaded : (env.mode r agent = .perThread ∨ env.mode r agent = .perUserPerThread) ↔
      isThreadedSessionMode (env.mode r agent) = true := by simp [isThreadedSessionMode]
  refine ⟨?_, ?_, rfl, fun hne => ?_, fun hm he => ?_⟩
  · simp [MessagingGroupAgent.inChat, Delivery.newSession, newSession, RouteEnv.delivery, hmg]
  · rfl
  · show (if env.mode r agent = .perThread ∨ env.mode r agent = .perUserPerThread then r.event.threadId
      else none) = if isThreadedSessionMode (env.mode r agent) && truthy r.event.threadId then r.event.threadId
      else none
    by_cases hm : isThreadedSessionMode (env.mode r agent) = true
    · rw [if_pos (hthreaded.mpr hm), hm, Bool.true_and]
      cases hth : r.event.threadId with
      | none => simp
      | some th =>
        have : th ≠ "" := fun he => hne hm (by rw [hth, he])
        simp [this]
    · rw [if_neg (fun hc => hm (hthreaded.mp hc))]
      simp [hm]
  · show (if env.mode r agent = .perThread ∨ env.mode r agent = .perUserPerThread then r.event.threadId
      else none) = some ""
    rw [if_pos (hthreaded.mpr hm), he]

theorem routeOneAgent_sessions (env : RouteEnv) (r : Route) (h : Desk) (wake : Bool)
    (hw : env.turnWake r h agent = some wake) :
    (env.routeOneAgent r h agent).1.world.sessions =
      ((env.delivery r agent wake).resolve (env.turn agent.agentGroupId).draw h.world.sessions).1 := by
  rw [routeOneAgent_desk, hw]
  exact World.deliverToAgent_sessions _ _ _ _

theorem stickyInv_message {s : StickyRun} (h : StickyInv agent s) {env : RouteEnv} {r : Route} {s' : StickyRun}
    (hs : stickyStep agent s (.message env r) = some s') (hC : OpenedByMention agent s (.message env r)) :
    StickyInv agent s' := by
  simp only [stickyStep] at hs
  split at hs
  · rename_i hchat
    rw [Bool.and_eq_true, decide_eq_true_eq] at hchat
    obtain rfl := Option.some.inj hs
    -- the history only grows
    have hgrow : ∀ scope ∈ s.opened, scope ∈ (if r.event.isMention && (addedRows s.desk.world
        (env.routeOneAgent r s.desk agent).1.world).any (·.trigger) then s.opened ++ [env.scope r agent]
        else s.opened) := by
      intro scope hm
      split
      · exact List.mem_append_left _ hm
      · exact hm
    intro t ht hin hne
    dsimp only at ht ⊢
    cases hw : env.turnWake r s.desk agent with
    | none =>
      rw [routeOneAgent_desk, hw] at ht
      exact hgrow _ (h t ht hin hne)
    | some wake =>
      rw [routeOneAgent_sessions env r s.desk wake hw] at ht
      by_cases hopens : OpensSession (env.delivery r agent wake) (env.turn agent.agentGroupId).draw
          s.desk.world.sessions
      · rw [Delivery.resolve_opens hopens] at ht
        rcases List.mem_append.mp ht with ht | ht
        · exact hgrow _ (h t ht hin hne)
        · obtain rfl := List.mem_singleton.mp ht
          obtain ⟨-, howner, -, hthread, hempty⟩ := newSession_scope env r hchat.1 wake
            (env.turn agent.agentGroupId).draw
          have hth : isThreadedSessionMode (env.mode r agent) = true → r.event.threadId ≠ some "" :=
            fun hm he => hne (hempty hm he)
          rw [howner, hthread hth]
          rcases hC wake hw hopens hth with hold | ⟨hmention, hwake, hlands⟩
          · exact hgrow _ hold
          · have htrigger : (addedRows s.desk.world (env.routeOneAgent r s.desk agent).1.world).any
                (·.trigger) = true := by
              rw [routeOneAgent_desk, hw]
              exact (opened_trigger_iff hopens).mpr ⟨hwake, hlands⟩
            rw [hmention, htrigger]
            exact List.mem_append_right _ (List.mem_singleton_self _)
      · rw [Delivery.resolve_keeps hopens] at ht
        exact hgrow _ (h t ht hin hne)
  · cases hs

theorem stickyInv_elsewhere {s s' : StickyRun} (h : StickyInv agent s) {w : World}
    (hs : stickyStep agent s (.elsewhere w) = some s') : StickyInv agent s' := by
  simp only [stickyStep] at hs
  split at hs
  · split at hs
    · rename_i hk
      obtain rfl := Option.some.inj hs
      intro t ht hin hne
      have ht' := List.all_eq_true.mp hk t ht
      rw [hin, Bool.not_true, Bool.false_or] at ht'
      obtain ⟨t₀, ht₀, hsame⟩ := List.any_eq_true.mp ht'
      simp only [Bool.and_eq_true, decide_eq_true_eq] at hsame
      obtain ⟨⟨hin₀, howner⟩, hthread⟩ := hsame
      have := h t₀ ht₀ hin₀ (by rwa [hthread])
      rwa [howner, hthread] at this
    · cases hs
  · cases hs

theorem stickyInv_step (s : StickyRun) (e : StickyEvent) (s' : StickyRun) (h : StickyInv agent s)
    (hs : stickyStep agent s e = some s') (hC : OpenedByMention agent s e) : StickyInv agent s' := by
  cases e with
  | message env r => exact stickyInv_message h hs hC
  | elsewhere w => exact stickyInv_elsewhere h hs

include hsticky hshared in
theorem openedByMention_of_silent (s : StickyRun) (e : StickyEvent) (s' : StickyRun)
    (hs : stickyStep agent s e = some s') (hP : SilentUntilMentioned agent s') : OpenedByMention agent s e := by
  cases e with
  | elsewhere w => trivial
  | message env r =>
    intro wake hw x t hopens hth
    simp only [stickyStep] at hs
    split at hs
    · rename_i hchat
      rw [Bool.and_eq_true, decide_eq_true_eq] at hchat
      obtain rfl := Option.some.inj hs
      obtain ⟨hin, howner, hactive, hthread, -⟩ := newSession_scope env r hchat.1 wake t.draw
      -- the same message without a mention, coming next
      let r' : Route := { r with event := { r.event with isMention := false } }
      have hengages : env.engages r' (env.routeOneAgent r s.desk agent).1 agent = true := by
        refine (engages_unmentioned_iff (r := r') hsticky hshared hchat.1 hchat.2 rfl).mpr
          ⟨hopens.identified, x.newSession t.draw, ?_, hin, howner, hthread hth, hactive⟩
        rw [routeOneAgent_sessions env r s.desk wake hw, Delivery.resolve_opens hopens]
        exact List.mem_append_right _ (List.mem_singleton_self _)
      have hmem := hP env r' hchat.1 hchat.2 rfl hengages
      dsimp only at hmem
      split at hmem
      · rename_i hopened
        rw [Bool.and_eq_true] at hopened
        obtain ⟨hmention, htrigger⟩ := hopened
        rw [routeOneAgent_desk, hw] at htrigger
        obtain ⟨hwake, hlands⟩ := (opened_trigger_iff hopens).mp htrigger
        exact .inr ⟨hmention, hwake, hlands⟩
      · exact .inl hmem
    · cases hs

/-- **When a sticky agent is silent until mentioned.** For an agent wired `mention-sticky` in a group
chat, in any session mode but agent-shared and with any policy for ignored messages: in every run of
the chat's messages from tables without a session of the agent there, it would engage on a message
without a mention only in a scope where an earlier mention was delivered to it with trigger 1, exactly
when every message that opens a session of its scope is a mention that lands with trigger 1, or comes
after one. -/
theorem sticky_mentioned_iff {agent : MessagingGroupAgent} (hsticky : agent.engageMode = some .mentionSticky)
    (hshared : agent.sessionMode ≠ .agentShared) {h : Desk}
    (hnew : ∀ t ∈ h.world.sessions, agent.inChat t = false) {es : List StickyEvent} {s : StickyRun}
    (hrun : Trans.run (stickyStep agent) ⟨h, []⟩ es = some s) :
    Trans.Always (stickyStep agent) (SilentUntilMentioned agent) ⟨h, []⟩ es ↔
      Trans.Along (stickyStep agent) (OpenedByMention agent) ⟨h, []⟩ es := by
  have hinit : StickyInv agent ⟨h, []⟩ := by
    intro t ht hin
    rw [hnew t ht] at hin
    cases hin
  refine Trans.always_iff_along_of (silent_of_inv hsticky hshared) stickyInv_step ?_ hinit hrun
  exact fun s e s' _ hs hP => openedByMention_of_silent hsticky hshared s e s' hs hP

end

/-- A sticky front desk in a group chat that keeps what it does not answer as context. -/
def stickyAgent : MessagingGroupAgent :=
  ⟨"mg-1", "ag-front", some .mentionSticky, none, true, .shared, 0⟩

def stickyDesk : Desk :=
  { world := World.empty, central := sampleCentral
    messagingGroups := [⟨"mg-1", "feishu", "feishu:oc_a", true, none⟩], wirings := [stickyAgent], dropped := []
    sessionKeys := World.empty_sessionKeys, wiringKeys := by decide }

def stickyEnv (n : ℕ) : RouteEnv :=
  { supportsThreads := some false, interceptors := [], maybeAutowire := fun _ _ h => (h, .ok false)
    senderResolver := none, accessGate := none, senderScopeGate := none, regExpTest := fun _ _ => some false
    roles := ⟨none, false⟩, now := n, rand := "dddddd", readGroup := .ok (), readAgents := .ok ()
    recordDrop := .ok ()
    turn := fun _ => ⟨.ok (), sampleDraw n, Io.idle, n, "cccccc", .ok (), .ok ()⟩ }

/-- Lunch, or the bot asked about lunch. -/
def lunchRoute (id : String) (isMention : Bool) : Route :=
  { event := { channelType := "feishu", platformId := "feishu:oc_a", threadId := none, id, kind := .chat
               raw := "", content := some (.obj [("text", .str "lunch?")]), isMention, isGroup := true
               replyTo := none }
    mg := ⟨"mg-1", "feishu", "feishu:oc_a", true, none⟩, userId := some "feishu:ou_u", agents := [stickyAgent]
    messageText := .str "lunch?" }

/-- Two colleagues talk about lunch: the first message is kept as context, and on the second the agent
engages though nobody has ever mentioned it. -/
theorem accumulated_then_engaged :
    ∃ s, Trans.run (stickyStep stickyAgent) ⟨stickyDesk, []⟩ [.message (stickyEnv 1) (lunchRoute "om_1" false)] =
        some s ∧
      (stickyEnv 2).engages (lunchRoute "om_2" false) s.desk stickyAgent = true ∧ s.opened = [] ∧
      ¬ SilentUntilMentioned stickyAgent s := by
  refine ⟨_, rfl, rfl, rfl, fun h => ?_⟩
  have hmem := h (stickyEnv 2) (lunchRoute "om_2" false) rfl rfl rfl rfl
  exact absurd hmem List.not_mem_nil

/-- Somebody asks the agent first. -/
theorem sticky_mentioned_iff_sample :
    ∃ s, Trans.run (stickyStep stickyAgent) ⟨stickyDesk, []⟩
        [.message (stickyEnv 1) (lunchRoute "om_1" true), .message (stickyEnv 2) (lunchRoute "om_2" false)] =
          some s ∧ s.opened = [⟨none, none⟩] ∧ SilentUntilMentioned stickyAgent s := by
  have hrun : Trans.run (stickyStep stickyAgent) ⟨stickyDesk, []⟩
      [.message (stickyEnv 1) (lunchRoute "om_1" true), .message (stickyEnv 2) (lunchRoute "om_2" false)] =
    some _ := rfl
  refine ⟨_, hrun, rfl, (sticky_mentioned_iff rfl (by decide) (fun t ht => absurd ht List.not_mem_nil)
    hrun).mpr ?_ _ [] _ (List.append_nil _).symm hrun⟩
  refine ⟨fun wake hw _ _ => .inr ⟨rfl, ?_, ?_⟩, fun s₁ h₁ => ?_⟩
  · exact (Option.some.inj hw).symm
  · exact ⟨rfl, ⟨⟨_, rfl⟩, rfl⟩, rfl, fun ⟨m, hm, _⟩ => absurd hm List.not_mem_nil⟩
  · obtain rfl := Option.some.inj h₁
    exact ⟨fun wake hw _ _ => .inl (.head _), fun _ _ => trivial⟩

end AgentDesk
