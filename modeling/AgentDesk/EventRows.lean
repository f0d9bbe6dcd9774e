/-
# The rows of the events of a session

`deliverToAgent` (`src/router.ts`) writes an event under the id `messageIdForAgent` makes of the
platform's message id and the agent group. An agent-shared session gets the events of every chat that is
wired to it so, and a message id is unique in its chat only: the second of two events with one id fails on
the primary key of `messages_in`, which the loop over the agents catches.

A run is calls of the router and whatever else changes the tables; what else writes messages writes them
under ids of its own, which have no colon. Each row that a turn sets out to write is an `Arrival`.

* `fanOut_arrivals`: what a fan-out leaves in the tables is what its arrivals say.
* `distinct_rows_iff`: different events have different rows, and each has one, exactly when different
  events of a session have different message ids.
* `shared_session_collides`: two channels of one agent.
-/
import Mathlib.Data.List.Pairwise
import AgentDesk.PersistBeforeRoute
import AgentDesk.Trans

namespace AgentDesk

open Js

/-! ### Arrivals -/

/-- The platform's id of the event, or the one that is drawn. -/
def baseMessageId (t : AgentTurn) (event : InboundEvent) : String :=
  if event.id ≠ "" then event.id else s!"msg-{t.now}-{t.rand}"

/-- An event that is to be written into a session, under what message id, and the row that the `INSERT`
writes; `none` when it is not reached. -/
structure Arrival where
  sessionId : String
  agentGroupId : String
  event : InboundEvent
  messageId : String
  row : Option MessageIn

/-- `messages_in.id`. -/
def Arrival.rowId (x : Arrival) : String := s!"{x.messageId}:{x.agentGroupId}"

/-- Does the turn deliver the event, and as a trigger? -/
def RouteEnv.wakes (env : RouteEnv) (r : Route) (h : Desk) (agent : MessagingGroupAgent) : Option Bool :=
  match (env.turn agent.agentGroupId).reads with
  | .error _ => none
  | .ok _ =>
    if (getAgentGroup h.central agent.agentGroupId).isNone then none
    else
      let engages := env.engages r h agent
      match env.gates r agent engages with
      | .error _ => none
      | .ok (accessOk, scopeOk) =>
        if engages && accessOk && scopeOk then some true
        else if env.sessionIdentityOk r agent && agent.accumulate && !(engages && (!accessOk || !scopeOk)) then
          some false
        else none

theorem routeOneAgent_wakes (env : RouteEnv) (r : Route) (h : Desk) (agent : MessagingGroupAgent) :
    (env.routeOneAgent r h agent).1 = match env.wakes r h agent with
      | none => h
      | some wake => (env.deliverToAgent r h agent wake).1 := by
  unfold RouteEnv.routeOneAgent RouteEnv.wakes
  cases (env.turn agent.agentGroupId).reads with
  | error e => rfl
  | ok _ =>
    cases (getAgentGroup h.central agent.agentGroupId).isNone with
    | true => rfl
    | false =>
      dsimp only
      rcases env.gates r agent (env.engages r h agent) with e | ⟨accessOk, scopeOk⟩
      · rfl
      · dsimp only
        simp only [Bool.false_eq_true, if_false]
        split
        · rfl
        · split <;> rfl

/-- The row that `writeSessionMessage` inserts if the id is free. -/
def World.writeRow (w : World) (io : Io) (sessionId : String) (m : NewMessage) : Option MessageIn :=
  match io.extractAttachmentFiles m.content, io.openInboundDb with
  | .ok content, .ok _ => some (m.row sessionId (nextEvenSeq (w.messagesIn sessionId)) content)
  | _, _ => none

/-- What a turn sets out to write. -/
def RouteEnv.arrival (env : RouteEnv) (r : Route) (h : Desk) (agent : MessagingGroupAgent) : Option Arrival :=
  (env.wakes r h agent).bind fun wake =>
    let t := env.turn agent.agentGroupId
    let x := env.delivery r agent wake
    match x.resolve t.draw h.world.sessions with
    | (_, .error _) => none
    | (db, .ok (s, _)) =>
      if x.gated then none
      else some
        { sessionId := s.id, agentGroupId := agent.agentGroupId, event := r.event
          messageId := baseMessageId t r.event
          row := (h.world.withSessions db).writeRow t.io s.id (x.message s) }

/-- The arrivals of a fan-out. -/
def RouteEnv.fanArrivals (env : RouteEnv) (r : Route) : Desk → List MessagingGroupAgent → List Arrival
  | _, [] => []
  | h, agent :: agents =>
    (env.arrival r h agent).toList ++ env.fanArrivals r (env.routeOneAgent r h agent).1 agents

theorem World.writeSessionMessage_inbound (w : World) (io : Io) (sessionId : String) (m : NewMessage) :
    (w.writeSessionMessage io sessionId m).1.inbound =
      if (w.messagesIn sessionId).any fun row => row.id = m.id then w.inbound
      else w.inbound ++ (w.writeRow io sessionId m).toList := by
  unfold World.writeSessionMessage World.writeRow
  rcases io.extractAttachmentFiles m.content with e | content
  · simp
  · rcases io.openInboundDb with e | u
    · simp
    · dsimp only
      split <;> rfl

/-- What the tables hold of an arrival: its session, and its row or one of the same id. -/
structure Arrival.In (x : Arrival) (w : World) : Prop where
  session : ∃ s ∈ w.sessions, s.id = x.sessionId ∧ s.agentGroupId = x.agentGroupId
  row : ∀ m, x.row = some m → m.sessionId = x.sessionId ∧ m.id = x.rowId
  lands : x.row.isSome = true → ∃ m ∈ w.inbound, m.sessionId = x.sessionId ∧ m.id = x.rowId

theorem Arrival.In.mono {x : Arrival} {w w' : World} (hx : x.In w)
    (hsessions : ∀ s ∈ w.sessions, ∃ s' ∈ w'.sessions, s'.id = s.id ∧ s'.agentGroupId = s.agentGroupId)
    (hrows : w.inbound ⊆ w'.inbound) : x.In w' := by
  refine ⟨?_, hx.row, fun hsome => ?_⟩
  · obtain ⟨s, hs, hid, hgroup⟩ := hx.session
    obtain ⟨s', hs', hid', hgroup'⟩ := hsessions s hs
    exact ⟨s', hs', hid'.trans hid, hgroup'.trans hgroup⟩
  · obtain ⟨m, hm, hkey⟩ := hx.lands hsome
    exact ⟨m, hrows hm, hkey⟩

section Turn

variable {env : RouteEnv} {r : Route} {h : Desk}

/-- What a turn leaves in the tables. -/
inductive TurnRows (env : RouteEnv) (r : Route) (h : Desk) (agent : MessagingGroupAgent) : Option Arrival → Prop
  | none (hrows : (env.routeOneAgent r h agent).1.world.inbound = h.world.inbound) : TurnRows env r h agent none
  | some (x : Arrival) (hgroup : x.agentGroupId = agent.agentGroupId)
    (hin : x.In (env.routeOneAgent r h agent).1.world)
    (hrows : (env.routeOneAgent r h agent).1.world.inbound = h.world.inbound ∨
      (env.routeOneAgent r h agent).1.world.inbound = h.world.inbound ++ x.row.toList) :
    TurnRows env r h agent (some x)

theorem writeRow_key {w : World} {io : Io} {sessionId : String} {m : NewMessage} {row : MessageIn}
    (hrow : w.writeRow io sessionId m = some row) : row.sessionId = sessionId ∧ row.id = m.id := by
  unfold World.writeRow at hrow
  split at hrow
  · obtain rfl := Option.some.inj hrow
    exact ⟨rfl, rfl⟩
  · cases hrow

/-- **A turn writes the row of its arrival, or finds its id taken.** -/
theorem turn_arrival (env : RouteEnv) (r : Route) (h : Desk) (agent : MessagingGroupAgent) :
    TurnRows env r h agent (env.arrival r h agent) := by
  have hturn := routeOneAgent_wakes env r h agent
  unfold RouteEnv.arrival
  cases hwakes : env.wakes r h agent with
  | none =>
    rw [hwakes] at hturn
    exact .none (by rw [hturn])
  | some wake =>
    rw [hwakes] at hturn
    have hdelivered : (env.routeOneAgent r h agent).1.world = (h.world.deliverToAgent
        (env.turn agent.agentGroupId).draw (env.turn agent.agentGroupId).io (env.delivery r agent wake)).1 := by
      rw [hturn]
      rfl
    rw [Option.bind_some]
    dsimp only
    have hsessions := World.deliverToAgent_sessions h.world (env.turn agent.agentGroupId).draw
      (env.turn agent.agentGroupId).io (env.delivery r agent wake)
    have hworld := World.deliverToAgent_eq h.world (env.turn agent.agentGroupId).draw
      (env.turn agent.agentGroupId).io (env.delivery r agent wake)
    rcases hres : (env.delivery r agent wake).resolve (env.turn agent.agentGroupId).draw h.world.sessions with
      ⟨db, e | ⟨s, c⟩⟩
    · rw [hres] at hworld
      exact .none (by rw [hdelivered, hworld, World.withSessions_inbound])
    · rw [hres] at hworld hsessions
      dsimp only at hworld hsessions ⊢
      split
      · rename_i hgated
        rw [if_pos hgated] at hworld
        exact .none (by rw [hdelivered, hworld, World.withSessions_inbound])
      · rename_i hopen
        rw [if_neg hopen] at hworld
        have hmem : s ∈ db ∧ s.agentGroupId = agent.agentGroupId := by
          have hs := Delivery.resolve_mem (congrArg Prod.snd hres)
          rw [hres] at hs
          exact hs
        have hinbound : (env.routeOneAgent r h agent).1.world.inbound =
            if (h.world.messagesIn s.id).any fun row => row.id = (env.delivery r agent wake).messageId
            then h.world.inbound
            else h.world.inbound ++ ((h.world.withSessions db).writeRow (env.turn agent.agentGroupId).io s.id
              ((env.delivery r agent wake).message s)).toList := by
          rw [hdelivered, hworld, World.writeSessionMessage_inbound]
          rfl
        refine .some _ rfl ⟨?_, ?_, ?_⟩ ?_
        · refine ⟨s, ?_, rfl, hmem.2⟩
          rw [hdelivered, hsessions]
          exact hmem.1
        · intro m hrow
          exact writeRow_key hrow
        · intro hsome
          obtain ⟨m, hrow⟩ := Option.isSome_iff_exists.mp hsome
          rw [hinbound]
          split
          · rename_i htaken
            obtain ⟨m', hm', hid⟩ := List.any_eq_true.mp htaken
            obtain ⟨hm', hsession⟩ := List.mem_filter.mp hm'
            exact ⟨m', hm', by simpa using hsession, of_decide_eq_true hid⟩
          · exact ⟨m, List.mem_append_right _ (Option.mem_toList.mpr hrow), writeRow_key hrow⟩
        · rw [hinbound]
          split
          · exact .inl rfl
          · exact .inr rfl

/-- **What a fan-out leaves in the tables is what its arrivals say.** -/
structure FanRows (env : RouteEnv) (r : Route) (h : Desk) (agents : List MessagingGroupAgent) : Prop where
  groups : ∀ x ∈ env.fanArrivals r h agents, ∃ agent ∈ agents, x.agentGroupId = agent.agentGroupId
  held : ∀ x ∈ env.fanArrivals r h agents, x.In (env.fanOut r h agents).1.world
  rows : ∀ m ∈ (env.fanOut r h agents).1.world.inbound,
    m ∈ h.world.inbound ∨ ∃ x ∈ env.fanArrivals r h agents, x.row = some m

theorem same_sessions {w w' : World} (hsub : w.sessions ⊆ w'.sessions) :
    ∀ s ∈ w.sessions, ∃ s' ∈ w'.sessions, s'.id = s.id ∧ s'.agentGroupId = s.agentGroupId :=
  fun s hs => ⟨s, hsub hs, rfl, rfl⟩

theorem fanOut_arrivals (env : RouteEnv) (r : Route) (agents : List MessagingGroupAgent) (h : Desk) :
    FanRows env r h agents := by
  induction agents generalizing h with
  | nil => exact ⟨fun x hx => (nomatch hx), fun x hx => (nomatch hx), fun m hm => .inl hm⟩
  | cons agent agents ih =>
    have htail := ih (env.routeOneAgent r h agent).1
    obtain ⟨hsessions, hsub⟩ := subset_fanOut env r agents (env.routeOneAgent r h agent).1
    have hturn := turn_arrival env r h agent
    generalize hx : env.arrival r h agent = arrived at hturn
    refine ⟨fun x hmem => ?_, fun x hmem => ?_, fun m hm => ?_⟩
    · rw [RouteEnv.fanArrivals, hx] at hmem
      rcases List.mem_append.mp hmem with hmem | hmem
      · cases hturn with
        | none => cases hmem
        | some y hgroup =>
          obtain rfl := List.mem_singleton.mp hmem
          exact ⟨agent, .head _, hgroup⟩
      · obtain ⟨b, hb, hgroup⟩ := htail.groups x hmem
        exact ⟨b, .tail _ hb, hgroup⟩
    · rw [RouteEnv.fanArrivals, hx] at hmem
      rw [fanOut_cons]
      rcases List.mem_append.mp hmem with hmem | hmem
      · cases hturn with
        | none => cases hmem
        | some y _ hin =>
          obtain rfl := List.mem_singleton.mp hmem
          exact hin.mono (same_sessions hsessions) hsub
      · exact htail.held x hmem
    · rw [fanOut_cons] at hm
      rw [RouteEnv.fanArrivals, hx]
      rcases htail.rows m hm with hm | ⟨x, hmem, hrow⟩
      · cases hturn with
        | none hrows => exact .inl (hrows ▸ hm)
        | some y _ _ hrows =>
          rcases hrows with hrows | hrows
          · exact .inl (hrows ▸ hm)
          · rw [hrows] at hm
            rcases List.mem_append.mp hm with hm | hm
            · exact .inl hm
            · exact .inr ⟨y, List.mem_append_left _ (List.mem_singleton_self y), Option.mem_toList.mp hm⟩
      · exact .inr ⟨x, List.mem_append_right _ hmem, hrow⟩

theorem fanArrivals_apart {agents : List MessagingGroupAgent} {h : Desk}
    (hnodup : (agents.map (·.agentGroupId)).Nodup) :
    (env.fanArrivals r h agents).Pairwise fun x y => x.agentGroupId ≠ y.agentGroupId := by
  induction agents generalizing h with
  | nil => exact .nil
  | cons agent agents ih =>
    rw [List.map_cons, List.nodup_cons] at hnodup
    have htail := fanOut_arrivals env r agents (env.routeOneAgent r h agent).1
    have hturn := turn_arrival env r h agent
    rw [RouteEnv.fanArrivals]
    generalize env.arrival r h agent = arrived at hturn
    cases hturn with
    | none => exact ih hnodup.2
    | some x hgroup =>
      refine List.pairwise_cons.mpr ⟨fun y hy => ?_, ih hnodup.2⟩
      obtain ⟨b, hb, hb'⟩ := htail.groups y hy
      rw [hgroup, hb']
      exact fun he => hnodup.1 (List.mem_map.mpr ⟨b, hb, he.symm⟩)

end Turn

/-! ### The rest of the host -/

/-- Sessions are added and stay with their agent group, and so do messages; a message that is added has no
colon in its id. -/
structure Desk.Extends (h h' : Desk) : Prop where
  sessions : ∀ s ∈ h.world.sessions, ∃ s' ∈ h'.world.sessions, s'.id = s.id ∧ s'.agentGroupId = s.agentGroupId
  kept : h.world.inbound ⊆ h'.world.inbound
  added : ∀ m ∈ h'.world.inbound, m ∈ h.world.inbound ∨ ':' ∉ m.id.toList

theorem Desk.Extends.refl (h : Desk) : h.Extends h :=
  ⟨fun s hs => ⟨s, hs, rfl, rfl⟩, List.Subset.refl _, fun _ hm => .inl hm⟩

theorem Desk.Extends.trans {h h₁ h₂ : Desk} (h01 : h.Extends h₁) (h12 : h₁.Extends h₂) : h.Extends h₂ := by
  refine ⟨fun s hs => ?_, List.Subset.trans h01.kept h12.kept, fun m hm => ?_⟩
  · obtain ⟨s₁, hs₁, hid₁, hgroup₁⟩ := h01.sessions s hs
    obtain ⟨s₂, hs₂, hid₂, hgroup₂⟩ := h12.sessions s₁ hs₁
    exact ⟨s₂, hs₂, hid₂.trans hid₁, hgroup₂.trans hgroup₁⟩
  · rcases h12.added m hm with hm | hm
    · exact h01.added m hm
    · exact .inr hm

/-- A call of the router whose interceptors and front desk extend the tables. -/
structure RouterCall where
  env : RouteEnv
  intercepts : ∀ f ∈ env.interceptors, ∀ event (h : Desk), h.Extends (f event h).1
  autowires : ∀ mg event (h : Desk), h.Extends (env.maybeAutowire mg event h).1

theorem runInterceptors_extends (event : InboundEvent)
    {fs : List (InboundEvent → Desk → Desk × Except String Bool)}
    (hfs : ∀ f ∈ fs, ∀ event (h : Desk), h.Extends (f event h).1) (h : Desk) :
    h.Extends (runInterceptors event fs h).1 := by
  induction fs generalizing h with
  | nil => exact .refl h
  | cons f fs ih =>
    have hf := hfs f (.head _) event h
    have hrest := ih (fun g hg => hfs g (.tail _ hg)) (f event h).1
    unfold runInterceptors
    split
    · rename_i hclaims
      rw [hclaims] at hf
      exact hf
    · rename_i h' _ _ hpasses
      rw [hpasses] at hf hrest
      exact hf.trans hrest

theorem findGroup_extends (c : RouterCall) (event : InboundEvent) (h : Desk) :
    h.Extends (c.env.findGroup event h).1 := by
  unfold RouteEnv.findGroup
  split
  · exact .refl h
  · split
    · exact .refl h
    · split
      · exact .refl h
      · dsimp only
        split
        · exact .refl h
        · have hwired := c.autowires (c.env.newGroup event) event
            { h with messagingGroups := h.messagingGroups ++ [c.env.newGroup event] }
          have hmade : h.Extends { h with messagingGroups := h.messagingGroups ++ [c.env.newGroup event] } :=
            ⟨fun s hs => ⟨s, hs, rfl, rfl⟩, List.Subset.refl _, fun _ hm => .inl hm⟩
          split
          · rename_i hthrows
            rw [hthrows] at hwired
            exact hmade.trans hwired
          · rename_i hok
            rw [hok] at hwired
            exact hmade.trans hwired

theorem recordDroppedMessage_extends (env : RouteEnv) (h : Desk) (event : InboundEvent) (userId : Option String)
    (reason : DropReason) (mg : MessagingGroup) :
    h.Extends (env.recordDroppedMessage h event userId reason mg).1 := by
  have hworld := recordDroppedMessage_world env h event userId reason mg
  refine ⟨same_sessions ?_, ?_, fun m hm => .inl ?_⟩
  · rw [hworld]
    exact List.Subset.refl _
  · rw [hworld]
    exact List.Subset.refl _
  · rwa [hworld] at hm

theorem route_extends (c : RouterCall) (event : InboundEvent) (h : Desk) :
    h.Extends (c.env.route event h).1 := by
  unfold RouteEnv.route
  have hintercepted := runInterceptors_extends event c.intercepts h
  split
  · rename_i hclaimed
    rw [hclaimed] at hintercepted
    exact hintercepted
  · rename_i h₁ hpassed
    rw [hpassed] at hintercepted
    have hfound := findGroup_extends c (c.env.collapse event) h₁
    dsimp only
    split
    · rename_i hthrows
      rw [hthrows] at hfound
      exact hintercepted.trans hfound
    · rename_i hnone
      rw [hnone] at hfound
      exact hintercepted.trans hfound
    · rename_i h₂ mg agentCount hsome
      rw [hsome] at hfound
      have hboth := hintercepted.trans hfound
      have hwired : h₂.Extends (if agentCount = 0 then c.env.maybeAutowire mg (c.env.collapse event) h₂
          else (h₂, .ok true)).1 := by
        split
        · exact c.autowires mg _ h₂
        · exact .refl h₂
      split
      · rename_i hthrows
        rw [hthrows] at hwired
        exact hboth.trans hwired
      · rename_i hok
        rw [hok] at hwired
        exact hboth.trans hwired
      · rename_i h₃ hunwired
        rw [hunwired] at hwired
        have hdrop := recordDroppedMessage_extends c.env h₃ (c.env.collapse event) none .noAgentWired mg
        split
        · exact hboth.trans hwired
        · split
          · rename_i hthrows
            rw [hthrows] at hdrop
            exact (hboth.trans hwired).trans hdrop
          · rename_i hrecorded
            rw [hrecorded] at hdrop
            exact (hboth.trans hwired).trans hdrop

/-! ### Runs -/

/-- The tables, and every row that a turn set out to write. -/
structure Inbox where
  desk : Desk
  arrivals : List Arrival

/-- No message yet. -/
def Inbox.start (desk : Desk) : Inbox :=
  ⟨{ desk with world := { desk.world with inbound := [] }, sessionKeys := desk.sessionKeys }, []⟩

inductive InboxEvent where
  | route (c : RouterCall) (event : InboundEvent)
  | other (change : Desk → Desk) (grows : ∀ h : Desk, h.Extends (change h))

/-- The arrivals of a call of the router. -/
def Inbox.newArrivals (st : Inbox) (c : RouterCall) (event : InboundEvent) : List Arrival :=
  match c.env.route event st.desk with
  | (h, .ok (some r)) => c.env.fanArrivals r h r.agents
  | _ => []

def inboxStep (st : Inbox) : InboxEvent → Option Inbox
  | .route c event =>
    some ⟨(c.env.routeInboundInner event st.desk).1, st.arrivals ++ st.newArrivals c event⟩
  | .other change _ => some { st with desk := change st.desk }

/-- The same message of the same chat, as the platform names it. -/
def SameEvent (e e' : InboundEvent) : Prop :=
  e.channelType = e'.channelType ∧ e.platformId = e'.platformId ∧ e.id = e'.id ∧ e.id ≠ ""

/-- Different events of a session have different rows, and each event has its row. -/
structure DistinctRows (st : Inbox) : Prop where
  ids : st.arrivals.Pairwise fun x y =>
    x.sessionId = y.sessionId → x.rowId = y.rowId → SameEvent x.event y.event
  reached : ∀ x ∈ st.arrivals, x.row.isSome = true → ∃ y ∈ st.arrivals, (y = x ∨ SameEvent y.event x.event) ∧
    y.sessionId = x.sessionId ∧ ∃ m ∈ st.desk.world.inbound, y.row = some m

/-- An event that is written into a session has not the message id of another event there. -/
def NewIds (st : Inbox) : InboxEvent → Prop
  | .route c event => ∀ x ∈ st.newArrivals c event, ∀ y ∈ st.arrivals,
      y.sessionId = x.sessionId → y.messageId = x.messageId → SameEvent y.event x.event
  | .other _ _ => True

/-- The tables hold the arrivals, and what has an id of the router's is an arrival's. -/
structure InboxInv (st : Inbox) : Prop where
  held : ∀ x ∈ st.arrivals, x.In st.desk.world
  rows : ∀ m ∈ st.desk.world.inbound, ':' ∈ m.id.toList → ∃ x ∈ st.arrivals, x.row = some m

theorem SameEvent.symm {e e' : InboundEvent} (h : SameEvent e e') : SameEvent e' e :=
  ⟨h.1.symm, h.2.1.symm, h.2.2.1.symm, h.2.2.1 ▸ h.2.2.2⟩

theorem rowId_toList (x : Arrival) : x.rowId.toList = x.messageId.toList ++ ':' :: x.agentGroupId.toList := by
  simp [Arrival.rowId, toString, String.toList_append]

theorem rowId_iff {x y : Arrival} (hgroup : x.agentGroupId = y.agentGroupId) :
    x.rowId = y.rowId ↔ x.messageId = y.messageId := by
  constructor
  · intro hid
    have hlist := congrArg String.toList hid
    rw [rowId_toList, rowId_toList, hgroup] at hlist
    exact String.toList_injective (List.append_cancel_right hlist)
  · intro hid
    rw [Arrival.rowId, Arrival.rowId, hid, hgroup]

theorem group_of_session {desk : Desk} {x y : Arrival} (hx : x.In desk.world) (hy : y.In desk.world)
    (hsession : x.sessionId = y.sessionId) : x.agentGroupId = y.agentGroupId := by
  obtain ⟨s, hs, hid, hgroup⟩ := hx.session
  obtain ⟨t, ht, hid', hgroup'⟩ := hy.session
  obtain rfl : s = t := List.inj_on_of_nodup_map desk.sessionKeys hs ht ((hid.trans hsession).trans hid'.symm)
  exact hgroup.symm.trans hgroup'

theorem inboxInv_start (desk : Desk) : InboxInv (Inbox.start desk) :=
  ⟨fun _ hx => absurd hx List.not_mem_nil, fun _ hm => absurd hm List.not_mem_nil⟩

theorem Desk.Extends.holds {h h' : Desk} (hext : h.Extends h') {x : Arrival} (hx : x.In h.world) : x.In h'.world :=
  hx.mono hext.sessions hext.kept

theorem InboxInv.extend {st : Inbox} {h : Desk} (hi : InboxInv st) (hext : st.desk.Extends h) :
    InboxInv ⟨h, st.arrivals⟩ := by
  refine ⟨fun x hx => hext.holds (hi.held x hx), fun m hm hcolon => ?_⟩
  rcases hext.added m hm with hm | hplain
  · exact hi.rows m hm hcolon
  · exact absurd hcolon hplain

theorem route_cases (st : Inbox) (c : RouterCall) (event : InboundEvent) :
    (∃ h, st.desk.Extends h ∧ (c.env.routeInboundInner event st.desk).1 = h ∧ st.newArrivals c event = []) ∨
    ∃ h r, st.desk.Extends h ∧ c.env.route event st.desk = (h, .ok (some r)) ∧
      (c.env.routeInboundInner event st.desk).1.world = (c.env.fanOut r h r.agents).1.world ∧
      st.newArrivals c event = c.env.fanArrivals r h r.agents := by
  have hext := route_extends c event st.desk
  rcases hr : c.env.route event st.desk with ⟨h, e | r | r⟩ <;> rw [hr] at hext
  · exact .inl ⟨h, hext, by rw [RouteEnv.routeInboundInner, hr], by rw [Inbox.newArrivals, hr]⟩
  · exact .inl ⟨h, hext, by rw [RouteEnv.routeInboundInner, hr], by rw [Inbox.newArrivals, hr]⟩
  · exact .inr ⟨h, r, hext, rfl, inner_world hr, by rw [Inbox.newArrivals, hr]⟩

theorem inboxInv_step (st : Inbox) (e : InboxEvent) (st' : Inbox) (hi : InboxInv st) (hs : inboxStep st e = some st') :
    InboxInv st' := by
  cases e with
  | other change grows =>
    obtain rfl := Option.some.inj hs
    exact hi.extend (grows st.desk)
  | route c event =>
    obtain rfl := Option.some.inj hs
    rcases route_cases st c event with ⟨h, hext, rfl, hnew⟩ | ⟨h, r, hext, -, hworld, hnew⟩
    · rw [hnew, List.append_nil]
      exact hi.extend hext
    · have hi₁ := hi.extend hext
      have hfan := fanOut_arrivals c.env r r.agents h
      obtain ⟨hsessions, hsub⟩ := subset_fanOut c.env r r.agents h
      refine ⟨fun x hx => ?_, fun m hm hcolon => ?_⟩
      · show x.In (c.env.routeInboundInner event st.desk).1.world
        rw [hworld]
        rcases List.mem_append.mp hx with hx | hx
        · exact (hi₁.held x hx).mono (same_sessions hsessions) hsub
        · exact hfan.held x (hnew ▸ hx)
      · have hm' : m ∈ (c.env.fanOut r h r.agents).1.world.inbound := hworld ▸ hm
        rcases hfan.rows m hm' with hm' | ⟨x, hx, hrow⟩
        · obtain ⟨x, hx, hrow⟩ := hi₁.rows m hm' hcolon
          exact ⟨x, List.mem_append_left _ hx, hrow⟩
        · exact ⟨x, List.mem_append_right _ (hnew ▸ hx), hrow⟩

theorem distinctRows_of_ids {st : Inbox} (hi : InboxInv st)
    (hids : st.arrivals.Pairwise fun x y =>
      x.sessionId = y.sessionId → x.rowId = y.rowId → SameEvent x.event y.event) : DistinctRows st := by
  refine ⟨hids, fun x hx hsome => ?_⟩
  obtain ⟨m, hm, hsession, hid⟩ := (hi.held x hx).lands hsome
  have hcolon : ':' ∈ m.id.toList := by
    rw [hid, rowId_toList]
    simp
  obtain ⟨y, hy, hrow⟩ := hi.rows m hm hcolon
  obtain ⟨hsession', hid'⟩ := (hi.held y hy).row m hrow
  have hsame : y.sessionId = x.sessionId := hsession'.symm.trans hsession
  have hrowId : y.rowId = x.rowId := hid'.symm.trans hid
  refine ⟨y, hy, ?_, hsame, m, hm, hrow⟩
  by_cases heq : y = x
  · exact .inl heq
  · have hsymm : Std.Symm fun x y : Arrival =>
        x.sessionId = y.sessionId → x.rowId = y.rowId → SameEvent x.event y.event :=
      ⟨fun a b hab hsession hrowId => (hab hsession.symm hrowId.symm).symm⟩
    exact .inr (hids.forall hy hx heq hsame hrowId)

theorem newArrivals_apart {st : Inbox} {c : RouterCall} {event : InboundEvent} {st' : Inbox} (hi : InboxInv st')
    (hs : inboxStep st (.route c event) = some st') :
    (st.newArrivals c event).Pairwise fun x y => x.sessionId ≠ y.sessionId := by
  obtain rfl := Option.some.inj hs
  have hgroups : (st.newArrivals c event).Pairwise fun x y => x.agentGroupId ≠ y.agentGroupId := by
    rcases route_cases st c event with ⟨h, -, -, hnew⟩ | ⟨h, r, -, hr, -, hnew⟩
    · rw [hnew]
      exact .nil
    · rw [hnew]
      refine fanArrivals_apart ?_
      rw [(route_spec hr).1]
      exact getMessagingGroupAgents_nodup h r.mg.id
  refine hgroups.imp_of_mem fun {x y} hx hy hne hsession => hne ?_
  exact group_of_session (hi.held x (List.mem_append_right _ hx)) (hi.held y (List.mem_append_right _ hy)) hsession

theorem distinctRows_step (st : Inbox) (e : InboxEvent) (st' : Inbox) (hi : InboxInv st) (hd : DistinctRows st)
    (hs : inboxStep st e = some st') : DistinctRows st' ↔ NewIds st e := by
  have hi' := inboxInv_step st e st' hi hs
  cases e with
  | other change grows =>
    obtain rfl := Option.some.inj hs
    exact iff_of_true (distinctRows_of_ids hi' hd.ids) trivial
  | route c event =>
    have hapart := newArrivals_apart hi' hs
    obtain rfl := Option.some.inj hs
    have hgroup : ∀ y ∈ st.arrivals, ∀ x ∈ st.newArrivals c event, y.sessionId = x.sessionId →
        y.agentGroupId = x.agentGroupId := by
      intro y hy x hx hsession
      exact group_of_session (hi'.held y (List.mem_append_left _ hy)) (hi'.held x (List.mem_append_right _ hx)) hsession
    constructor
    · intro hd' x hx y hy hsession hmessage
      have hall := (List.pairwise_append.mp hd'.ids).2.2
      exact hall y hy x hx hsession ((rowId_iff (hgroup y hy x hx hsession)).mpr hmessage)
    · intro hnew
      refine distinctRows_of_ids hi' (List.pairwise_append.mpr ⟨hd.ids, ?_, fun y hy x hx hsession hrow => ?_⟩)
      · exact hapart.imp fun hne hsession => absurd hsession hne
      · exact hnew x hx y hy hsession ((rowId_iff (hgroup y hy x hx hsession)).mp hrow)

theorem inboxRun_total (st : Inbox) (es : List InboxEvent) : ∃ st', Trans.run inboxStep st es = some st' := by
  induction es generalizing st with
  | nil => exact ⟨st, rfl⟩
  | cons e es ih =>
    obtain ⟨st₁, hs⟩ : ∃ st₁, inboxStep st e = some st₁ := by cases e <;> exact ⟨_, rfl⟩
    obtain ⟨st', hrun⟩ := ih st₁
    exact ⟨st', Trans.run_cons.mpr ⟨st₁, hs, hrun⟩⟩

/-- **When different events have different rows.** -/
theorem distinct_rows_iff (desk : Desk) (es : List InboxEvent) :
    Trans.Always inboxStep DistinctRows (Inbox.start desk) es ↔ Trans.Along inboxStep NewIds (Inbox.start desk) es := by
  obtain ⟨st, hrun⟩ := inboxRun_total (Inbox.start desk) es
  have hstart : DistinctRows (Inbox.start desk) := ⟨.nil, fun _ hx => absurd hx List.not_mem_nil⟩
  exact Trans.always_iff_along inboxInv_step distinctRows_step (inboxInv_start desk) hstart hrun

/-! ### Two channels -/

/-- One agent for two channels of a workspace, with one session for both. -/
def sharedDesk : Desk :=
  { world := World.empty, central := sampleCentral
    messagingGroups := [⟨"mg-1", "slack", "C1", true, none⟩, ⟨"mg-2", "slack", "C2", true, none⟩]
    wirings := [⟨"mg-1", "ag-front", some .pattern, some ".", false, .agentShared, 0⟩,
                ⟨"mg-2", "ag-front", some .pattern, some ".", false, .agentShared, 0⟩]
    dropped := [], sessionKeys := World.empty_sessionKeys, wiringKeys := by simp }

/-- Nothing throws. -/
def idleCall : RouterCall :=
  { env := { sampleRouteEnv with turn := fun _ => sampleTurn 1 Io.idle }
    intercepts := fun _ hf => absurd hf List.not_mem_nil
    autowires := fun _ _ h => .refl h }

/-- A message of a channel; its id is a time stamp. -/
def slackMessage (channel : String) : InboxEvent :=
  .route idleCall { sampleEvent with channelType := "slack", platformId := channel, id := "1700000000.000100" }

/-- The arrivals of a run from `sharedDesk`: session, row id and chat. -/
def arrivalsOf (es : List InboxEvent) : Option (List (String × String × String)) :=
  (Trans.run inboxStep (Inbox.start sharedDesk) es).map fun st =>
    st.arrivals.map fun x => (x.sessionId, x.rowId, x.event.platformId)

/-- Two channels have a message of one time stamp: the second message has no row. -/
theorem shared_session_collides : ¬Trans.Always inboxStep DistinctRows (Inbox.start sharedDesk)
    [slackMessage "C1", slackMessage "C2"] := by
  intro halways
  have htrial : arrivalsOf [slackMessage "C1", slackMessage "C2"] =
      some [("sess-1-aaaaaa", "1700000000.000100:ag-front", "C1"),
        ("sess-1-aaaaaa", "1700000000.000100:ag-front", "C2")] := by decide +kernel
  obtain ⟨st, hrun, harrivals⟩ := Option.map_eq_some_iff.mp htrial
  have hdistinct := halways _ [] st (List.append_nil _).symm hrun
  obtain ⟨x, rest, hsplit, hx, hrest⟩ := List.map_eq_cons_iff.mp harrivals
  obtain ⟨y, _, rfl, hy, -⟩ := List.map_eq_cons_iff.mp hrest
  simp only [Prod.mk.injEq] at hx hy
  have hids := hdistinct.ids
  rw [hsplit] at hids
  have hsession : x.sessionId = y.sessionId := hx.1.trans hy.1.symm
  have hrow : x.rowId = y.rowId := hx.2.1.trans hy.2.1.symm
  have hsame := List.rel_of_pairwise_cons hids (List.mem_cons_self) hsession hrow
  have hchat : "C1" = "C2" := (hx.2.2.symm.trans hsame.2.1).trans hy.2.2
  exact absurd hchat (by decide)

end AgentDesk
