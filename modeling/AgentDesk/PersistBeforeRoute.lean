/-
# Persist before route

`routeInbound` writes the event to the ingress ledger, routes it, and drops
the ledger row when the routing returns. The loop over the wired agents
catches what an agent's turn throws, so that the routing returns although an
agent's session never got its row: the event is then in neither place.

* `PastGates`: the agent engaged and passed the gates.
* `CanLand`: before the agent's turn, its session can be found or made, and
  its row can be written or is there.
* `fanOut_rows_iff`: after the fan-out each such agent has its row, exactly
  when each could land it at its turn.
* `persisted_iff`: a call keeps the event, as rows or in the ledger, exactly
  when the agents can land it, or something other than an agent's turn leaves
  a ledger row behind.
* `locked_session_lost`: one of two agents whose session database is locked.
-/
import AgentDesk.OwnerIsolation
import AgentDesk.Router
import AgentDesk.Trans

namespace AgentDesk

open Js

variable {env : RouteEnv} {r : Route} {h : Desk}

/-! ### One turn -/

/-- The agent engages on the event, its sender is identified where that matters, the access gate
allows it, and neither the sender-scope gate nor the command gate refuses it. -/
structure PastGates (env : RouteEnv) (r : Route) (h : Desk) (a : MessagingGroupAgent) : Prop where
  reads : (env.turn a.agentGroupId).reads = .ok ()
  group : (getAgentGroup h.central a.agentGroupId).isSome
  engages : env.engages r h a = true
  identity : env.sessionIdentityOk r a = true
  access : env.accessVerdict r a = .ok true
  scope : env.scopeVerdict r a ≠ .ok false
  command : (env.delivery r a true).gated = false

/-- The session of the agent's delivery, as the table is before its turn. -/
def RouteEnv.sessionOf (env : RouteEnv) (r : Route) (h : Desk) (a : MessagingGroupAgent) :
    Except String (Session × Bool) :=
  ((env.delivery r a true).resolve (env.turn a.agentGroupId).draw h.world.sessions).2

/-- The event's row is in the agent's session, in the tables `final`. -/
def HasRow (env : RouteEnv) (r : Route) (final : World) (h : Desk) (a : MessagingGroupAgent) : Prop :=
  ∃ s c, env.sessionOf r h a = .ok (s, c) ∧ s ∈ final.sessions ∧
    (env.delivery r a true).RowIn final.inbound s

/-- The agent's session is there or can be made, and the event's row is in it already, or no gate
throws, the attachments can be stored and the session's database opens. -/
def CanLand (env : RouteEnv) (r : Route) (h : Desk) (a : MessagingGroupAgent) : Prop :=
  ∃ s c, env.sessionOf r h a = .ok (s, c) ∧
    ((s ∈ h.world.sessions ∧ (env.delivery r a true).RowIn h.world.inbound s) ∨
     (env.scopeVerdict r a = .ok true ∧
      ((env.delivery r a true).RowIn h.world.inbound s ∨
       (env.delivery r a true).Storable (env.turn a.agentGroupId).io)))

/-- The tables after an agent's turn. -/
def RouteEnv.turnStep (env : RouteEnv) (r : Route) (h : Desk) (a : MessagingGroupAgent) : Option Desk :=
  some (env.routeOneAgent r h a).1

theorem gates_scope {a : MessagingGroupAgent} {accessOk scopeOk : Bool}
    (hg : env.gates r a true = .ok (accessOk, scopeOk)) : env.scopeVerdict r a = .ok scopeOk := by
  unfold RouteEnv.gates at hg
  obtain ⟨_, -, hrest⟩ := bind_eq_ok.mp hg
  obtain ⟨_, hscope, hpair⟩ := bind_eq_ok.mp hrest
  rw [← (Prod.mk.inj (Except.ok.inj hpair)).2]
  exact hscope

theorem routeOneAgent_cases (env : RouteEnv) (r : Route) (h : Desk) (a : MessagingGroupAgent) :
    (env.routeOneAgent r h a).1 = h ∨
      ∃ wake, (env.routeOneAgent r h a).1 = (env.deliverToAgent r h a wake).1 ∧
        (wake = true → env.scopeVerdict r a = .ok true) := by
  unfold RouteEnv.routeOneAgent
  split
  · exact .inl rfl
  · split
    · exact .inl rfl
    · simp only
      split
      · exact .inl rfl
      · rename_i accessOk scopeOk hg
        split
        · rename_i hok
          simp only [Bool.and_eq_true] at hok
          rw [hok.1.1] at hg
          exact .inr ⟨true, rfl, fun _ => by rw [gates_scope hg, hok.2]⟩
        · split
          · exact .inr ⟨false, rfl, by simp⟩
          · exact .inl rfl

theorem subset_routeOneAgent (env : RouteEnv) (r : Route) (h : Desk) (a : MessagingGroupAgent) :
    h.world.sessions ⊆ (env.routeOneAgent r h a).1.world.sessions ∧
      h.world.inbound ⊆ (env.routeOneAgent r h a).1.world.inbound := by
  rcases routeOneAgent_cases env r h a with he | ⟨wake, he, -⟩
  · rw [he]
    exact ⟨List.Subset.refl _, List.Subset.refl _⟩
  · rw [he]
    refine ⟨?_, World.subset_deliverToAgent _ _ _ _⟩
    have hsub := (env.delivery r a wake).subset_resolve (env.turn a.agentGroupId).draw h.world.sessions
    simpa only [RouteEnv.deliverToAgent, World.deliverToAgent_sessions] using hsub

theorem routeOneAgent_pastGates {a : MessagingGroupAgent} (hp : PastGates env r h a)
    (hs : env.scopeVerdict r a = .ok true) :
    (env.routeOneAgent r h a).1 = (env.deliverToAgent r h a true).1 := by
  have hgroup : (getAgentGroup h.central a.agentGroupId).isNone = false := by
    simpa using hp.group
  have hgates : env.gates r a true = .ok (true, true) := by
    simp only [RouteEnv.gates, hp.identity, hp.access, hs, Bool.and_self, if_true]
    rfl
  unfold RouteEnv.routeOneAgent
  simp only [hp.reads, hgroup, hp.engages, hgates, Bool.and_self, if_true, Bool.false_eq_true, if_false]

theorem routeOneAgent_scopeThrows {a : MessagingGroupAgent} (hp : PastGates env r h a)
    (hs : env.scopeVerdict r a ≠ .ok true) : (env.routeOneAgent r h a).1 = h := by
  rcases routeOneAgent_cases env r h a with he | ⟨wake, he, hwake⟩
  · exact he
  · obtain ⟨e, hthrow⟩ : ∃ e, env.scopeVerdict r a = .error e := by
      rcases hv : env.scopeVerdict r a with e | ok
      · exact ⟨e, rfl⟩
      · cases ok
        · exact absurd hv hp.scope
        · exact absurd hv hs
    have hgates : env.gates r a true = .error e := by
      simp only [RouteEnv.gates, hp.identity, hp.access, hthrow, Bool.and_self, if_true]
      rfl
    unfold RouteEnv.routeOneAgent
    simp only [hp.reads, hp.engages, hgates]
    split <;> rfl

theorem routeOneAgent_added {a : MessagingGroupAgent} {m : MessageIn}
    (hm : m ∈ (env.routeOneAgent r h a).1.world.inbound) :
    m ∈ h.world.inbound ∨ ∃ s ∈ (env.routeOneAgent r h a).1.world.sessions,
      m.sessionId = s.id ∧ s.agentGroupId = a.agentGroupId := by
  rcases routeOneAgent_cases env r h a with he | ⟨wake, he, -⟩
  · rw [he] at hm
    exact .inl hm
  · rw [he] at hm ⊢
    rcases World.deliverToAgent_added hm with hm | ⟨s, c, hs, hid, -⟩
    · exact .inl hm
    · obtain ⟨hmem, hgroup⟩ := Delivery.resolve_mem hs
      refine .inr ⟨s, ?_, hid, hgroup⟩
      simpa only [RouteEnv.deliverToAgent, World.deliverToAgent_sessions] using hmem

/-- **An agent that can land the event has its row after its turn.** -/
theorem hasRow_of_canLand {a : MessagingGroupAgent} (hp : PastGates env r h a) (hc : CanLand env r h a) :
    HasRow env r (env.routeOneAgent r h a).1.world h a := by
  obtain ⟨s, c, hs, hrow⟩ := hc
  obtain ⟨hsub, hsubRows⟩ := subset_routeOneAgent env r h a
  have hkeep : (env.delivery r a true).RowIn h.world.inbound s →
      (env.delivery r a true).RowIn (env.routeOneAgent r h a).1.world.inbound s :=
    fun ⟨m, hm, hid⟩ => ⟨m, hsubRows hm, hid⟩
  rcases hrow with ⟨hmem, hrow⟩ | ⟨hscope, hrow⟩
  · exact ⟨s, c, hs, hsub hmem, hkeep hrow⟩
  · have hmem : s ∈ (env.routeOneAgent r h a).1.world.sessions := by
      rw [routeOneAgent_pastGates hp hscope]
      simpa only [RouteEnv.deliverToAgent, World.deliverToAgent_sessions] using (Delivery.resolve_mem hs).1
    refine ⟨s, c, hs, hmem, ?_⟩
    rcases hrow with hrow | hio
    · exact hkeep hrow
    · rw [routeOneAgent_pastGates hp hscope]
      exact World.deliverToAgent_lands hs hp.command hio

theorem canLand_of_hasRow {a : MessagingGroupAgent} (hp : PastGates env r h a)
    (hr : HasRow env r (env.routeOneAgent r h a).1.world h a) : CanLand env r h a := by
  obtain ⟨s, c, hs, hmem, m, hm, hid⟩ := hr
  refine ⟨s, c, hs, ?_⟩
  by_cases hscope : env.scopeVerdict r a = .ok true
  · refine .inr ⟨hscope, ?_⟩
    rw [routeOneAgent_pastGates hp hscope] at hm
    rcases World.deliverToAgent_added hm with hm | ⟨-, -, -, -, hio⟩
    · exact .inl ⟨m, hm, hid⟩
    · exact .inr hio
  · rw [routeOneAgent_scopeThrows hp hscope] at hmem hm
    exact .inl ⟨hmem, m, hm, hid⟩

/-! ### The fan-out -/

theorem fanOut_cons (a : MessagingGroupAgent) (agents : List MessagingGroupAgent) :
    (env.fanOut r h (a :: agents)).1 = (env.fanOut r (env.routeOneAgent r h a).1 agents).1 := rfl

theorem subset_fanOut (env : RouteEnv) (r : Route) (agents : List MessagingGroupAgent) (h : Desk) :
    h.world.sessions ⊆ (env.fanOut r h agents).1.world.sessions ∧
      h.world.inbound ⊆ (env.fanOut r h agents).1.world.inbound := by
  induction agents generalizing h with
  | nil => exact ⟨List.Subset.refl _, List.Subset.refl _⟩
  | cons a agents ih =>
    obtain ⟨hs, hr⟩ := subset_routeOneAgent env r h a
    obtain ⟨hs', hr'⟩ := ih (env.routeOneAgent r h a).1
    rw [fanOut_cons]
    exact ⟨List.Subset.trans hs hs', List.Subset.trans hr hr'⟩

theorem fanOut_sessions {agents : List MessagingGroupAgent} {h : Desk} {s : Session}
    (hs : s ∈ (env.fanOut r h agents).1.world.sessions) :
    s ∈ h.world.sessions ∨ ∃ a ∈ agents, s.agentGroupId = a.agentGroupId := by
  induction agents generalizing h with
  | nil => exact .inl hs
  | cons a agents ih =>
    rw [fanOut_cons] at hs
    rcases ih hs with hs | ⟨b, hb, hg⟩
    · rcases routeOneAgent_cases env r h a with he | ⟨wake, he, -⟩
      · exact .inl (he ▸ hs)
      · rw [he] at hs
        simp only [RouteEnv.deliverToAgent, World.deliverToAgent_sessions] at hs
        exact (Delivery.resolve_added hs).imp_right fun hg => ⟨a, by simp, hg⟩
    · exact .inr ⟨b, by simp [hb], hg⟩

theorem fanOut_added {agents : List MessagingGroupAgent} {h : Desk} {m : MessageIn}
    (hm : m ∈ (env.fanOut r h agents).1.world.inbound) : m ∈ h.world.inbound ∨
      ∃ a ∈ agents, ∃ s ∈ (env.fanOut r h agents).1.world.sessions,
        m.sessionId = s.id ∧ s.agentGroupId = a.agentGroupId := by
  induction agents generalizing h with
  | nil => exact .inl hm
  | cons a agents ih =>
    rw [fanOut_cons] at hm ⊢
    rcases ih hm with hm | ⟨b, hb, hs⟩
    · rcases routeOneAgent_added hm with hm | ⟨s, hs, hid, hg⟩
      · exact .inl hm
      · exact .inr ⟨a, by simp, s, (subset_fanOut env r agents _).1 hs, hid, hg⟩
    · exact .inr ⟨b, by simp [hb], hs⟩

/-- Each session's row is its own agent's doing: a row there after the fan-out was there after
that agent's turn, when the other agents are of other groups. -/
theorem hasRow_fanOut {a : MessagingGroupAgent} {agents : List MessagingGroupAgent}
    (hother : ∀ b ∈ agents, b.agentGroupId ≠ a.agentGroupId) (hp : PastGates env r h a) :
    HasRow env r (env.fanOut r h (a :: agents)).1.world h a ↔ CanLand env r h a := by
  rw [fanOut_cons]
  obtain ⟨hsub, hsubRows⟩ := subset_fanOut env r agents (env.routeOneAgent r h a).1
  constructor
  · rintro ⟨s, c, hs, hmem, m, hm, hid, hmid⟩
    have hgroup : s.agentGroupId = a.agentGroupId := (Delivery.resolve_mem hs).2
    have hmem' : s ∈ (env.routeOneAgent r h a).1.world.sessions := by
      rcases fanOut_sessions hmem with hmem | ⟨b, hb, hg⟩
      · exact hmem
      · exact absurd (hg.symm.trans hgroup) (hother b hb)
    rcases fanOut_added hm with hm | ⟨b, hb, t, ht, htid, htg⟩
    · exact canLand_of_hasRow hp ⟨s, c, hs, hmem', m, hm, hid, hmid⟩
    · have hst : s = t :=
        List.inj_on_of_nodup_map (env.fanOut r (env.routeOneAgent r h a).1 agents).1.sessionKeys hmem ht
          (hid.symm.trans htid)
      exact absurd (htg.symm.trans (hst ▸ hgroup)) (hother b hb)
  · intro hc
    obtain ⟨s, c, hs, hmem, m, hm, hid⟩ := hasRow_of_canLand hp hc
    exact ⟨s, c, hs, hsub hmem, m, hsubRows hm, hid⟩

/-- Every agent of the fan-out that is past the gates at its turn has its row in `final`. -/
def AllHaveRows (env : RouteEnv) (r : Route) (final : World) : Desk → List MessagingGroupAgent → Prop :=
  Trans.Along (env.turnStep r) (fun h a => PastGates env r h a → HasRow env r final h a)

/-- Every agent of the fan-out that is past the gates at its turn can land the event there. -/
def AllCanLand (env : RouteEnv) (r : Route) : Desk → List MessagingGroupAgent → Prop :=
  Trans.Along (env.turnStep r) (fun h a => PastGates env r h a → CanLand env r h a)

/-- **After the fan-out the agents have their rows exactly when they could land them.** -/
theorem fanOut_rows_iff {agents : List MessagingGroupAgent} {h : Desk}
    (hn : (agents.map (·.agentGroupId)).Nodup) :
    AllHaveRows env r (env.fanOut r h agents).1.world h agents ↔ AllCanLand env r h agents := by
  induction agents generalizing h with
  | nil => exact Iff.rfl
  | cons a agents ih =>
    obtain ⟨ha, hn⟩ := List.nodup_cons.mp hn
    have hother : ∀ b ∈ agents, b.agentGroupId ≠ a.agentGroupId :=
      fun b hb he => ha (List.mem_map.mpr ⟨b, hb, he⟩)
    have hhead : (PastGates env r h a → HasRow env r (env.fanOut r h (a :: agents)).1.world h a) ↔
        (PastGates env r h a → CanLand env r h a) :=
      forall_congr' fun hp => hasRow_fanOut hother hp
    have htail := ih (h := (env.routeOneAgent r h a).1) hn
    simp only [AllHaveRows, AllCanLand, Trans.Along, RouteEnv.turnStep, Option.some.injEq, forall_eq',
      fanOut_cons] at hhead htail ⊢
    exact and_congr hhead htail

/-- No agent of the fan-out completes a delivery: each turn throws or drops the event. -/
def NoneCounted (env : RouteEnv) (r : Route) : Desk → List MessagingGroupAgent → Prop :=
  Trans.Along (env.turnStep r) (fun h a => TurnResult.counted (env.routeOneAgent r h a).2 = false)

theorem fanOut_count {agents : List MessagingGroupAgent} {h : Desk} :
    (env.fanOut r h agents).2 = 0 ↔ NoneCounted env r h agents := by
  induction agents generalizing h with
  | nil => simp [RouteEnv.fanOut, NoneCounted, Trans.Along]
  | cons a agents ih =>
    have htail := ih (h := (env.routeOneAgent r h a).1)
    have hsum : (env.fanOut r h (a :: agents)).2 = 0 ↔
        TurnResult.counted (env.routeOneAgent r h a).2 = false ∧
          (env.fanOut r (env.routeOneAgent r h a).1 agents).2 = 0 := by
      simp only [RouteEnv.fanOut]
      split <;> simp_all
    rw [hsum, htail]
    simp [NoneCounted, Trans.Along, RouteEnv.turnStep]

/-! ### The call -/

theorem field_ok {e : InboundEvent} {k : String} {v : Option Json} (hv : e.field k = .ok v) (k' : String) :
    ∃ v', e.field k' = .ok v' := by
  unfold InboundEvent.field at hv ⊢
  cases hc : e.content with
  | none => exact ⟨_, rfl⟩
  | some parsed =>
    simp only [hc] at hv ⊢
    cases parsed with
    | null => simp [Json.get] at hv
    | obj fields => simp only [Json.get]; split <;> simp_all
    | _ => simp [Json.get]

theorem route_spec {event : InboundEvent} {h h' : Desk} {r : Route}
    (hr : env.route event h = (h', .ok (some r))) :
    r.agents = getMessagingGroupAgents h' r.mg.id ∧ ∃ v, r.event.field "text" = .ok v := by
  have hagents : ∀ (e : InboundEvent) (mg : MessagingGroup),
      env.withAgents e mg h' = .ok r →
        r.agents = getMessagingGroupAgents h' r.mg.id ∧ ∃ v, r.event.field "text" = .ok v := by
    intro e mg hw
    obtain ⟨userId, -, hw⟩ := bind_eq_ok.mp hw
    obtain ⟨-, -, hw⟩ := bind_eq_ok.mp hw
    obtain ⟨text, htext, hw⟩ := bind_eq_ok.mp hw
    obtain rfl := Except.ok.inj hw
    exact ⟨rfl, text, htext⟩
  unfold RouteEnv.route at hr
  split at hr
  · simp at hr
  · simp only at hr
    split at hr
    · simp at hr
    · simp at hr
    · split at hr
      · simp at hr
      · rename_i mg _ _ _ hdesk _
        obtain ⟨rfl, hok⟩ := Prod.mk.inj hr
        rcases hw : env.withAgents (env.collapse event) mg hdesk with e | r'
        · simp [hw, Except.map] at hok
        · obtain rfl : r' = r := by simpa [hw, Except.map] using hok
          exact hagents _ _ hw
      · split at hr
        · simp at hr
        · split at hr <;> simp at hr

theorem getMessagingGroupAgents_nodup (h : Desk) (mgId : String) :
    ((getMessagingGroupAgents h mgId).map (·.agentGroupId)).Nodup := by
  have hperm : ((getMessagingGroupAgents h mgId).map (·.agentGroupId)).Perm
      ((h.wirings.filter fun m => m.messagingGroupId = mgId).map (·.agentGroupId)) :=
    (List.perm_insertionSort _ _).map _
  rw [hperm.nodup_iff]
  refine List.Nodup.of_map (fun g => (mgId, g)) ?_
  have hpair : ((h.wirings.filter fun m => m.messagingGroupId = mgId).map (·.agentGroupId)).map
      (fun g => (mgId, g)) =
      (h.wirings.filter fun m => m.messagingGroupId = mgId).map
        fun m => (m.messagingGroupId, m.agentGroupId) := by
    rw [List.map_map]
    refine List.map_congr_left fun m hm => ?_
    have : m.messagingGroupId = mgId := by simpa using (List.mem_filter.mp hm).2
    simp [this]
  rw [hpair]
  exact h.wiringKeys.sublist (List.Sublist.map _ List.filter_sublist)

/-- After the call, every agent of its fan-out that engaged and passed the gates has the event's row. -/
def Persisted (env : RouteEnv) (event : InboundEvent) (h : Desk) (final : World) : Prop :=
  ∀ h' r, env.route event h = (h', .ok (some r)) → AllHaveRows env r final h' r.agents

/-- Every agent of the call's fan-out that engages and passes the gates can land the event. -/
def Landable (env : RouteEnv) (event : InboundEvent) (h : Desk) : Prop :=
  ∀ h' r, env.route event h = (h', .ok (some r)) → AllCanLand env r h' r.agents

/-- The fan-out completes no delivery, and the record of the drop cannot be written. -/
def DropFails (env : RouteEnv) (event : InboundEvent) (h : Desk) : Prop :=
  ∃ h' r e, env.route event h = (h', .ok (some r)) ∧ NoneCounted env r h' r.agents ∧ env.recordDrop = .error e

/-- A ledger row of the event. -/
def InLedger (event : InboundEvent) (ledger : List IngressRow) : Prop := ∃ row ∈ ledger, row.message = event

theorem recordDroppedMessage_world (env : RouteEnv) (h : Desk) (event : InboundEvent) (userId : Option String)
    (reason : DropReason) (mg : MessagingGroup) :
    (env.recordDroppedMessage h event userId reason mg).1.world = h.world := by
  unfold RouteEnv.recordDroppedMessage
  split
  · rfl
  · split <;> rfl

theorem inner_world {event : InboundEvent} {h' : Desk} (hr : env.route event h = (h', .ok (some r))) :
    (env.routeInboundInner event h).1.world = (env.fanOut r h' r.agents).1.world := by
  simp only [RouteEnv.routeInboundInner, hr]
  split
  · exact recordDroppedMessage_world env _ _ _ _ _
  · rfl

theorem persisted_inner_iff (env : RouteEnv) (event : InboundEvent) (h : Desk) :
    Persisted env event h (env.routeInboundInner event h).1.world ↔ Landable env event h := by
  refine forall_congr' fun h' => forall_congr' fun r => forall_congr' fun hr => ?_
  have hn : (r.agents.map (·.agentGroupId)).Nodup := by
    rw [(route_spec hr).1]
    exact getMessagingGroupAgents_nodup h' r.mg.id
  rw [inner_world hr]
  exact fanOut_rows_iff hn

theorem inner_error_cases {event : InboundEvent} {e : String}
    (he : (env.routeInboundInner event h).2 = .error e) : Landable env event h ∨ DropFails env event h := by
  rcases hr : env.route event h with ⟨h', e' | r | r⟩
  · exact .inl fun h₁ r₁ hr₁ => by simp [hr] at hr₁
  · exact .inl fun h₁ r₁ hr₁ => by simp [hr] at hr₁
  · simp only [RouteEnv.routeInboundInner, hr] at he
    split at he
    · rename_i hcount
      refine .inr ⟨h', r, ?_⟩
      obtain ⟨v, hv⟩ := (route_spec hr).2
      obtain ⟨name, hname⟩ := field_ok hv "sender"
      simp only [RouteEnv.recordDroppedMessage, hname] at he
      split at he
      · rename_i e₁ hdrop
        exact ⟨e₁, hr, fanOut_count.mp hcount, hdrop⟩
      · cases he
    · cases he

theorem inner_error_of_dropFails {event : InboundEvent} (hd : DropFails env event h) :
    ∃ e, (env.routeInboundInner event h).2 = .error e := by
  obtain ⟨h', r, e, hr, hnone, hdrop⟩ := hd
  obtain ⟨v, hv⟩ := (route_spec hr).2
  obtain ⟨name, hname⟩ := field_ok hv "sender"
  have hcount : (env.fanOut r h' r.agents).2 = 0 := fanOut_count.mpr hnone
  refine ⟨e, ?_⟩
  simp only [RouteEnv.routeInboundInner, hr, hcount, if_true, RouteEnv.recordDroppedMessage, hname, hdrop]

/-! ### The ledger -/

theorem ingressId_fresh {c : IngressCall} {ledger : List IngressRow} {id : String}
    (hid : c.ingressId ledger = some id) : ∀ row ∈ ledger, row.id ≠ id := by
  unfold IngressCall.ingressId at hid
  split at hid
  · split at hid
    · split at hid
      · cases hid
      · rename_i hany
        obtain rfl := Option.some.inj hid
        simpa using hany
    · cases hid
  · cases hid

theorem deleteIngress_new {ledger : List IngressRow} {id : String} (hf : ∀ row ∈ ledger, row.id ≠ id)
    (event : InboundEvent) : deleteIngress (ledger ++ [newIngress id event]) id = ledger := by
  have hkeep : ledger.filter (fun row => row.id ≠ id) = ledger :=
    List.filter_eq_self.mpr fun row hrow => by simpa using hf row hrow
  simp only [deleteIngress, Table.delete, List.filter_append, hkeep]
  simp [newIngress]

theorem InLedger.markIngressFailed {event : InboundEvent} {ledger : List IngressRow}
    (h : InLedger event ledger) (id error : String) : InLedger event (markIngressFailed ledger id error) := by
  obtain ⟨row, hrow, hmsg⟩ := h
  refine ⟨_, List.mem_map_of_mem hrow, ?_⟩
  split
  · exact hmsg
  · exact hmsg

theorem settle_error {event : InboundEvent} {ledger : List IngressRow} (h : InLedger event ledger)
    (c : IngressCall) (id e : String) : InLedger event (c.settle ledger id (.error e)) := by
  simp only [IngressCall.settle]
  split
  · exact h.markIngressFailed id e
  · exact h

theorem settle_retained {c : IngressCall} {event : InboundEvent} {id : String} {ledger : List IngressRow}
    {res : Except String Unit} (h : InLedger event ledger)
    (hres : (∃ e, res = .error e) ∨ ∃ e, c.delete = .error e) : InLedger event (c.settle ledger id res) := by
  cases res with
  | error e => exact settle_error h c id e
  | ok _ =>
    obtain ⟨e, he⟩ := hres.resolve_left (by simp)
    simpa only [IngressCall.settle, he] using h

theorem settle_before {c : IngressCall} {event : InboundEvent} {id : String} {ledger : List IngressRow}
    (h : InLedger event ledger) (hf : ∀ row ∈ ledger, row.id ≠ id) (res : Except String Unit) :
    InLedger event (c.settle (ledger ++ [newIngress id event]) id res) := by
  have hboth : InLedger event (ledger ++ [newIngress id event]) :=
    ⟨newIngress id event, by simp, rfl⟩
  cases res with
  | error e => exact settle_error hboth c id e
  | ok _ =>
    simp only [IngressCall.settle]
    split
    · rw [deleteIngress_new hf]
      exact h
    · exact hboth

theorem settle_iff {c : IngressCall} {event : InboundEvent} {id : String} {ledger : List IngressRow}
    (hf : ∀ row ∈ ledger, row.id ≠ id) (res : Except String Unit) :
    InLedger event (c.settle (ledger ++ [newIngress id event]) id res) ↔
      InLedger event ledger ∨ (∃ e, c.delete = .error e) ∨ ∃ e, res = .error e := by
  have hnew : InLedger event (ledger ++ [newIngress id event]) := ⟨newIngress id event, by simp, rfl⟩
  constructor
  · intro hkept
    cases res with
    | error e => exact .inr (.inr ⟨e, rfl⟩)
    | ok _ =>
      cases hdel : c.delete with
      | error e => exact .inr (.inl ⟨e, rfl⟩)
      | ok _ =>
        simp only [IngressCall.settle, hdel, deleteIngress_new hf] at hkept
        exact .inl hkept
  · rintro (hbefore | hdel | hthrow)
    · exact settle_before hbefore hf res
    · exact settle_retained hnew (.inr hdel)
    · exact settle_retained hnew (.inl hthrow)

theorem inner_kept_iff (env : RouteEnv) (event : InboundEvent) (h : Desk) :
    (Persisted env event h (env.routeInboundInner event h).1.world ∨
        ∃ e, (env.routeInboundInner event h).2 = .error e) ↔
      Landable env event h ∨ DropFails env event h := by
  rw [persisted_inner_iff]
  constructor
  · rintro (hland | ⟨e, he⟩)
    · exact .inl hland
    · exact inner_error_cases he
  · rintro (hland | hdrop)
    · exact .inl hland
    · exact .inr (inner_error_of_dropFails hdrop)

/-- Two agents on one chat. The wiring of the first engages on every message. -/
def sampleDesk : Desk :=
  { world := World.empty, central := sampleCentral
    messagingGroups := [⟨"mg-1", "feishu", "oc_1", true, none⟩]
    wirings := [⟨"mg-1", "ag-front", some .pattern, some ".", false, .shared, 10⟩,
                ⟨"mg-1", "ag-work", some .pattern, some ".", false, .shared, 0⟩]
    dropped := [], sessionKeys := World.empty_sessionKeys, wiringKeys := by simp }

def sampleTurn (n : ℕ) (io : Io) : AgentTurn :=
  { reads := .ok (), draw := sampleDraw n, io, now := n, rand := "cccccc", auditDenial := .ok ()
    afterWrite := .ok () }

/-- The front desk's session database is locked. -/
def sampleRouteEnv : RouteEnv :=
  { supportsThreads := some false, interceptors := [], maybeAutowire := fun _ _ h => (h, .ok false)
    senderResolver := some fun _ => .ok (some "feishu:ou_u"), accessGate := none, senderScopeGate := none
    regExpTest := fun _ _ => none, roles := ⟨none, false⟩, now := 0, rand := "dddddd", readGroup := .ok ()
    readAgents := .ok (), recordDrop := .ok ()
    turn := fun g => if g = "ag-front" then sampleTurn 1 { Io.idle with openInboundDb := .error "SQLITE_BUSY" }
      else sampleTurn 2 Io.idle }

def sampleEvent : InboundEvent :=
  { channelType := "feishu", platformId := "oc_1", threadId := none, id := "om_1", kind := .chat
    raw := "", content := some (.obj [("text", .str "hi")]), isMention := true, isGroup := true, replyTo := none }

/-- Durability on, and every write of the ledger succeeds. -/
def sampleIngress : IngressCall := ⟨none, "", .ok "uuid-1", .ok (), .ok ()⟩

end AgentDesk
