/-
# Whose session a channel message gets

A channel message is delivered to the session `resolveSession` finds for it,
and each session mode has its own lookup. Four of them are owner-aware: the
shared ones read only sessions nobody owns, the user-scoped ones only the
sender's. `agent-shared` reads the newest active session of the agent group,
whoever owns it (`findSessionByAgentGroup`). Where a group is wired per-user in
one chat and agent-shared in another, the second chat's messages go into the
private session of whoever wrote last in the first.

* `shared_into_private`: two deliveries that show it.
* `own_lane_iff`: over every run of deliveries, delegations and changes of the
  table, no user is given another's session exactly when every agent-shared
  delivery finds the newest active session of its group ownerless or the
  sender's own.
-/
import AgentDesk.OwnerIsolation

namespace AgentDesk

open Js

/-! ### The newest session of a group -/

/-- The active sessions of an agent group, in table order. -/
def activeOf (db : List Session) (agentGroupId : String) : List Session :=
  db.filter fun s => s.agentGroupId = agentGroupId && s.status = .active

/-- `s` was created last of the rows; of those created in the same millisecond it is the first. -/
def Newest (rows : List Session) (s : Session) : Prop :=
  s ∈ rows ∧ (∀ t ∈ rows, t.createdAt ≤ s.createdAt) ∧
    ∀ t ∈ rows, s.createdAt ≤ t.createdAt → rows.idxOf s ≤ rows.idxOf t

theorem findSessionByAgentGroup_eq_some {db : List Session} {g : String} {s : Session} :
    findSessionByAgentGroup db g = some s ↔ Newest (activeOf db g) s := by
  unfold findSessionByAgentGroup newestActive
  rw [List.argmax_eq_some_iff]
  rfl

theorem resolveExisting_owner {db : List Session} {g mg : String} {th owner : Option String}
    {mode : SessionMode} {s : Session} (hmode : mode ≠ .agentShared)
    (h : resolveExisting db g (some mg) th mode owner none = some s) :
    s.ownerUserId = none ∨ s.ownerUserId = owner := by
  change resolveExisting.byMode db g (some mg) th mode owner = some s at h
  unfold resolveExisting.byMode at h
  rw [if_neg hmode] at h
  by_cases hmg : mg = ""
  · simp [hmg] at h
  · simp only [hmg, if_false] at h
    by_cases hscoped : isUserScopedSessionMode mode = true
    · rw [if_pos hscoped] at h
      obtain ⟨o, ho, hfind⟩ := Option.bind_eq_some_iff.mp h
      have hp := (find_spec hfind).2
      simp only [Bool.and_eq_true, decide_eq_true_eq] at hp
      right
      rw [hp.1.1.2, ho]
    · rw [if_neg hscoped] at h
      have hp := (find_spec h).2
      simp only [Bool.and_eq_true, decide_eq_true_eq] at hp
      exact .inl hp.1.2

theorem Delivery.resolve_ok {x : Delivery} {d : Draw} {db : List Session} {s : Session} {c : Bool}
    (h : (x.resolve d db).2 = .ok (s, c)) :
    resolveExisting db x.agentGroupId (some x.messagingGroupId) x.threadId x.effectiveSessionMode
      x.userId none = some s ∨ s = x.newSession d := by
  unfold Delivery.resolve resolveSession at h
  split at h
  · exact absurd h (by simp)
  · split at h
    · rename_i existing hfound
      obtain ⟨rfl, -⟩ := Prod.mk.inj (Except.ok.inj h)
      exact .inl hfound
    · right
      dsimp only at h
      split at h
      · exact absurd h (by simp)
      · split at h
        · obtain ⟨rfl, -⟩ := Prod.mk.inj (Except.ok.inj h)
          rfl
        · exact absurd h (by simp)

theorem Delivery.newSession_owner (x : Delivery) (d : Draw) :
    (x.newSession d).ownerUserId = none ∨ (x.newSession d).ownerUserId = x.userId := by
  by_cases hscoped : isUserScopedSessionMode x.effectiveSessionMode = true
  · right
    simp [Delivery.newSession, AgentDesk.newSession, hscoped]
  · left
    simp [Delivery.newSession, AgentDesk.newSession, hscoped]

/-! ### Runs, with what each delivery was given -/

/-- A session given to a sender's message. -/
structure Resolution where
  userId : Option String
  session : Session
  deriving DecidableEq, Repr

/-- The world, and every session a channel message was given so far. -/
structure LaneState where
  world : World
  resolved : List Resolution

def LaneState.empty : LaneState := ⟨World.empty, []⟩

/-- The session an event gives a channel message. -/
def resolutions (w : World) : RouteEvent → List Resolution
  | .deliver d _ x => match (x.resolve d w.sessions).2 with
    | .ok (session, _) => [⟨x.userId, session⟩]
    | .error _ => []
  | _ => []

def laneStep (s : LaneState) (e : RouteEvent) : Option LaneState :=
  (routeStep s.world e).map fun w => ⟨w, s.resolved ++ resolutions s.world e⟩

/-- No user's message was given a session another user owns. -/
def OwnLane (s : LaneState) : Prop :=
  ∀ r ∈ s.resolved, ∀ U V, r.userId = some V → r.session.ownerUserId = some U → U = V

/-- An agent-shared delivery finds the newest active session of its group ownerless, or its sender's. -/
def NewestIsFree (s : LaneState) : RouteEvent → Prop
  | .deliver _ _ x => x.effectiveSessionMode = .agentShared → ∀ U V, x.userId = some V →
      ∀ t, Newest (activeOf s.world.sessions x.agentGroupId) t → t.ownerUserId = some U → U = V
  | _ => True

theorem Delivery.resolve_agentShared {x : Delivery} (d : Draw) {db : List Session} {t : Session}
    (hmode : x.effectiveSessionMode = .agentShared) (ht : Newest (activeOf db x.agentGroupId) t) :
    (x.resolve d db).2 = .ok (t, false) := by
  have hfind := findSessionByAgentGroup_eq_some.mpr ht
  have hfound : resolveExisting db x.agentGroupId (some x.messagingGroupId) x.threadId
      x.effectiveSessionMode x.userId none = some t := by
    show resolveExisting.byMode db x.agentGroupId (some x.messagingGroupId) x.threadId
      x.effectiveSessionMode x.userId = some t
    unfold resolveExisting.byMode
    rw [if_pos hmode, hfind]
  unfold Delivery.resolve resolveSession
  rw [hfound]
  simp [hmode, isUserScopedSessionMode]

/-- **One delivery.** It is given no other user's session exactly when the newest session of the group
is free, if its mode looks for that one. -/
theorem resolutions_own_iff (s : LaneState) (e : RouteEvent) :
    (∀ r ∈ resolutions s.world e, ∀ U V, r.userId = some V → r.session.ownerUserId = some U → U = V) ↔
      NewestIsFree s e := by
  cases e with
  | deliver d io x =>
    constructor
    · intro h hmode U V hV t ht hU
      have hres := x.resolve_agentShared d hmode ht
      exact h ⟨x.userId, t⟩ (by simp [resolutions, hres]) U V hV hU
    · intro h r hr U V hV hU
      cases hres : (x.resolve d s.world.sessions).2 with
      | error e => simp [resolutions, hres] at hr
      | ok p =>
        obtain ⟨t, c⟩ := p
        obtain rfl : r = ⟨x.userId, t⟩ := by simpa [resolutions, hres] using hr
        -- an owner that is nobody or the sender is no other user
        have hown : t.ownerUserId = none ∨ t.ownerUserId = x.userId → U = V := by
          rintro (ho | ho)
          · rw [ho] at hU
            cases hU
          · exact Option.some.inj (hU.symm.trans (ho.trans hV))
        rcases Delivery.resolve_ok hres with hfound | rfl
        · by_cases hmode : x.effectiveSessionMode = .agentShared
          · have hfind : findSessionByAgentGroup s.world.sessions x.agentGroupId = some t := by
              rw [hmode] at hfound
              exact hfound
            exact h hmode U V hV t (findSessionByAgentGroup_eq_some.mp hfind) hU
          · exact hown (resolveExisting_owner hmode hfound)
        · exact hown (x.newSession_owner d)
  | _ => exact ⟨fun _ => trivial, fun _ r hr => absurd hr (by simp [resolutions])⟩

theorem ownLane_step (s : LaneState) (e : RouteEvent) (s' : LaneState) (h : OwnLane s)
    (hs : laneStep s e = some s') : OwnLane s' ↔ NewestIsFree s e := by
  obtain ⟨w, -, rfl⟩ := Option.map_eq_some_iff.mp hs
  rw [← resolutions_own_iff s e]
  constructor
  · intro h' r hr
    exact h' r (List.mem_append_right _ hr)
  · intro hnew r hr
    rcases List.mem_append.mp hr with hr | hr
    · exact h r hr
    · exact hnew r hr

/-- **When no user gets another's session.** In a run from a fresh installation, no channel message of
a user is ever given a session another user owns exactly when every agent-shared delivery of the run
finds the newest active session of its agent group ownerless or owned by its sender. -/
theorem own_lane_iff {es : List RouteEvent} {s : LaneState} (hrun : Trans.run laneStep .empty es = some s) :
    Trans.Always laneStep OwnLane .empty es ↔ Trans.Along laneStep NewestIsFree .empty es := by
  have hempty : OwnLane .empty := fun r hr => absurd hr (List.not_mem_nil)
  exact Trans.always_iff_along (I := fun _ => True) (fun _ _ _ _ _ => trivial)
    (fun s e s' _ h hs => ownLane_step s e s' h hs) trivial hempty hrun

/-- `feishu:ou_v` in a second chat, wired to the same agent group as agent-shared. -/
def sharedDelivery : Delivery :=
  { sampleDelivery with
    messagingGroupId := "mg-2", effectiveSessionMode := .agentShared, userId := some "feishu:ou_v"
    messageId := "om_2:ag-front", platformId := some "feishu:oc_b"
    content := some (.obj [("senderId", .str "ou_v"), ("text", .str "hello")]) }

/-- The second chat's message is given the first user's private session. -/
theorem shared_into_private :
    ∃ s, Trans.run laneStep .empty [.deliver (sampleDraw 1) Io.idle sampleDelivery,
        .deliver (sampleDraw 2) Io.idle sharedDelivery] = some s ∧
      (∃ r ∈ s.resolved, r.userId = some "feishu:ou_v" ∧ r.session.ownerUserId = some "feishu:ou_u") ∧
      ¬ OwnLane s := by
  refine ⟨_, rfl, ⟨_, List.mem_append_right _ (.head _), rfl, rfl⟩, fun h => ?_⟩
  have := h _ (List.mem_append_right _ (.head _)) "feishu:ou_u" "feishu:ou_v" rfl rfl
  exact absurd this (by decide)

/-- Two users who each write to a front desk that keeps a session per user. -/
theorem own_lane_iff_sample :
    ∃ s, Trans.run laneStep .empty [.deliver (sampleDraw 1) Io.idle sampleDelivery,
        .deliver (sampleDraw 2) Io.idle { sharedDelivery with effectiveSessionMode := .perUser }] = some s ∧
      s.resolved.map (·.session.ownerUserId) = [some "feishu:ou_u", some "feishu:ou_v"] ∧ OwnLane s := by
  have hrun : Trans.run laneStep .empty [.deliver (sampleDraw 1) Io.idle sampleDelivery,
      .deliver (sampleDraw 2) Io.idle { sharedDelivery with effectiveSessionMode := .perUser }] =
    some _ := rfl
  refine ⟨_, hrun, rfl, (own_lane_iff hrun).mpr ?_ _ [] _ (List.append_nil _).symm hrun⟩
  exact ⟨fun hmode => absurd hmode (by decide), fun _ _ =>
    ⟨fun hmode => absurd hmode (by decide), fun _ _ => trivial⟩⟩

end AgentDesk
