/-
# A delegation stays in its user's lane

Sessions are created by channel deliveries and by delegations, in any order,
archived and deleted; containers write whatever they like into the rows that
are routed. Still, a row routed from a session owned by a user lands in a
session of that user or in one that no one owns (`route_owner_isolated`).

The target is picked by the reply anchor, by the newest session of the source's
root, or by owner. Only the anchor and the last are checked against the owner
where they are used; the root lookup is not. What makes it safe is an invariant
of the table (`LaneInv`): the sessions of one root have one owner. A channel
session is a root of its own under a fresh id, and a delegation that creates a
session hands down both its root and its owner.

Key theorems: `laneInv_run`, `route_owner_isolated`.
-/
import AgentDesk.AgentRoute
import AgentDesk.Ingress
import AgentDesk.Trans

namespace AgentDesk

open Js

/-- What happens to the world: a channel delivery, a delegation from a session
of the table, a change of a session's status, the removal of a session. -/
inductive RouteEvent where
  | deliver (d : Draw) (io : Io) (x : Delivery)
  | route (c : Central) (d : Draw) (io : Io) (a2aMsgId : String) (sessionId : String)
      (msg : RoutableAgentMessage)
  | updateStatus (sessionId : String) (status : SessionStatus)
  | deleteSession (sessionId : String)

/-- The world after an event. -/
def routeStep (w : World) : RouteEvent → Option World
  | .deliver d io x => if w.redrawn d then none else some (w.deliverToAgent d io x).1
  | .route c d io mid sessionId msg =>
    if w.redrawn d then none
    else (getSession w.sessions sessionId).map fun s => (routeAgentMessage c d io mid w msg s).1
  | .updateStatus sessionId status =>
    some { w with sessions := w.sessions.map fun s => if s.id = sessionId then { s with status } else s }
  | .deleteSession sessionId =>
    some { w with
      sessions := w.sessions.filter fun s => s.id ≠ sessionId
      inbound := w.inbound.filter fun r => r.sessionId ≠ sessionId }

/-- The columns of a session row that never change. -/
def SameLane (s b : Session) : Prop :=
  s.id = b.id ∧ s.ownerUserId = b.ownerUserId ∧ s.rootSessionId = b.rootSessionId

theorem SameLane.refl (s : Session) : SameLane s s := ⟨rfl, rfl, rfl⟩

theorem SameLane.trans {a b c : Session} (h : SameLane a b) (h' : SameLane b c) : SameLane a c :=
  ⟨h.1.trans h'.1, h.2.1.trans h'.2.1, h.2.2.trans h'.2.2⟩

/-- The sessions of one root have one owner. `kept` ties the table to what was
inserted; `rooted` says a root is the id of a session that was inserted, so
that a fresh id is nobody's root. -/
structure LaneInv (w : World) : Prop where
  kept : ∀ s ∈ w.sessions, ∃ b ∈ w.born, SameLane s b
  ids : ∀ b ∈ w.born, ∀ b' ∈ w.born, b.id = b'.id → b = b'
  rooted : ∀ b ∈ w.born, ∃ r, b.rootSessionId = some r ∧ r ≠ "" ∧ ∃ b' ∈ w.born, b'.id = r
  lane : ∀ b ∈ w.born, ∀ b' ∈ w.born, b.rootSessionId = b'.rootSessionId →
    b.ownerUserId = b'.ownerUserId
  owned : ∀ b ∈ w.born, b.ownerUserId ≠ some ""

theorem laneInv_empty : LaneInv World.empty := by
  constructor <;> simp [World.empty]

theorem LaneInv.of_kept {w w' : World} (h : LaneInv w) (hb : w'.born = w.born)
    (hs : ∀ s ∈ w'.sessions, ∃ s₀ ∈ w.sessions, SameLane s s₀) : LaneInv w' := by
  refine ⟨fun s hm => ?_, hb ▸ h.ids, hb ▸ h.rooted, hb ▸ h.lane, hb ▸ h.owned⟩
  obtain ⟨s₀, hm₀, hl⟩ := hs s hm
  obtain ⟨b, hbm, hl'⟩ := h.kept s₀ hm₀
  exact ⟨b, hb ▸ hbm, hl.trans hl'⟩

theorem fresh_born {w : World} {d : Draw} (hd : w.redrawn d = false)
    (hf : ∀ s ∈ w.sessions, s.id ≠ generateId d.now d.rand) :
    ∀ b ∈ w.born, b.id ≠ generateId d.now d.rand := by
  intro b hb he
  simp only [World.redrawn, Bool.and_eq_false_iff, Bool.not_eq_false', List.any_eq_true,
    List.any_eq_false, decide_eq_true_eq] at hd
  rcases hd with hd | ⟨s, hs, hse⟩
  · exact hd b hb he
  · exact hf s hs hse

/-- A row is added whose id is new and that is the root of its own lane, or is in
the lane of a session of the table and has its owner. -/
theorem LaneInv.insert {w : World} (h : LaneInv w) {t : Session} (hid : ∀ b ∈ w.born, b.id ≠ t.id)
    (hne : t.id ≠ "") (ho : t.ownerUserId ≠ some "")
    (hr : t.rootSessionId = some t.id ∨
      ∃ s ∈ w.sessions, t.rootSessionId = s.rootSessionId ∧ t.ownerUserId = s.ownerUserId) :
    LaneInv (w.withSessions (w.sessions ++ [t])) := by
  -- the row's root, and every row of that lane
  have hroot : ∃ r, t.rootSessionId = some r ∧ r ≠ "" ∧ (r = t.id ∨ ∃ b ∈ w.born, b.id = r) := by
    rcases hr with hr | ⟨s, hs, hr, -⟩
    · exact ⟨t.id, hr, hne, .inl rfl⟩
    · obtain ⟨b, hb, hl⟩ := h.kept s hs
      obtain ⟨r, hbr, hrne, hex⟩ := h.rooted b hb
      exact ⟨r, by rw [hr, hl.2.2, hbr], hrne, .inr hex⟩
  have hlane : ∀ b ∈ w.born, b.rootSessionId = t.rootSessionId → b.ownerUserId = t.ownerUserId := by
    intro b hb he
    rcases hr with hr | ⟨s, hs, hr, hso⟩
    · obtain ⟨r, hbr, -, b', hb', hid'⟩ := h.rooted b hb
      have : r = t.id := by simpa [hbr, hr] using he
      exact absurd (hid'.trans this) (hid b' hb')
    · obtain ⟨b', hb', hl⟩ := h.kept s hs
      rw [hso, hl.2.1]
      exact h.lane b hb b' hb' (by rw [he, hr, hl.2.2])
  rw [World.withSessions_append]
  constructor
  · intro s hs
    rcases List.mem_append.mp hs with hs | hs
    · obtain ⟨b, hb, hl⟩ := h.kept s hs
      exact ⟨b, List.mem_append_left _ hb, hl⟩
    · obtain rfl := List.mem_singleton.mp hs
      exact ⟨s, List.mem_append_right _ hs, SameLane.refl s⟩
  · intro b hb b' hb' he
    rcases List.mem_append.mp hb with h₁ | h₁ <;> rcases List.mem_append.mp hb' with h₂ | h₂
    · exact h.ids b h₁ b' h₂ he
    · exact absurd (he.trans (congrArg _ (List.mem_singleton.mp h₂))) (hid b h₁)
    · exact absurd (he.symm.trans (congrArg _ (List.mem_singleton.mp h₁))) (hid b' h₂)
    · rw [List.mem_singleton.mp h₁, List.mem_singleton.mp h₂]
  · intro b hb
    rcases List.mem_append.mp hb with hb | hb
    · obtain ⟨r, hbr, hrne, b', hb', hid'⟩ := h.rooted b hb
      exact ⟨r, hbr, hrne, b', List.mem_append_left _ hb', hid'⟩
    · obtain rfl := List.mem_singleton.mp hb
      obtain ⟨r, hbr, hrne, hex⟩ := hroot
      rcases hex with rfl | ⟨b', hb', hid'⟩
      · exact ⟨b.id, hbr, hrne, b, List.mem_append_right _ hb, rfl⟩
      · exact ⟨r, hbr, hrne, b', List.mem_append_left _ hb', hid'⟩
  · intro b hb b' hb' he
    rcases List.mem_append.mp hb with h₁ | h₁ <;> rcases List.mem_append.mp hb' with h₂ | h₂
    · exact h.lane b h₁ b' h₂ he
    · rw [List.mem_singleton.mp h₂] at he ⊢
      exact hlane b h₁ he
    · rw [List.mem_singleton.mp h₁] at he ⊢
      exact (hlane b' h₂ he.symm).symm
    · rw [List.mem_singleton.mp h₁, List.mem_singleton.mp h₂]
  · intro b hb
    rcases List.mem_append.mp hb with hb | hb
    · exact h.owned b hb
    · obtain rfl := List.mem_singleton.mp hb
      exact ho

theorem LaneInv.root_ne {w : World} (h : LaneInv w) {s : Session} (hs : s ∈ w.sessions) :
    s.rootSessionId.getD s.id ≠ "" := by
  obtain ⟨b, hb, hl⟩ := h.kept s hs
  obtain ⟨r, hr, hne, -⟩ := h.rooted b hb
  simpa [hl.2.2, hr] using hne

theorem LaneInv.root_getD {w : World} (h : LaneInv w) {s : Session} (hs : s ∈ w.sessions) :
    some (s.rootSessionId.getD s.id) = s.rootSessionId := by
  obtain ⟨b, hb, hl⟩ := h.kept s hs
  obtain ⟨r, hr, -⟩ := h.rooted b hb
  simp [hl.2.2, hr]

theorem LaneInv.owner_ne {w : World} (h : LaneInv w) {s : Session} (hs : s ∈ w.sessions) :
    s.ownerUserId ≠ some "" := by
  obtain ⟨b, hb, hl⟩ := h.kept s hs
  rw [hl.2.1]
  exact h.owned b hb

theorem LaneInv.owner_of_root {w : World} (h : LaneInv w) {s t : Session} (hs : s ∈ w.sessions)
    (ht : t ∈ w.sessions) (hr : t.rootSessionId = s.rootSessionId) : t.ownerUserId = s.ownerUserId := by
  obtain ⟨b, hb, hl⟩ := h.kept s hs
  obtain ⟨b', hb', hl'⟩ := h.kept t ht
  rw [hl.2.1, hl'.2.1]
  exact h.lane b' hb' b hb (by rw [← hl.2.2, ← hl'.2.2, hr])

theorem LaneInv.owner_of_id {w : World} (h : LaneInv w) {s t : Session} (hs : s ∈ w.sessions)
    (ht : t ∈ w.sessions) (hid : s.id = t.id) : s.ownerUserId = t.ownerUserId := by
  obtain ⟨b, hb, hl⟩ := h.kept s hs
  obtain ⟨b', hb', hl'⟩ := h.kept t ht
  have hbb : b = b' := h.ids b hb b' hb' (by rw [← hl.1, ← hl'.1, hid])
  rw [hl.2.1, hl'.2.1, hbb]

/-! ### Every step keeps the invariant -/

theorem laneInv_deliver {w w' : World} (h : LaneInv w) {d : Draw} (hd : w.redrawn d = false) {io : Io}
    {x : Delivery} {r : Except String Unit} (hr : w.deliverToAgent d io x = (w', r)) : LaneInv w' := by
  obtain ⟨db, hdb, hw⟩ := World.deliverToAgent_cases hr
  have hinv : LaneInv (w.withSessions db) := by
    rcases hdb with rfl | ⟨rfl, hf, hm⟩
    · simpa using h
    · refine h.insert (fresh_born hd hf) (generateId_ne _ _) ?_ (.inl rfl)
      -- a channel session is owned in a user-scoped mode only, by the sender it names
      intro ho
      by_cases hu : isUserScopedSessionMode x.effectiveSessionMode = true
      · have : x.userId = some "" := by simpa [Delivery.newSession, newSession, hu] using ho
        simpa [this] using hm hu
      · simp [Delivery.newSession, newSession, hu] at ho
  rcases hw with hw | ⟨s, seq, content, -, hw⟩
  · rw [hw]; exact hinv
  · rw [hw]; exact hinv.of_kept rfl fun s hs => ⟨s, hs, SameLane.refl s⟩

theorem laneInv_resolved {w : World} (h : LaneInv w) {d : Draw} (hd : w.redrawn d = false)
    {src : Session} (hsrc : src ∈ w.sessions) {target : String} {db : List Session}
    {q : Except String (Session × Bool)} (hr : Resolved d w.sessions src target db q) :
    LaneInv (w.withSessions db) := by
  rcases hr with ⟨rfl, -⟩ | ⟨t, rfl, hc, hf, -⟩
  · simpa using h
  · have hroot := h.root_getD hsrc
    have hne := h.root_ne hsrc
    rcases hc with rfl | ⟨-, rfl⟩
    · refine h.insert (fresh_born hd hf) (generateId_ne _ _) ?_ (.inr ⟨src, hsrc, ?_, ?_⟩)
      · simpa [newSession, hne] using h.owner_ne hsrc
      · simpa [newSession] using hroot
      · simp [newSession, hne]
    · exact h.insert (fresh_born hd hf) (generateId_ne _ _) (by simp [newSession]) (.inl rfl)

/-- The table a delegation leaves is the one its target was resolved in, but for a conversation
thread: a session of it is in the lane it was in. -/
theorem sameLane_of_thread {db db' : List Session} {id : String}
    (h : db' = db ∨ ∃ conv, db' = setSessionConversationThreadId db id conv) {s : Session} (hs : s ∈ db') :
    ∃ s₀ ∈ db, SameLane s s₀ := by
  rcases h with rfl | ⟨conv, rfl⟩
  · exact ⟨s, hs, SameLane.refl s⟩
  · obtain ⟨s₀, hs₀, rfl | rfl⟩ := mem_setSessionConversationThreadId hs
    · exact ⟨s, hs₀, SameLane.refl s⟩
    · exact ⟨s₀, hs₀, rfl, rfl, rfl⟩

theorem laneInv_route {w w' : World} (h : LaneInv w) {c : Central} {d : Draw} {io : Io} {mid : String}
    {msg : RoutableAgentMessage} {session : Session} {r : Except String (Session × MessageIn)}
    (hd : w.redrawn d = false) (hs : session ∈ w.sessions)
    (hr : routeAgentMessage c d io mid w msg session = (w', r)) : LaneInv w' := by
  rcases routeAgentMessage_cases (h.root_ne hs) hr with ⟨rfl, -⟩ | ⟨target, db, q, -, hq, hcase⟩
  · exact h
  · have hinv := laneInv_resolved h hd hs hq
    rcases hcase with ⟨rfl, -⟩ | ⟨t, b, seq, content, stored, -, -, hborn, -, -, hdb⟩
    · exact hinv
    · exact hinv.of_kept hborn fun s hs => sameLane_of_thread hdb hs

theorem laneInv_step (w : World) (e : RouteEvent) (w' : World) (h : LaneInv w)
    (hstep : routeStep w e = some w') : LaneInv w' := by
  cases e with
  | deliver d io x =>
    simp only [routeStep] at hstep
    split at hstep
    · cases hstep
    · rename_i hd
      obtain rfl := Option.some.inj hstep
      exact laneInv_deliver h (by simpa using hd) rfl
  | route c d io mid sid msg =>
    simp only [routeStep] at hstep
    split at hstep
    · cases hstep
    · rename_i hd
      obtain ⟨s, hs, rfl⟩ := Option.map_eq_some_iff.mp hstep
      exact laneInv_route h (by simpa using hd) (find_spec hs).1 rfl
  | updateStatus sid status =>
    obtain rfl := Option.some.inj hstep
    refine h.of_kept rfl fun s hs => ?_
    obtain ⟨s₀, hm, rfl⟩ := List.mem_map.mp hs
    refine ⟨s₀, hm, ?_⟩
    split
    · exact ⟨rfl, rfl, rfl⟩
    · exact SameLane.refl s₀
  | deleteSession sid =>
    obtain rfl := Option.some.inj hstep
    exact h.of_kept rfl fun s hs => ⟨s, (List.mem_filter.mp hs).1, SameLane.refl s⟩

theorem laneInv_run {es : List RouteEvent} {w : World} (h : Trans.run routeStep World.empty es = some w) :
    LaneInv w :=
  Trans.run_inv laneInv_step laneInv_empty h

/-! ### Owner isolation -/

theorem LaneInv.owner_of_found {w : World} (h : LaneInv w) {src t : Session} (hsrc : src ∈ w.sessions)
    (ht : t ∈ w.sessions) {U : String} (hU : src.ownerUserId = some U) (hf : Found src t) :
    t.ownerUserId = some U ∨ t.ownerUserId = none := by
  cases hf with
  | checked hc =>
    rcases hc with hc | hc | hc
    · rw [hU] at hc; cases hc
    · exact .inr hc
    · exact .inl (hc.trans hU)
  | root hr => exact .inl ((h.owner_of_root hsrc ht (by rw [hr, h.root_getD hsrc])).trans hU)
  | ownerless ho =>
    have := h.owner_ne hsrc
    rw [hU] at this ho
    simp only [truthy_some, decide_eq_false_iff_not, not_not] at ho
    exact absurd (by rw [ho]) this

/-- **Owner isolation.** In every reachable world, whatever a container wrote
into the row, a delegation from a session owned by `U` writes to a session
owned by `U` or by no one. -/
theorem route_owner_isolated {es : List RouteEvent} {w w' : World}
    (hrun : Trans.run routeStep World.empty es = some w) (c : Central) (d : Draw) (io : Io)
    (mid : String) (msg : RoutableAgentMessage) {session t : Session} {row : MessageIn} {U : String}
    (hs : session ∈ w.sessions) (hU : session.ownerUserId = some U)
    (hr : routeAgentMessage c d io mid w msg session = (w', .ok (t, row))) :
    row.sessionId = t.id ∧ row ∈ w'.messagesIn t.id ∧ (∃ s ∈ w'.sessions, s.id = t.id) ∧
      ∀ s ∈ w'.sessions, s.id = row.sessionId → s.ownerUserId = some U ∨ s.ownerUserId = none := by
  have h := laneInv_run hrun
  rcases routeAgentMessage_cases (h.root_ne hs) hr with ⟨-, e, he⟩ | ⟨target, db, q, -, hq, hcase⟩
  · cases he
  · rcases hcase with ⟨-, e, he⟩ | ⟨t₁, b, seq, content, stored, rfl, he, hborn, hin, -, hdb⟩
    · cases he
    · simp only [Except.ok.injEq, Prod.mk.injEq] at he
      obtain ⟨rfl, rfl⟩ := he
      -- the session resolved is in the table, its owner is `U` or nobody, and its id is no other owner's
      have ht : t ∈ db ∧ (t.ownerUserId = some U ∨ t.ownerUserId = none) ∧
          ∀ s ∈ db, s.id = t.id → s.ownerUserId = t.ownerUserId := by
        rcases hq with ⟨rfl, hq⟩ | ⟨t₂, rfl, hc, hfresh, hq⟩
        · obtain ⟨hm, -, hf⟩ := hq t b rfl
          exact ⟨hm, h.owner_of_found hs hm hU hf, fun s hs' hid => h.owner_of_id hs' hm hid⟩
        · obtain rfl := hq t b rfl
          have hid : t.id = generateId d.now d.rand := by
            rcases hc with rfl | ⟨-, rfl⟩ <;> rfl
          refine ⟨by simp, ?_, fun s hs' hst => ?_⟩
          · rcases hc with rfl | ⟨-, rfl⟩
            · left
              simpa [newSession, h.root_ne hs] using hU
            · right
              simp [newSession]
          · rcases List.mem_append.mp hs' with hs' | hs'
            · exact absurd (hst.trans hid) (hfresh s hs')
            · rw [List.mem_singleton.mp hs']
      have htab : ∃ s ∈ w'.sessions, s.id = t.id := by
        rcases hdb with hdb | ⟨conv, hdb⟩
        · exact ⟨t, hdb ▸ ht.1, rfl⟩
        · rw [hdb]
          exact ⟨_, List.mem_map.mpr ⟨t, ht.1, rfl⟩, by simp⟩
      refine ⟨rfl, ?_, htab, fun s hm hid => ?_⟩
      · simp [World.messagesIn, hin, NewMessage.row]
      · obtain ⟨s₀, hm₀, hl⟩ := sameLane_of_thread hdb hm
        rw [hl.2.1, ht.2.2 s₀ hm₀ (hl.1.symm.trans hid)]
        exact ht.2.1

/-- No attachment is moved or copied. -/
def Io.idle : Io := ⟨fun _ => .ok [], .ok, .ok ()⟩

def sampleDraw (n : ℕ) : Draw := ⟨n, "aaaaaa", "bbbbbb", n, true⟩

/-- A direct message of `feishu:ou_u` to a front desk that keeps a session per user. -/
def sampleDelivery : Delivery :=
  { agentGroupId := "ag-front", messagingGroupId := "mg-1", threadId := none
    effectiveSessionMode := .perUser, userId := some "feishu:ou_u", messageId := "om_1:ag-front"
    kind := .chat, platformId := some "feishu:p2p:ou_u", channelType := some "feishu"
    replyThreadId := none, content := some (.obj [("senderId", .str "ou_u"), ("text", .str "hi")])
    wake := true, gate := .pass, auditDenial := .ok (), afterWrite := .ok () }

/-- A front desk, and a worker that keeps a session per root conversation. -/
def sampleCentral : Central :=
  { agentGroups := [⟨"ag-front", none, .ok none⟩, ⟨"ag-work", none, .ok (some .rootSession)⟩]
    destinations := [⟨"ag-front", .agent, "ag-work"⟩], maxSpawnDepthEnv := none }

/-- A delegation to the worker that claims to act for somebody else. -/
def sampleMessage : RoutableAgentMessage :=
  ⟨"out-1", some "ag-work", some (.obj [("text", .str "do it")]), none, some "feishu:ou_v"⟩

theorem route_owner_isolated_sample :
    ∃ w w' t row, Trans.run routeStep World.empty [.deliver (sampleDraw 1) Io.idle sampleDelivery] = some w ∧
      (∃ s ∈ w.sessions, s.ownerUserId = some "feishu:ou_u" ∧
        routeAgentMessage sampleCentral (sampleDraw 2) Io.idle "a2a-2" w sampleMessage s =
          (w', .ok (t, row))) ∧
      ∀ s ∈ w'.sessions, s.id = row.sessionId →
        s.ownerUserId = some "feishu:ou_u" ∨ s.ownerUserId = none := by
  have hrun : Trans.run routeStep World.empty [.deliver (sampleDraw 1) Io.idle sampleDelivery] =
    some _ := rfl
  refine ⟨_, _, _, _, hrun, ⟨_, .head _, rfl, rfl⟩, ?_⟩
  exact (route_owner_isolated hrun sampleCentral (sampleDraw 2) Io.idle "a2a-2" sampleMessage
    (.head _) rfl rfl).2.2.2

end AgentDesk
