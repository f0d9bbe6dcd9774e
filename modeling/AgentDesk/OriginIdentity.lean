/-
# A container cannot introduce an identity

Every delegated row carries the user the whole chain acts for. The container
claims one; the host accepts a claim only if it is one of the identities of the
source session's own inbound rows, which earlier hops wrote, and falls back to
the latest sender and the owner. So by induction along the chain of hops that
carry a user id, that id was first recorded by the host itself: as the sender
of a channel row, or as the owner of a session (`origin_recorded`).

Key theorems: `originInv_run`, `origin_recorded`.
-/
import Mathlib.Logic.Relation
import AgentDesk.OwnerIsolation

namespace AgentDesk

open Js Relation

/-- Session `s` delegated to session `s'` with origin `u`: a row of `s'` says so. -/
def Hop (w : World) (u s s' : String) : Prop :=
  ∃ r ∈ w.log, r.sessionId = s' ∧ r.sourceSessionId = some s ∧ r.originUserId = some u

/-- The host itself recorded `u` at session `x`: as the sender of a chat row
that channel ingress wrote there, or as the session's owner. -/
def Recorded (w : World) (u x : String) : Prop :=
  (∃ r ∈ w.log, r.sessionId = x ∧ r.sourceSessionId = none ∧ r.kind.isChat = true ∧
    namespacedOriginOf r = some u) ∨
  ∃ b ∈ w.born, b.id = x ∧ b.ownerUserId = some u

/-- A chain of delegations with origin `u` leads to `s` from a session where the
host recorded `u`. -/
def Traced (w : World) (u s : String) : Prop := ∃ x, ReflTransGen (Hop w u) x s ∧ Recorded w u x

theorem Traced.mono {w w' : World} {u s : String} (hlog : ∀ r ∈ w.log, r ∈ w'.log)
    (hborn : ∀ b ∈ w.born, b ∈ w'.born) (h : Traced w u s) : Traced w' u s := by
  obtain ⟨x, hchain, hrec⟩ := h
  refine ⟨x, ReflTransGen.mono (fun a b hab => ?_) _ _ hchain, ?_⟩
  · obtain ⟨r, hr, h1⟩ := hab
    exact ⟨r, hlog r hr, h1⟩
  · rcases hrec with ⟨r, hr, h1⟩ | ⟨b, hb, h1⟩
    · exact .inl ⟨r, hlog r hr, h1⟩
    · exact .inr ⟨b, hborn b hb, h1⟩

theorem Traced.hop {w : World} {u s s' : String} (h : Traced w u s) (hop : Hop w u s s') : Traced w u s' := by
  obtain ⟨x, hchain, hrec⟩ := h
  exact ⟨x, hchain.tail hop, hrec⟩

/-- Every origin in the history is traced from its row's source; a delegated row
is an agent row. -/
structure OriginInv (w : World) : Prop where
  lanes : LaneInv w
  logged : ∀ r ∈ w.inbound, r ∈ w.log
  agent : ∀ r ∈ w.log, ∀ s, r.sourceSessionId = some s → r.channelType = some "agent"
  traced : ∀ r ∈ w.log, ∀ u, r.originUserId = some u → ∃ s, r.sourceSessionId = some s ∧ Traced w u s

theorem originInv_empty : OriginInv World.empty := by
  refine ⟨laneInv_empty, ?_, ?_, ?_⟩ <;> simp [World.empty]

theorem OriginInv.of_same_log {w w' : World} (h : OriginInv w) (hl : LaneInv w')
    (hin : ∀ r ∈ w'.inbound, r ∈ w.inbound) (hlog : w'.log = w.log)
    (hborn : ∀ b ∈ w.born, b ∈ w'.born) : OriginInv w' := by
  refine ⟨hl, fun r hr => hlog ▸ h.logged r (hin r hr), hlog ▸ h.agent, fun r hr u hu => ?_⟩
  rw [hlog] at hr
  obtain ⟨s, hs, ht⟩ := h.traced r hr u hu
  exact ⟨s, hs, ht.mono (fun r hr => hlog ▸ hr) hborn⟩

theorem OriginInv.insert {w w' : World} (h : OriginInv w) (hl : LaneInv w') {row : MessageIn}
    (hin : w'.inbound = w.inbound ++ [row]) (hlog : w'.log = w.log ++ [row])
    (hborn : ∀ b ∈ w.born, b ∈ w'.born)
    (hagent : ∀ s, row.sourceSessionId = some s → row.channelType = some "agent")
    (ht : ∀ u, row.originUserId = some u → ∃ s, row.sourceSessionId = some s ∧ Traced w u s) :
    OriginInv w' := by
  have hsub : ∀ r ∈ w.log, r ∈ w'.log := fun r hr => hlog ▸ List.mem_append_left _ hr
  refine ⟨hl, fun r hr => ?_, fun r hr => ?_, fun r hr u hu => ?_⟩
  · rw [hin] at hr
    rw [hlog]
    rcases List.mem_append.mp hr with hr | hr
    · exact List.mem_append_left _ (h.logged r hr)
    · exact List.mem_append_right _ hr
  · rw [hlog] at hr
    rcases List.mem_append.mp hr with hr | hr
    · exact h.agent r hr
    · rw [List.mem_singleton.mp hr]
      exact hagent
  · rw [hlog] at hr
    rcases List.mem_append.mp hr with hr | hr
    · obtain ⟨s, hs, htr⟩ := h.traced r hr u hu
      exact ⟨s, hs, htr.mono hsub hborn⟩
    · rw [List.mem_singleton.mp hr] at hu ⊢
      obtain ⟨s, hs, htr⟩ := ht u hu
      exact ⟨s, hs, htr.mono hsub hborn⟩

/-- An identity read off a chat row of a session is traced to that session: the
row's own column by the hop that wrote it, a sender by ingress. -/
theorem OriginInv.traced_of_row {w : World} (h : OriginInv w) {sid u : String} {r : MessageIn}
    (hr : r ∈ w.messagesIn sid) (hk : r.kind.isChat = true) (hu : namespacedOriginOf r = some u) :
    Traced w u sid := by
  obtain ⟨hin, hsid⟩ := List.mem_filter.mp hr
  simp only [decide_eq_true_eq] at hsid
  have hlog := h.logged r hin
  rcases namespacedOriginOf_cases hu with ho | ho
  · obtain ⟨s, hs, ht⟩ := h.traced r hlog u ho
    exact ht.hop ⟨r, hlog, hsid, hs, ho⟩
  · refine ⟨sid, .refl, .inl ⟨r, hlog, hsid, ?_, hk, hu⟩⟩
    cases hsrc : r.sourceSessionId with
    | none => rfl
    | some s =>
      -- an agent row without an origin column has no identity at all
      have hch := h.agent r hlog s hsrc
      simp [namespacedOriginOf, ho, hch] at hu

theorem originUserId_cases {rows : List MessageIn} {msg : RoutableAgentMessage} {src : Session} {u : String}
    (h : originUserId rows msg src = some u) :
    u ∈ collectLegitimateOrigins rows ∨ resolveOriginUserId rows = some u ∨ src.ownerUserId = some u := by
  have fallback : ∀ v v' : Option String,
      (if truthy v then v else v') = some u → v = some u ∨ v' = some u := by
    intro v v' hv
    split at hv
    · exact .inl hv
    · exact .inr hv
  unfold originUserId at h
  rcases fallback _ _ h with h | h
  · rcases fallback _ _ h with h | h
    · split at h
      · split at h
        · rename_i hmem
          obtain rfl := Option.some.inj h
          exact .inl hmem.2
        · cases h
      · cases h
    · exact .inr (.inl h)
  · exact .inr (.inr h)

theorem OriginInv.traced_originUserId {w : World} (h : OriginInv w) {session : Session}
    (hs : session ∈ w.sessions) {msg : RoutableAgentMessage} {u : String}
    (hu : originUserId (w.messagesIn session.id) msg session = some u) : Traced w u session.id := by
  rcases originUserId_cases hu with hmem | hlast | hown
  · -- the container's claim, which is one of the session's identities
    obtain ⟨r, hr, hk, hid⟩ := mem_collectLegitimateOrigins hmem
    exact h.traced_of_row hr hk hid
  · obtain ⟨r, hr, hk, hid⟩ := resolveOriginUserId_spec hlast
    exact h.traced_of_row hr hk hid
  · obtain ⟨b, hb, hl⟩ := h.lanes.kept session hs
    exact ⟨session.id, .refl, .inr ⟨b, hb, hl.1.symm, hl.2.1 ▸ hown⟩⟩

/-! ### Every step keeps the invariant -/

theorem withSessions_born_sub (w : World) (db : List Session) : ∀ b ∈ w.born, b ∈ (w.withSessions db).born :=
  fun _ hb => List.mem_append_left _ hb

theorem originInv_deliver {w w' : World} (h : OriginInv w) {d : Draw} (hd : w.redrawn d = false) {io : Io}
    {x : Delivery} {r : Except String Unit} (hr : w.deliverToAgent d io x = (w', r)) : OriginInv w' := by
  have hl := laneInv_deliver h.lanes hd hr
  obtain ⟨db, -, rfl | ⟨s, seq, content, -, rfl⟩⟩ := World.deliverToAgent_cases hr
  · exact h.of_same_log hl (fun r hr => hr) rfl (withSessions_born_sub w db)
  · exact h.insert hl rfl rfl (withSessions_born_sub w db)
      (fun s hs => by simp [NewMessage.row, Delivery.message] at hs)
      (fun u hu => by simp [NewMessage.row, Delivery.message] at hu)

theorem originInv_route {w w' : World} (h : OriginInv w) {c : Central} {d : Draw} {io : Io} {mid : String}
    {msg : RoutableAgentMessage} {session : Session} {r : Except String (Session × MessageIn)}
    (hd : w.redrawn d = false) (hs : session ∈ w.sessions)
    (hr : routeAgentMessage c d io mid w msg session = (w', r)) : OriginInv w' := by
  have hl := laneInv_route h.lanes hd hs hr
  rcases routeAgentMessage_cases (h.lanes.root_ne hs) hr with ⟨rfl, -⟩ | ⟨target, db, q, -, -, hcase⟩
  · exact h
  · rcases hcase with ⟨rfl, -⟩ | ⟨t, b, seq, content, stored, -, -, hborn, hin, hlog, -⟩
    · exact h.of_same_log hl (fun r hr => hr) rfl (withSessions_born_sub w db)
    · refine h.insert hl hin hlog (fun b hb => hborn ▸ withSessions_born_sub w db b hb)
        (fun s _ => rfl) fun u hu => ⟨session.id, rfl, ?_⟩
      exact h.traced_originUserId hs hu

theorem originInv_step (w : World) (e : RouteEvent) (w' : World) (h : OriginInv w)
    (hstep : routeStep w e = some w') : OriginInv w' := by
  have hl := laneInv_step w e w' h.lanes hstep
  cases e with
  | deliver d io x =>
    simp only [routeStep] at hstep
    split at hstep
    · cases hstep
    · rename_i hd
      obtain rfl := Option.some.inj hstep
      exact originInv_deliver h (by simpa using hd) rfl
  | route c d io mid sid msg =>
    simp only [routeStep] at hstep
    split at hstep
    · cases hstep
    · rename_i hd
      obtain ⟨s, hs, rfl⟩ := Option.map_eq_some_iff.mp hstep
      exact originInv_route h (by simpa using hd) (find_spec hs).1 rfl
  | updateStatus sid status =>
    obtain rfl := Option.some.inj hstep
    exact h.of_same_log hl (fun r hr => hr) rfl (fun b hb => hb)
  | deleteSession sid =>
    obtain rfl := Option.some.inj hstep
    exact h.of_same_log hl (fun r hr => (List.mem_filter.mp hr).1) rfl (fun b hb => hb)

theorem originInv_run {es : List RouteEvent} {w : World}
    (h : Trans.run routeStep World.empty es = some w) : OriginInv w :=
  Trans.run_inv originInv_step originInv_empty h

/-- **Identity integrity.** Over every run, whatever the containers wrote, every
origin user on an inbound row came along a chain of delegations that all carry
it, from a session where the host recorded it: the sender of a chat row that
channel ingress wrote there, or the session's owner. -/
theorem origin_recorded {es : List RouteEvent} {w : World}
    (hrun : Trans.run routeStep World.empty es = some w) {r : MessageIn} (hr : r ∈ w.log) {u : String}
    (hu : r.originUserId = some u) :
    ∃ s, r.sourceSessionId = some s ∧ ∃ x, ReflTransGen (Hop w u) x s ∧ Recorded w u x :=
  (originInv_run hrun).traced r hr u hu

/-- The delegation of `sampleMessage` claims `feishu:ou_v`; its row carries `feishu:ou_u`,
who wrote to the front desk. -/
theorem origin_recorded_sample :
    ∃ w, Trans.run routeStep World.empty
        [.deliver (sampleDraw 1) Io.idle sampleDelivery,
         .route sampleCentral (sampleDraw 2) Io.idle "a2a-2" "sess-1-aaaaaa" sampleMessage] = some w ∧
      ∃ r ∈ w.log, r.originUserId = some "feishu:ou_u" ∧
        ∃ s, r.sourceSessionId = some s ∧
          ∃ x, ReflTransGen (Hop w "feishu:ou_u") x s ∧ Recorded w "feishu:ou_u" x := by
  have hrun : Trans.run routeStep World.empty
      [.deliver (sampleDraw 1) Io.idle sampleDelivery,
       .route sampleCentral (sampleDraw 2) Io.idle "a2a-2" "sess-1-aaaaaa" sampleMessage] = some _ := rfl
  exact ⟨_, hrun, _, .tail _ (.head _), rfl, origin_recorded hrun (.tail _ (.head _)) rfl⟩

end AgentDesk
