/-
# A channel event into one agent's session

`deliverToAgent` (`src/router.ts`) is how a chat message enters the system: it
finds or creates the session of the agent for this chat and user, lets the
command gate look at it, and writes the row. The row's identity is in its
content; the origin column is null.

What it is called with, what `gateCommand` says, whether the audit of a denial
throws and whether the steps after the write (progress status, typing, the
wake) throw is its `Delivery`.

* `World.deliverToAgent_cases`: everything a call can do to the world.
* `World.deliverToAgent_added`, `World.deliverToAgent_lands`: the row it writes,
  and when the event's row is in its session after the call.
-/
import AgentDesk.Inbound

namespace AgentDesk

open Js

/-- What `gateCommand` says about the content. -/
inductive GateResult where
  | pass | filter
  | deny (command : String)
  deriving DecidableEq, Repr

/-- One call of `deliverToAgent`: the wiring and sender it is called with, the
message, and what the code around the write does. -/
structure Delivery where
  agentGroupId : String
  messagingGroupId : String
  threadId : Option String
  effectiveSessionMode : SessionMode
  userId : Option String
  messageId : String
  kind : MessageKind
  platformId : Option String
  channelType : Option String
  replyThreadId : Option String
  content : Content
  wake : Bool
  gate : GateResult
  auditDenial : Except String Unit
  afterWrite : Except String Unit

/-- The row's contents. -/
def Delivery.message (x : Delivery) (session : Session) : NewMessage :=
  { id := x.messageId, kind := x.kind, platformId := x.platformId, channelType := x.channelType
    threadId := x.replyThreadId, content := x.content, trigger := x.wake, sourceSessionId := none
    originUserId := none, conversationThreadId := session.conversationThreadId }

/-- Is the message one the command gate looks at and does not let through? -/
def Delivery.gated (x : Delivery) : Bool := x.kind.isChat && x.gate ≠ .pass

def World.deliverToAgent (w : World) (d : Draw) (io : Io) (x : Delivery) : World × Except String Unit :=
  if isUserScopedSessionMode x.effectiveSessionMode && !truthy x.userId then
    (w, .error s!"userId is required for session_mode={x.effectiveSessionMode.text}")
  else
    match resolveSession w.sessions d x.agentGroupId (some x.messagingGroupId) x.threadId
        x.effectiveSessionMode x.userId none none with
    | (db, .error e) => (w.withSessions db, .error e)
    | (db, .ok (session, _)) =>
      if x.gated then (w.withSessions db, if x.gate = .filter then .ok () else x.auditDenial)
      else match (w.withSessions db).writeSessionMessage io session.id (x.message session) with
        | (w', .error e) => (w', .error e)
        | (w', .ok _) => (w', if x.wake then x.afterWrite else .ok ())

/-- The row a delivery creates when no session of its scope exists. -/
def Delivery.newSession (x : Delivery) (d : Draw) : Session :=
  AgentDesk.newSession d x.agentGroupId (some x.messagingGroupId) x.threadId x.effectiveSessionMode
    x.userId none none

/-- **Everything `deliverToAgent` can do.** The table is left alone or gets one
new row, a root of its own, owned by the sender in a user-scoped mode and by no
one otherwise; and then at most one row is written, with no source session and
no origin. -/
theorem World.deliverToAgent_cases {w w' : World} {d : Draw} {io : Io} {x : Delivery}
    {r : Except String Unit} (h : w.deliverToAgent d io x = (w', r)) :
    ∃ db, (db = w.sessions ∨ (db = w.sessions ++ [x.newSession d] ∧
        (∀ s ∈ w.sessions, s.id ≠ generateId d.now d.rand) ∧
        (isUserScopedSessionMode x.effectiveSessionMode = true → truthy x.userId = true))) ∧
      (w' = w.withSessions db ∨ ∃ (s : Session) (seq : ℕ) (content : Content), s ∈ db ∧
        w' = { w.withSessions db with
          inbound := w.inbound ++ [(x.message s).row s.id seq content]
          log := w.log ++ [(x.message s).row s.id seq content] }) := by
  unfold World.deliverToAgent at h
  split at h
  · obtain ⟨rfl, rfl⟩ := Prod.mk.inj h
    exact ⟨w.sessions, .inl rfl, .inl (by simp)⟩
  · split at h
    · rename_i db e hq
      obtain ⟨rfl, rfl⟩ := Prod.mk.inj h
      rcases resolveSession_cases hq with ⟨rfl, -⟩ | ⟨rfl, -⟩ | ⟨rfl, hf, ho, -⟩
      · exact ⟨_, .inl rfl, .inl rfl⟩
      · exact ⟨_, .inl rfl, .inl rfl⟩
      · exact ⟨_, .inr ⟨rfl, hf, ho⟩, .inl rfl⟩
    · rename_i db session created hq
      have hdb : (db = w.sessions ∨ (db = w.sessions ++ [x.newSession d] ∧
          (∀ s ∈ w.sessions, s.id ≠ generateId d.now d.rand) ∧
          (isUserScopedSessionMode x.effectiveSessionMode = true → truthy x.userId = true))) ∧
          session ∈ db := by
        rcases resolveSession_cases hq with ⟨-, e, he⟩ | ⟨rfl, s, he, hm, -⟩ | ⟨rfl, hf, ho, hr⟩
        · cases he
        · simp only [Except.ok.injEq, Prod.mk.injEq] at he
          exact ⟨.inl rfl, he.1 ▸ hm⟩
        · exact ⟨.inr ⟨rfl, hf, ho⟩, by rw [hr _ _ rfl]; simp⟩
      refine ⟨db, hdb.1, ?_⟩
      split at h
      · obtain ⟨rfl, rfl⟩ := Prod.mk.inj h
        exact .inl rfl
      · split at h
        · rename_i w₁ e hw
          obtain ⟨rfl, rfl⟩ := Prod.mk.inj h
          rcases World.writeSessionMessage_cases hw with ⟨rfl, -⟩ | ⟨_, _, hr, -⟩
          · exact .inl rfl
          · cases hr
        · rename_i w₁ row hw
          obtain ⟨rfl, rfl⟩ := Prod.mk.inj h
          rcases World.writeSessionMessage_cases hw with ⟨-, e, he⟩ | ⟨seq, content, -, rfl⟩
          · cases he
          · exact .inr ⟨session, seq, content, hdb.2, rfl⟩

/-! ### What a delivery leaves in the session -/

/-- The session the delivery belongs to, as the table is. -/
def Delivery.resolve (x : Delivery) (d : Draw) (db : List Session) :
    List Session × Except String (Session × Bool) :=
  resolveSession db d x.agentGroupId (some x.messagingGroupId) x.threadId x.effectiveSessionMode
    x.userId none none

/-- The attachments can be stored and the session's database opened. -/
def Delivery.Storable (x : Delivery) (io : Io) : Prop :=
  (∃ content, io.extractAttachmentFiles x.content = .ok content) ∧ io.openInboundDb = .ok ()

/-- The event's row is among a session's rows. -/
def Delivery.RowIn (x : Delivery) (rows : List MessageIn) (s : Session) : Prop :=
  ∃ m ∈ rows, m.sessionId = s.id ∧ m.id = x.messageId

theorem Delivery.resolve_mem {x : Delivery} {d : Draw} {db : List Session} {s : Session} {c : Bool}
    (h : (x.resolve d db).2 = .ok (s, c)) : s ∈ (x.resolve d db).1 ∧ s.agentGroupId = x.agentGroupId := by
  generalize hr : x.resolve d db = r at h
  obtain ⟨db', res⟩ := r
  rcases resolveSession_cases hr with ⟨rfl, e, rfl⟩ | ⟨rfl, t, rfl, hm, hg, -⟩ | ⟨rfl, -, -, hnew⟩
  · cases h
  · obtain ⟨rfl, -⟩ := Prod.mk.inj (Except.ok.inj h)
    exact ⟨hm, hg⟩
  · have hs := hnew s c h
    subst hs
    exact ⟨by simp, rfl⟩

theorem Delivery.resolve_added {x : Delivery} {d : Draw} {db : List Session} {s : Session}
    (h : s ∈ (x.resolve d db).1) : s ∈ db ∨ s.agentGroupId = x.agentGroupId := by
  generalize hr : x.resolve d db = r at h
  obtain ⟨db', res⟩ := r
  rcases resolveSession_cases hr with ⟨rfl, -⟩ | ⟨rfl, -⟩ | ⟨rfl, -⟩
  · exact .inl h
  · exact .inl h
  · rcases List.mem_append.mp h with h | h
    · exact .inl h
    · rw [List.mem_singleton.mp h]
      exact .inr rfl

theorem Delivery.subset_resolve (x : Delivery) (d : Draw) (db : List Session) :
    db ⊆ (x.resolve d db).1 := by
  generalize hr : x.resolve d db = r
  obtain ⟨db', res⟩ := r
  rcases resolveSession_cases hr with ⟨rfl, -⟩ | ⟨rfl, -⟩ | ⟨rfl, -⟩
  · exact List.Subset.refl _
  · exact List.Subset.refl _
  · exact List.subset_append_left _ _

/-- **What a delivery does, by the session it resolves.** It leaves the table `resolveSession`
leaves; a session not found, or a command the gate stops, leaves the rows alone; else the rows are
those `writeSessionMessage` leaves. -/
theorem World.deliverToAgent_eq (w : World) (d : Draw) (io : Io) (x : Delivery) :
    (w.deliverToAgent d io x).1 = match x.resolve d w.sessions with
      | (db, .ok (s, _)) => if x.gated then w.withSessions db
          else ((w.withSessions db).writeSessionMessage io s.id (x.message s)).1
      | (db, .error _) => w.withSessions db := by
  unfold World.deliverToAgent
  by_cases hid : (isUserScopedSessionMode x.effectiveSessionMode && !truthy x.userId) = true
  · have hres : ∃ e, x.resolve d w.sessions = (w.sessions, .error e) := by
      simp [Delivery.resolve, resolveSession, hid]
    obtain ⟨e, he⟩ := hres
    simp [hid, he]
  · rw [if_neg hid]
    change (match x.resolve d w.sessions with
      | (db, .error e) => (w.withSessions db, .error e)
      | (db, .ok (session, _)) => _ : World × Except String Unit).1 = _
    rcases x.resolve d w.sessions with ⟨db, e | ⟨s, c⟩⟩
    · rfl
    · by_cases hg : x.gated = true
      · simp [hg]
      · simp only [hg]
        rcases (w.withSessions db).writeSessionMessage io s.id (x.message s) with ⟨w', e | row⟩ <;> rfl

theorem World.deliverToAgent_sessions (w : World) (d : Draw) (io : Io) (x : Delivery) :
    (w.deliverToAgent d io x).1.sessions = (x.resolve d w.sessions).1 := by
  rw [World.deliverToAgent_eq]
  rcases x.resolve d w.sessions with ⟨db, e | ⟨s, c⟩⟩
  · rfl
  · simp only
    split
    · rfl
    · generalize hr : (w.withSessions db).writeSessionMessage io s.id (x.message s) = r
      obtain ⟨w', res⟩ := r
      rcases World.writeSessionMessage_cases hr with ⟨rfl, -⟩ | ⟨_, _, -, rfl⟩ <;> rfl

/-- A row a delivery adds is the event's, in the session it resolves; it passed the command gate,
and its attachments were stored. -/
theorem World.deliverToAgent_added {w : World} {d : Draw} {io : Io} {x : Delivery} {m : MessageIn}
    (h : m ∈ (w.deliverToAgent d io x).1.inbound) :
    m ∈ w.inbound ∨ ∃ s c, (x.resolve d w.sessions).2 = .ok (s, c) ∧ m.sessionId = s.id ∧
      x.Storable io := by
  rw [World.deliverToAgent_eq] at h
  rcases hres : x.resolve d w.sessions with ⟨db, e | ⟨s, c⟩⟩
  · rw [hres] at h
    exact .inl h
  · rw [hres] at h
    simp only at h
    split at h
    · exact .inl h
    · simp only [World.writeSessionMessage] at h
      split at h
      · exact .inl h
      · exact .inl h
      · rename_i content _ hc ho
        split at h
        · exact .inl h
        · simp only [World.withSessions_inbound, List.mem_append, List.mem_singleton] at h
          rcases h with h | rfl
          · exact .inl h
          · exact .inr ⟨s, c, rfl, rfl, ⟨content, hc⟩, ho⟩

theorem World.subset_deliverToAgent (w : World) (d : Draw) (io : Io) (x : Delivery) :
    w.inbound ⊆ (w.deliverToAgent d io x).1.inbound := by
  generalize hr : w.deliverToAgent d io x = r
  obtain ⟨w', e⟩ := r
  obtain ⟨db, -, rfl | ⟨_, _, _, -, rfl⟩⟩ := World.deliverToAgent_cases hr
  · exact List.Subset.refl _
  · exact List.subset_append_left _ _

/-- A delivery that resolves its session, passes the command gate and can be stored leaves its row
there: its own, or one of the same id that is there already. -/
theorem World.deliverToAgent_lands {w : World} {d : Draw} {io : Io} {x : Delivery} {s : Session} {c : Bool}
    (hs : (x.resolve d w.sessions).2 = .ok (s, c)) (hg : x.gated = false) (hio : x.Storable io) :
    x.RowIn (w.deliverToAgent d io x).1.inbound s := by
  rw [World.deliverToAgent_eq]
  rcases hres : x.resolve d w.sessions with ⟨db, e | ⟨s', c'⟩⟩
  · rw [hres] at hs
    cases hs
  · rw [hres] at hs
    obtain ⟨rfl, -⟩ := Prod.mk.inj (Except.ok.inj hs)
    obtain ⟨⟨content, hextract⟩, hopen⟩ := hio
    have hextract' : io.extractAttachmentFiles (x.message s').content = .ok content := hextract
    simp only [hg, Bool.false_eq_true, if_false, World.writeSessionMessage, hextract', hopen]
    split
    · rename_i hdup
      obtain ⟨m, hm, hid⟩ := List.any_eq_true.mp hdup
      obtain ⟨hm, hsid⟩ := List.mem_filter.mp hm
      exact ⟨m, hm, by simpa using hsid, of_decide_eq_true hid⟩
    · exact ⟨_, List.mem_append_right _ (List.mem_singleton_self _), rfl, rfl⟩

end AgentDesk
