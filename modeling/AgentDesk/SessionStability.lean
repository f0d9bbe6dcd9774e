/-
# One conversation, one session

`resolveSession` looks a session up by the columns that its creation writes, and the two are computed
apart: the lookup takes a thread id for none when it is falsy, the creation when it is `null`. With
the empty string for a thread, a session of a mode per thread is created that no lookup finds, and
each message of that conversation opens another.

The table is changed by `resolveSession`, by the sweep that archives and deletes, and by the stamp of
a conversation's thread id. No id is drawn twice, nor after it was named as a root.

* `KeptFirst.step`: a session that a lookup finds first stays the first while it is active.
* `oneLane_step`: a root has one active session in a group.
* `session_stable_iff`: **every later call returns the session, exactly when the call did not
  create one for an empty thread id**.
-/
import AgentDesk.Sessions
import AgentDesk.Trans

namespace AgentDesk

open Js

/-- The arguments of `resolveSession`, without the depth of a new session. -/
structure SessionArgs where
  agentGroupId : String
  messagingGroupId : Option String
  threadId : Option String
  sessionMode : SessionMode
  ownerUserId : Option String
  rootSessionId : Option String

def SessionArgs.resolve (x : SessionArgs) (db : List Session) (d : Draw) (sourceDepth : Option ℕ) :
    List Session × Except String (Session × Bool) :=
  resolveSession db d x.agentGroupId x.messagingGroupId x.threadId x.sessionMode x.ownerUserId x.rootSessionId
    sourceDepth

/-! ### The table over time -/

/-- The table, and the ids that were drawn or named as roots. -/
structure SessionDesk where
  rows : List Session
  spent : List String

def SessionDesk.empty : SessionDesk := ⟨[], []⟩

inductive SessionEvent where
  | resolve (x : SessionArgs) (d : Draw) (sourceDepth : Option ℕ)
  /-- `updateSession(id, { status: 'archived' })`. -/
  | archive (id : String)
  | delete (id : String)
  | setConversationThreadId (id conversationThreadId : String)

def archiveRow (id : String) (s : Session) : Session := if s.id = id then { s with status := .archived } else s

def stampRow (id conversationThreadId : String) (s : Session) : Session :=
  if s.id = id then { s with conversationThreadId := some conversationThreadId } else s

/-- A draw that was spent cannot happen. -/
def sessionStep (st : SessionDesk) : SessionEvent → Option SessionDesk
  | .resolve x d sourceDepth =>
    if generateId d.now d.rand ∈ st.spent then none
    else some ⟨(x.resolve st.rows d sourceDepth).1, generateId d.now d.rand :: (x.rootSessionId.toList ++ st.spent)⟩
  | .archive id => some { st with rows := st.rows.map (archiveRow id) }
  | .delete id => some { st with rows := st.rows.filter fun s => s.id ≠ id }
  | .setConversationThreadId id conversationThreadId =>
    some { st with rows := st.rows.map (stampRow id conversationThreadId) }

/-- What a change to a row leaves alone. -/
structure KeepsLane (f : Session → Session) : Prop where
  id : ∀ s, (f s).id = s.id
  agentGroupId : ∀ s, (f s).agentGroupId = s.agentGroupId
  messagingGroupId : ∀ s, (f s).messagingGroupId = s.messagingGroupId
  threadId : ∀ s, (f s).threadId = s.threadId
  ownerUserId : ∀ s, (f s).ownerUserId = s.ownerUserId
  rootSessionId : ∀ s, (f s).rootSessionId = s.rootSessionId
  /-- No session comes back. -/
  status : ∀ s, (f s).status = .active → s.status = .active

theorem keepsLane_archiveRow (id : String) : KeepsLane (archiveRow id) := by
  constructor <;> intro s <;> unfold archiveRow <;> split <;> simp

theorem keepsLane_stampRow (id conversationThreadId : String) : KeepsLane (stampRow id conversationThreadId) := by
  constructor <;> intro s <;> unfold stampRow <;> split <;> simp

/-- The lookups of a call. -/
def SessionArgs.existing (x : SessionArgs) (db : List Session) : Option Session :=
  resolveExisting db x.agentGroupId x.messagingGroupId x.threadId x.sessionMode x.ownerUserId x.rootSessionId

/-- The session that a call creates. -/
def SessionArgs.new (x : SessionArgs) (d : Draw) (sourceDepth : Option ℕ) : Session :=
  newSession d x.agentGroupId x.messagingGroupId x.threadId x.sessionMode x.ownerUserId x.rootSessionId sourceDepth

theorem sessionStep_cases {st st' : SessionDesk} {e : SessionEvent} (h : sessionStep st e = some st') :
    (∃ spent, st.spent ⊆ spent ∧ st' = { st with spent := spent }) ∨
    (∃ (x : SessionArgs) (d : Draw) (sourceDepth : Option ℕ), generateId d.now d.rand ∉ st.spent ∧
      x.existing st.rows = none ∧
      st' = ⟨st.rows ++ [x.new d sourceDepth], generateId d.now d.rand :: (x.rootSessionId.toList ++ st.spent)⟩) ∨
    (∃ f, KeepsLane f ∧ st' = { st with rows := st.rows.map f }) ∨
    ∃ id, st' = { st with rows := st.rows.filter fun s => s.id ≠ id } := by
  cases e with
  | resolve x d sourceDepth =>
    simp only [sessionStep] at h
    split at h
    · cases h
    · rename_i hfresh
      obtain rfl := Option.some.inj h
      have hsub : st.spent ⊆ generateId d.now d.rand :: (x.rootSessionId.toList ++ st.spent) := fun i hi =>
        List.mem_cons_of_mem _ (List.mem_append_right _ hi)
      unfold SessionArgs.resolve resolveSession
      split
      · exact .inl ⟨_, hsub, rfl⟩
      · cases hexisting : resolveExisting st.rows x.agentGroupId x.messagingGroupId x.threadId x.sessionMode
            x.ownerUserId x.rootSessionId with
        | some s => exact .inl ⟨_, hsub, rfl⟩
        | none =>
          dsimp only
          split
          · exact .inl ⟨_, hsub, rfl⟩
          · refine .inr (.inl ⟨x, d, sourceDepth, hfresh, hexisting, ?_⟩)
            split <;> rfl
  | archive id =>
    obtain rfl := Option.some.inj h
    exact .inr (.inr (.inl ⟨_, keepsLane_archiveRow id, rfl⟩))
  | delete id =>
    obtain rfl := Option.some.inj h
    exact .inr (.inr (.inr ⟨id, rfl⟩))
  | setConversationThreadId id conversationThreadId =>
    obtain rfl := Option.some.inj h
    exact .inr (.inr (.inl ⟨_, keepsLane_stampRow id conversationThreadId, rfl⟩))

/-! ### Ids and roots -/

/-- Ids are distinct, every id and every root of the table is spent, and a root has one active session in a group. -/
structure SessionInv (st : SessionDesk) : Prop where
  distinct : ∀ s ∈ st.rows, ∀ t ∈ st.rows, s.id = t.id → s = t
  id : ∀ s ∈ st.rows, s.id ∈ st.spent
  root : ∀ s ∈ st.rows, ∀ r, s.rootSessionId = some r → truthy (some r) = true → r ∈ st.spent
  lane : ∀ s ∈ st.rows, ∀ t ∈ st.rows, s.status = .active → t.status = .active →
    s.agentGroupId = t.agentGroupId → s.rootSessionId = t.rootSessionId → truthy s.rootSessionId = true → s = t

theorem sessionInv_empty : SessionInv .empty where
  distinct _ h := (nomatch h)
  id _ h := (nomatch h)
  root _ h := (nomatch h)
  lane _ h := (nomatch h)

theorem newestActive_none {db : List Session} {p : Session → Bool} (h : newestActive db p = none) {s : Session}
    (hs : s ∈ db) (hp : p s = true) : s.status ≠ .active := by
  intro hactive
  have hempty := List.argmax_eq_none.mp h
  have hmem : s ∈ db.filter fun s => p s && s.status = .active := by simp [List.mem_filter, hs, hp, hactive]
  rw [hempty] at hmem
  cases hmem

theorem resolveExisting_root {db : List Session} {g r : String} {mg th : Option String} {mode : SessionMode}
    {owner : Option String} (hr : truthy (some r) = true) :
    resolveExisting db g mg th mode owner (some r) = findSessionForAgentRoot db g r := by
  have hne : r ≠ "" := by simpa [truthy] using hr
  simp [resolveExisting, hne]

section

variable {st st' : SessionDesk} {x : SessionArgs} {d : Draw} {sourceDepth : Option ℕ}

theorem SessionInv.new_root (h : SessionInv st) (hfresh : generateId d.now d.rand ∉ st.spent)
    (hnone : x.existing st.rows = none) {s : Session} (hs : s ∈ st.rows) (hactive : s.status = .active)
    (hgroup : s.agentGroupId = x.agentGroupId) (hroot : truthy s.rootSessionId = true) :
    s.rootSessionId ≠ (x.new d sourceDepth).rootSessionId := by
  intro heq
  unfold SessionArgs.existing at hnone
  unfold SessionArgs.new at heq
  cases hx : x.rootSessionId with
  | none =>
    -- its own id, which was not spent
    rw [hx] at heq
    rw [heq] at hroot
    exact hfresh (h.root s hs _ heq hroot)
  | some r =>
    rw [hx] at heq
    change s.rootSessionId = some r at heq
    rw [heq] at hroot
    rw [hx, resolveExisting_root hroot] at hnone
    exact newestActive_none hnone hs (by simp [hgroup, heq]) hactive

theorem SessionInv.append (h : SessionInv st) (hfresh : generateId d.now d.rand ∉ st.spent)
    (hnone : x.existing st.rows = none) :
    SessionInv ⟨st.rows ++ [x.new d sourceDepth], generateId d.now d.rand :: (x.rootSessionId.toList ++ st.spent)⟩ := by
  have hold : ∀ i ∈ st.spent, i ∈ generateId d.now d.rand :: (x.rootSessionId.toList ++ st.spent) := fun i hi =>
    List.mem_cons_of_mem _ (List.mem_append_right _ hi)
  have hne : ∀ s ∈ st.rows, s.id ≠ generateId d.now d.rand := fun s hs he => hfresh (he ▸ h.id s hs)
  have hroot : ∀ s ∈ st.rows, s.status = .active → s.agentGroupId = x.agentGroupId → truthy s.rootSessionId = true →
      s.rootSessionId ≠ (x.new d sourceDepth).rootSessionId := fun s hs => h.new_root hfresh hnone hs
  refine ⟨fun s hs t ht hid => ?_, fun s hs => ?_, fun s hs r hr htruthy => ?_,
    fun s hs t ht hsa hta hgroup hsame htruthy => ?_⟩
  · rcases List.mem_append.mp hs with hs | hs <;> rcases List.mem_append.mp ht with ht | ht
    · exact h.distinct s hs t ht hid
    · obtain rfl := List.mem_singleton.mp ht
      exact absurd hid (hne s hs)
    · obtain rfl := List.mem_singleton.mp hs
      exact absurd hid.symm (hne t ht)
    · rw [List.mem_singleton.mp hs, List.mem_singleton.mp ht]
  · rcases List.mem_append.mp hs with hs | hs
    · exact hold _ (h.id s hs)
    · obtain rfl := List.mem_singleton.mp hs
      exact List.mem_cons_self
  · rcases List.mem_append.mp hs with hs | hs
    · exact hold _ (h.root s hs r hr htruthy)
    · obtain rfl := List.mem_singleton.mp hs
      obtain rfl : x.rootSessionId.getD (generateId d.now d.rand) = r := Option.some.inj hr
      cases x.rootSessionId with
      | none => exact List.mem_cons_self
      | some r => exact List.mem_cons_of_mem _ List.mem_cons_self
  · rcases List.mem_append.mp hs with hs | hs <;> rcases List.mem_append.mp ht with ht | ht
    · exact h.lane s hs t ht hsa hta hgroup hsame htruthy
    · obtain rfl := List.mem_singleton.mp ht
      exact absurd hsame (hroot s hs hsa hgroup htruthy)
    · obtain rfl := List.mem_singleton.mp hs
      exact absurd hsame.symm (hroot t ht hta hgroup.symm (hsame ▸ htruthy))
    · rw [List.mem_singleton.mp hs, List.mem_singleton.mp ht]

theorem SessionInv.map (h : SessionInv st) {f : Session → Session} (hf : KeepsLane f) :
    SessionInv { st with rows := st.rows.map f } := by
  refine ⟨fun s hs t ht hid => ?_, fun s hs => ?_, fun s hs r hr htruthy => ?_,
    fun s hs t ht hsa hta hgroup hsame htruthy => ?_⟩ <;> obtain ⟨s₀, hs₀, rfl⟩ := List.mem_map.mp hs
  · obtain ⟨t₀, ht₀, rfl⟩ := List.mem_map.mp ht
    rw [hf.id, hf.id] at hid
    rw [h.distinct s₀ hs₀ t₀ ht₀ hid]
  · rw [hf.id]
    exact h.id s₀ hs₀
  · rw [hf.rootSessionId] at hr
    exact h.root s₀ hs₀ r hr htruthy
  · obtain ⟨t₀, ht₀, rfl⟩ := List.mem_map.mp ht
    rw [hf.agentGroupId, hf.agentGroupId] at hgroup
    rw [hf.rootSessionId] at htruthy
    rw [hf.rootSessionId, hf.rootSessionId] at hsame
    rw [h.lane s₀ hs₀ t₀ ht₀ (hf.status s₀ hsa) (hf.status t₀ hta) hgroup hsame htruthy]

theorem SessionInv.subset (h : SessionInv st) {rows : List Session} {spent : List String} (hrows : rows ⊆ st.rows)
    (hspent : st.spent ⊆ spent) : SessionInv ⟨rows, spent⟩ where
  distinct s hs t ht := h.distinct s (hrows hs) t (hrows ht)
  id s hs := hspent (h.id s (hrows hs))
  root s hs r hr htruthy := hspent (h.root s (hrows hs) r hr htruthy)
  lane s hs t ht := h.lane s (hrows hs) t (hrows ht)

theorem sessionInv_step (st : SessionDesk) (e : SessionEvent) (st' : SessionDesk) (h : SessionInv st)
    (hs : sessionStep st e = some st') : SessionInv st' := by
  rcases sessionStep_cases hs with ⟨spent, hspent, rfl⟩ | ⟨x, d, sourceDepth, hfresh, hnone, rfl⟩ | ⟨f, hf, rfl⟩ |
    ⟨id, rfl⟩
  · exact h.subset (List.Subset.refl _) hspent
  · exact h.append hfresh hnone
  · exact h.map hf
  · exact h.subset (List.filter_sublist.subset) (List.Subset.refl _)

/-! ### The session that a lookup finds first -/

/-- The call goes by its messaging group. -/
structure SessionArgs.ByMode (x : SessionArgs) : Prop where
  root : truthy x.rootSessionId = false
  mode : x.sessionMode ≠ .agentShared
  messagingGroup : truthy x.messagingGroupId = true

def SessionArgs.lookupThreadId (x : SessionArgs) : Option String :=
  if x.sessionMode = .shared ∨ x.sessionMode = .perUser then none else x.threadId

/-- The owner of the sessions of the call: its own in a user-scoped mode, nobody otherwise. -/
def SessionArgs.owner (x : SessionArgs) : Option String :=
  if isUserScopedSessionMode x.sessionMode then x.ownerUserId else none

/-- The condition of the call's lookup. -/
def SessionArgs.finds (x : SessionArgs) (s : Session) : Bool :=
  s.agentGroupId = x.agentGroupId && s.messagingGroupId = x.messagingGroupId && s.ownerUserId = x.owner &&
    threadIs x.lookupThreadId s && s.status = .active

/-- The call does not throw for want of an owner. -/
def SessionArgs.Owned (x : SessionArgs) : Prop :=
  isUserScopedSessionMode x.sessionMode = true → truthy x.ownerUserId = true

theorem existing_byMode (hx : x.ByMode) (howned : x.Owned) (db : List Session) :
    x.existing db = db.find? x.finds := by
  obtain ⟨mg, hmg, hne⟩ := truthy_iff.mp hx.messagingGroup
  have hbyMode : x.existing db = resolveExisting.byMode db x.agentGroupId x.messagingGroupId x.threadId x.sessionMode
      x.ownerUserId := by
    unfold SessionArgs.existing resolveExisting
    cases hroot : x.rootSessionId with
    | none => rfl
    | some r =>
      have hempty : r = "" := by simpa [hroot, truthy] using hx.root
      simp [hempty]
  rw [hbyMode]
  unfold resolveExisting.byMode
  rw [if_neg hx.mode, hmg]
  dsimp only
  rw [if_neg hne]
  by_cases hscoped : isUserScopedSessionMode x.sessionMode = true
  · obtain ⟨owner, howner, -⟩ := truthy_iff.mp (howned hscoped)
    rw [if_pos hscoped, howner, Option.bind_some, findSessionForAgentOwner]
    congr 1
    funext s
    simp [SessionArgs.finds, SessionArgs.owner, hscoped, howner, hmg, SessionArgs.lookupThreadId]
  · rw [if_neg hscoped, findSessionForAgent]
    congr 1
    funext s
    simp only [SessionArgs.finds, SessionArgs.owner, if_neg hscoped, hmg, SessionArgs.lookupThreadId]
    cases decide (s.ownerUserId = none) <;> simp

theorem finds_of_keepsLane {f : Session → Session} (hf : KeepsLane f) {s : Session} (h : x.finds (f s) = true) :
    x.finds s = true := by
  simp only [SessionArgs.finds, threadIs, Bool.and_eq_true, decide_eq_true_eq, hf.agentGroupId, hf.messagingGroupId,
    hf.ownerUserId, hf.threadId] at h ⊢
  exact ⟨h.1, hf.status s h.2⟩

theorem find?_map_first {p : Session → Bool} {f : Session → Session} (hf : ∀ s, p (f s) = true → p s = true)
    {rows : List Session} {t : Session} (h : rows.find? p = some t) (ht : p (f t) = true) :
    (rows.map f).find? p = some (f t) := by
  obtain ⟨hp, before, after, rfl, hbefore⟩ := List.find?_eq_some_iff_append.mp h
  refine List.find?_eq_some_iff_append.mpr ⟨ht, before.map f, after.map f, by simp, fun s hs => ?_⟩
  obtain ⟨s₀, hs₀, rfl⟩ := List.mem_map.mp hs
  have hno : p s₀ = false := by simpa using hbefore s₀ hs₀
  by_contra hyes
  rw [hf s₀ (by simpa using hyes)] at hno
  cases hno

theorem find?_filter_first {p q : Session → Bool} {rows : List Session} {t : Session} (h : rows.find? p = some t)
    (ht : q t = true) : (rows.filter q).find? p = some t := by
  obtain ⟨hp, before, after, rfl, hbefore⟩ := List.find?_eq_some_iff_append.mp h
  refine List.find?_eq_some_iff_append.mpr ⟨hp, before.filter q, after.filter q, by simp [List.filter_append, ht],
    fun s hs => hbefore s (List.mem_of_mem_filter hs)⟩

/-- What a call holds of the session that it has returned. -/
structure KeptFirst (x : SessionArgs) (id : String) (st : SessionDesk) : Prop where
  spent : id ∈ st.spent
  group : ∀ t ∈ st.rows, t.id = id → t.agentGroupId = x.agentGroupId
  root : ∀ t ∈ st.rows, t.id = id → truthy x.rootSessionId = true → t.rootSessionId = x.rootSessionId
  first : x.ByMode → ∀ t ∈ st.rows, t.id = id → t.status = .active → st.rows.find? x.finds = some t

/-- **A session stays the one that is found**, as long as it is active. -/
theorem KeptFirst.step {id : String} (h : KeptFirst x id st) {e : SessionEvent} (hs : sessionStep st e = some st') :
    KeptFirst x id st' := by
  rcases sessionStep_cases hs with ⟨spent, hspent, rfl⟩ | ⟨y, d, sourceDepth, hfresh, -, rfl⟩ | ⟨f, hf, rfl⟩ | ⟨i, rfl⟩
  · exact ⟨hspent h.spent, h.group, h.root, h.first⟩
  · -- the new session has another id, and comes last
    have hold : ∀ t ∈ st.rows ++ [y.new d sourceDepth], t.id = id → t ∈ st.rows := by
      intro t ht hid
      rcases List.mem_append.mp ht with ht | ht
      · exact ht
      · obtain rfl := List.mem_singleton.mp ht
        change generateId d.now d.rand = id at hid
        exact (hfresh (hid ▸ h.spent)).elim
    refine ⟨List.mem_cons_of_mem _ (List.mem_append_right _ h.spent), fun t ht hid => h.group t (hold t ht hid) hid,
      fun t ht hid => h.root t (hold t ht hid) hid, fun hmode t ht hid hactive => ?_⟩
    rw [List.find?_append, h.first hmode t (hold t ht hid) hid hactive]
    rfl
  · have himage : ∀ t ∈ st.rows.map f, t.id = id → ∃ t₀ ∈ st.rows, t₀.id = id ∧ t = f t₀ := by
      intro t ht hid
      obtain ⟨t₀, ht₀, rfl⟩ := List.mem_map.mp ht
      exact ⟨t₀, ht₀, (hf.id t₀).symm.trans hid, rfl⟩
    refine ⟨h.spent, fun t ht hid => ?_, fun t ht hid htruthy => ?_, fun hmode t ht hid hactive => ?_⟩ <;>
      obtain ⟨t₀, ht₀, hid₀, rfl⟩ := himage t ht hid
    · rw [hf.agentGroupId, h.group t₀ ht₀ hid₀]
    · rw [hf.rootSessionId, h.root t₀ ht₀ hid₀ htruthy]
    · have hfirst := h.first hmode t₀ ht₀ hid₀ (hf.status t₀ hactive)
      have hfinds := List.find?_some hfirst
      refine find?_map_first (fun s => finds_of_keepsLane hf) hfirst ?_
      simp only [SessionArgs.finds, threadIs, Bool.and_eq_true, decide_eq_true_eq, hf.agentGroupId,
        hf.messagingGroupId, hf.ownerUserId, hf.threadId] at hfinds ⊢
      exact ⟨hfinds.1, hactive⟩
  · refine ⟨h.spent, fun t ht hid => h.group t (List.mem_of_mem_filter ht) hid,
      fun t ht hid => h.root t (List.mem_of_mem_filter ht) hid, fun hmode t ht hid hactive => ?_⟩
    obtain ⟨hmem, hkept⟩ := List.mem_filter.mp ht
    exact find?_filter_first (h.first hmode t hmem hid hactive) hkept

/-! ### The next call -/

/-- The call is for a messaging group, a root session or the group's shared session. -/
def SessionArgs.Covered (x : SessionArgs) : Prop :=
  truthy x.messagingGroupId = true ∨ truthy x.rootSessionId = true ∨ x.sessionMode = .agentShared

/-- The call returns the session of this id; in agent-shared mode, a session of its group. -/
def SessionArgs.Returns (x : SessionArgs) (id : String) (t : Session) : Prop :=
  t.id = id ∨ x.sessionMode = .agentShared ∧ truthy x.rootSessionId = false ∧ t.agentGroupId = x.agentGroupId

theorem resolve_existing (howned : x.Owned) {db : List Session} {t : Session} (h : x.existing db = some t) (d : Draw)
    (sourceDepth : Option ℕ) : x.resolve db d sourceDepth = (db, .ok (t, false)) := by
  have hguard : (isUserScopedSessionMode x.sessionMode && !truthy x.ownerUserId) = false := by
    cases hscoped : isUserScopedSessionMode x.sessionMode with
    | false => rfl
    | true => simp [howned hscoped]
  unfold SessionArgs.existing at h
  unfold SessionArgs.resolve resolveSession
  rw [hguard, h]
  rfl

/-- **A held session is found.** -/
theorem KeptFirst.found {id : String} (h : KeptFirst x id st) (hi : SessionInv st) (hx : x.Covered) (howned : x.Owned)
    {s : Session} (hs : s ∈ st.rows) (hid : s.id = id) (hactive : s.status = .active) :
    ∃ t, x.existing st.rows = some t ∧ x.Returns id t := by
  have hgroup := h.group s hs hid
  by_cases hroot : truthy x.rootSessionId = true
  · obtain ⟨r, hr, -⟩ := truthy_iff.mp hroot
    have hrootOf := h.root s hs hid hroot
    have hlookup : x.existing st.rows = findSessionForAgentRoot st.rows x.agentGroupId r := by
      unfold SessionArgs.existing
      rw [hr, resolveExisting_root (hr ▸ hroot)]
    cases hfound : findSessionForAgentRoot st.rows x.agentGroupId r with
    | none => exact (newestActive_none hfound hs (by simp [hgroup, hrootOf, hr]) hactive).elim
    | some t =>
      obtain ⟨ht, hp, hta⟩ := newestActive_spec hfound
      simp only [Bool.and_eq_true, decide_eq_true_eq] at hp
      -- the root's one active session
      have hsame : t = s := hi.lane t ht s hs hta hactive (hp.1.trans hgroup.symm)
        (hp.2.trans (hr.symm.trans hrootOf.symm)) (by rw [hp.2, ← hr]; exact hroot)
      exact ⟨t, by rw [hlookup, hfound], .inl (by rw [hsame, hid])⟩
  · have hnoRoot : truthy x.rootSessionId = false := by simpa using hroot
    by_cases hshared : x.sessionMode = .agentShared
    · have hlookup : x.existing st.rows = findSessionByAgentGroup st.rows x.agentGroupId := by
        unfold SessionArgs.existing resolveExisting resolveExisting.byMode
        cases hr : x.rootSessionId with
        | none => simp [hshared]
        | some r =>
          have hempty : r = "" := by simpa [hr, truthy] using hnoRoot
          simp [hempty, hshared]
      cases hfound : findSessionByAgentGroup st.rows x.agentGroupId with
      | none => exact (newestActive_none hfound hs (by simp [hgroup]) hactive).elim
      | some t =>
        obtain ⟨-, hp, -⟩ := newestActive_spec hfound
        simp only [decide_eq_true_eq] at hp
        exact ⟨t, by rw [hlookup, hfound], .inr ⟨hshared, hnoRoot, hp⟩⟩
    · have hmg : truthy x.messagingGroupId = true := by
        rcases hx with hx | hx | hx
        · exact hx
        · exact (hroot hx).elim
        · exact (hshared hx).elim
      have hmode : x.ByMode := ⟨hnoRoot, hshared, hmg⟩
      exact ⟨s, by rw [existing_byMode hmode howned, h.first hmode s hs hid hactive], .inl hid⟩

/-- The call is for the empty thread id in a mode per thread, and there is no session without a thread for it. -/
structure EmptyThread (db : List Session) (x : SessionArgs) : Prop where
  byMode : x.ByMode
  perThread : x.sessionMode = .perThread ∨ x.sessionMode = .perUserPerThread
  thread : x.threadId = some ""
  noSession : ∀ s ∈ db, ¬ (s.agentGroupId = x.agentGroupId ∧ s.messagingGroupId = x.messagingGroupId ∧
    s.ownerUserId = x.owner ∧ s.threadId = none ∧ s.status = .active)

theorem finds_empty_iff (hthread : x.threadId = some "") {s : Session} :
    x.finds s = true ↔ s.agentGroupId = x.agentGroupId ∧ s.messagingGroupId = x.messagingGroupId ∧
      s.ownerUserId = x.owner ∧ s.threadId = none ∧ s.status = .active := by
  have hlookup : truthy x.lookupThreadId = false := by
    unfold SessionArgs.lookupThreadId
    split
    · rfl
    · simp [hthread, truthy]
  simp [SessionArgs.finds, threadIs, hlookup, and_assoc]

theorem finds_new (hmode : x.ByMode) (hthread : x.threadId ≠ some "" ∨
    ¬ (x.sessionMode = .perThread ∨ x.sessionMode = .perUserPerThread)) :
    x.finds (x.new d sourceDepth) = true := by
  have howner : (x.new d sourceDepth).ownerUserId = x.owner := by
    simp [SessionArgs.new, newSession, SessionArgs.owner, hmode.root]
  have hthreadIs : threadIs x.lookupThreadId (x.new d sourceDepth) = true := by
    by_cases hper : x.sessionMode = .perThread ∨ x.sessionMode = .perUserPerThread
    · have hnot : ¬ (x.sessionMode = .shared ∨ x.sessionMode = .perUser) := by
        rcases hper with h | h <;> simp [h]
      have hlookup : x.lookupThreadId = x.threadId := if_neg hnot
      have hcolumn : (x.new d sourceDepth).threadId = x.threadId := if_pos hper
      have hne : x.threadId ≠ some "" := hthread.resolve_right fun hno => hno hper
      simp only [threadIs, hlookup, hcolumn]
      cases ht : x.threadId with
      | none => simp
      | some th =>
        rw [ht] at hne
        have htruthy : truthy (some th) = true := by simpa [truthy] using hne
        simp [htruthy]
    · have hshared : x.sessionMode = .shared ∨ x.sessionMode = .perUser := by
        have hno := hmode.mode
        cases hm : x.sessionMode <;> simp_all
      have hlookup : x.lookupThreadId = none := if_pos hshared
      have hcolumn : (x.new d sourceDepth).threadId = none := if_neg hper
      simp [threadIs, hlookup, hcolumn]
  simp [SessionArgs.finds, howner, hthreadIs]
  simp [SessionArgs.new, newSession]

theorem resolve_new {db : List Session} (hnone : x.existing db = none) {s : Session} {c : Bool}
    (h : (x.resolve db d sourceDepth).2 = .ok (s, c)) :
    x.resolve db d sourceDepth = (db ++ [x.new d sourceDepth], .ok (x.new d sourceDepth, true)) ∧
      s = x.new d sourceDepth ∧ c = true := by
  unfold SessionArgs.existing at hnone
  unfold SessionArgs.resolve resolveSession at h ⊢
  rw [hnone] at h ⊢
  dsimp only at h ⊢
  split at h
  · cases h
  split at h
  · cases h
  split at h
  · rename_i howned hnew hfolder
    rw [if_neg howned, if_neg hnew, if_pos hfolder]
    obtain ⟨rfl, rfl⟩ := Prod.mk.inj (Except.ok.inj h)
    exact ⟨rfl, rfl, rfl⟩
  · cases h

theorem owned_of_resolve {db : List Session} {r : Session × Bool} (h : (x.resolve db d sourceDepth).2 = .ok r) :
    x.Owned := by
  intro hscoped
  by_contra hno
  unfold SessionArgs.resolve resolveSession at h
  rw [if_pos (by simp [hscoped, hno])] at h
  cases h

/-- **What a call that returns a session holds of it**, unless it was for the empty thread id. -/
theorem held_of_call (hi : SessionInv st) (hstep : sessionStep st (.resolve x d sourceDepth) = some st') {s : Session}
    {c : Bool} (hcall : (x.resolve st.rows d sourceDepth).2 = .ok (s, c)) (hempty : ¬ EmptyThread st.rows x) :
    KeptFirst x s.id st' := by
  have howned := owned_of_resolve hcall
  simp only [sessionStep] at hstep
  split at hstep
  · cases hstep
  rename_i hfresh
  obtain rfl := Option.some.inj hstep
  cases hexisting : x.existing st.rows with
  | some t =>
    rw [resolve_existing howned hexisting] at hcall ⊢
    obtain ⟨rfl, -⟩ := Prod.mk.inj (Except.ok.inj hcall)
    obtain ⟨hmem, hgroup, hactive, hroot⟩ := resolveExisting_spec hexisting
    have honly : ∀ u ∈ st.rows, u.id = t.id → u = t := fun u hu hid => hi.distinct u hu t hmem hid
    have hspent : t.id ∈ generateId d.now d.rand :: (x.rootSessionId.toList ++ st.spent) :=
      List.mem_cons_of_mem _ (List.mem_append_right _ (hi.id t hmem))
    refine ⟨hspent, fun u hu hid => ?_, fun u hu hid htruthy => ?_, fun hmode u hu hid _ => ?_⟩
    · rw [honly u hu hid, hgroup]
    · rw [honly u hu hid, hroot htruthy]
    · rw [honly u hu hid, ← existing_byMode hmode howned, hexisting]
  | none =>
    obtain ⟨hresolve, rfl, -⟩ := resolve_new hexisting hcall
    rw [hresolve]
    have honly : ∀ u ∈ st.rows ++ [x.new d sourceDepth], u.id = (x.new d sourceDepth).id →
        u = x.new d sourceDepth := by
      intro u hu hid
      rcases List.mem_append.mp hu with hu | hu
      · change u.id = generateId d.now d.rand at hid
        exact (hfresh (hid ▸ hi.id u hu)).elim
      · exact List.mem_singleton.mp hu
    refine ⟨List.mem_cons_self, fun u hu hid => ?_, fun u hu hid htruthy => ?_, fun hmode u hu hid _ => ?_⟩
    · rw [honly u hu hid]
      rfl
    · obtain ⟨r, hr, -⟩ := truthy_iff.mp htruthy
      rw [honly u hu hid, hr]
      show some (x.rootSessionId.getD _) = some r
      rw [hr]
      rfl
    · have hfinds : x.finds (x.new d sourceDepth) = true := by
        refine finds_new hmode ?_
        by_contra hneither
        have hboth : x.threadId = some "" ∧ (x.sessionMode = .perThread ∨ x.sessionMode = .perUserPerThread) := by
          tauto
        refine hempty ⟨hmode, hboth.2, hboth.1, fun u hu hfound => ?_⟩
        rw [existing_byMode hmode howned, List.find?_eq_none] at hexisting
        exact hexisting u hu ((finds_empty_iff hboth.1).mpr hfound)
      rw [existing_byMode hmode howned] at hexisting
      rw [honly u hu hid, List.find?_append, hexisting, Option.none_or, List.find?_cons_of_pos hfinds]

/-- Every later call with the arguments returns the session, while it is active, whatever is called in between. -/
def StaysWith (st : SessionDesk) (x : SessionArgs) (s : Session) : Prop :=
  ∀ es st', Trans.run sessionStep st es = some st' → (∃ t ∈ st'.rows, t.id = s.id ∧ t.status = .active) →
    ∀ d sourceDepth, ∃ t, (x.resolve st'.rows d sourceDepth).2 = .ok (t, false) ∧ x.Returns s.id t

/-- **Resolving a session is stable exactly when the call does not create one for an empty thread id.** -/
theorem session_stable_iff {es : List SessionEvent} (hrun : Trans.run sessionStep .empty es = some st)
    (hx : x.Covered) (hstep : sessionStep st (.resolve x d sourceDepth) = some st') {s : Session} {c : Bool}
    (hcall : (x.resolve st.rows d sourceDepth).2 = .ok (s, c)) : StaysWith st' x s ↔ ¬ EmptyThread st.rows x := by
  have hi := Trans.run_inv sessionInv_step sessionInv_empty hrun
  have howned := owned_of_resolve hcall
  constructor
  · intro hstays hempty
    have hnone : x.existing st.rows = none := by
      rw [existing_byMode hempty.byMode howned, List.find?_eq_none]
      exact fun u hu hfound => hempty.noSession u hu ((finds_empty_iff hempty.thread).mp hfound)
    obtain ⟨hresolve, rfl, -⟩ := resolve_new hnone hcall
    simp only [sessionStep] at hstep
    split at hstep
    · cases hstep
    obtain rfl := Option.some.inj hstep
    rw [hresolve] at hstays
    -- the session has the empty thread id, which no lookup asks for
    obtain ⟨t, hagain, -⟩ := hstays [] _ rfl
      ⟨x.new d sourceDepth, List.mem_append_right _ List.mem_cons_self, rfl, rfl⟩ d sourceDepth
    have hnew : x.finds (x.new d sourceDepth) = false := by
      rw [Bool.eq_false_iff]
      intro hfound
      obtain ⟨-, -, -, hthread, -⟩ := (finds_empty_iff hempty.thread).mp hfound
      have hcolumn : (x.new d sourceDepth).threadId = x.threadId := if_pos hempty.perThread
      rw [hcolumn, hempty.thread] at hthread
      cases hthread
    have hstill : x.existing (st.rows ++ [x.new d sourceDepth]) = none := by
      rw [existing_byMode hempty.byMode howned] at hnone ⊢
      rw [List.find?_append, hnone, Option.none_or, List.find?_cons_of_neg (by simp [hnew])]
      rfl
    have htrue := (resolve_new hstill hagain).2.2
    cases htrue
  · intro hempty es' st₂ hrun' hactive d' sourceDepth'
    obtain ⟨t, ht, hid, hta⟩ := hactive
    have hheld : KeptFirst x s.id st₂ :=
      Trans.run_inv (fun _ _ _ h hs => h.step hs) (held_of_call hi hstep hcall hempty) hrun'
    have hi' := Trans.run_inv sessionInv_step (sessionInv_step st _ st' hi hstep) hrun'
    obtain ⟨u, hu, hreturns⟩ := hheld.found hi' hx howned ht hid hta
    exact ⟨u, by rw [resolve_existing howned hu], hreturns⟩

end

/-- Messages of one thread of a chat, `th` its id. -/
def threadArgs (th : String) : SessionArgs := ⟨"ag-1", some "mg-1", some th, .perThread, none, none⟩

def firstDraw : Draw := ⟨1, "aaaaaa", "bbbbbb", 1, true⟩

theorem session_stable_iff_sample :
    ∃ st s, sessionStep .empty (.resolve (threadArgs "t-1") firstDraw none) = some st ∧
      StaysWith st (threadArgs "t-1") s := by
  have hcall : ((threadArgs "t-1").resolve [] firstDraw none).2 =
      .ok ((threadArgs "t-1").new firstDraw none, true) := rfl
  have hnonempty : ¬ EmptyThread [] (threadArgs "t-1") := fun h => absurd h.thread (by decide)
  have hrun : Trans.run sessionStep .empty [] = some .empty := rfl
  exact ⟨_, _, rfl, (session_stable_iff hrun (.inl (by decide)) rfl hcall).mpr hnonempty⟩

/-- The second message of the empty thread opens another session. -/
theorem empty_thread_splits :
    ∃ st s, sessionStep .empty (.resolve (threadArgs "") firstDraw none) = some st ∧
      ((threadArgs "").resolve [] firstDraw none).2 = .ok (s, true) ∧ (threadArgs "").Covered ∧
      ¬ StaysWith st (threadArgs "") s := by
  refine ⟨_, (threadArgs "").new firstDraw none, rfl, rfl, .inl (by decide), fun h => ?_⟩
  obtain ⟨t, hagain, -⟩ := h [] _ rfl ⟨_, List.mem_cons_self, rfl, rfl⟩ ⟨2, "cccccc", "dddddd", 2, true⟩ none
  obtain ⟨-, hcreated⟩ := Prod.mk.inj (Except.ok.inj hagain)
  cases hcreated

end AgentDesk
