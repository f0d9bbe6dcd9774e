/-
# The session table

`sessions` in the central database (`src/db/sessions.ts`) and the one function
that adds a row to it, `resolveSession` (`src/session-manager.ts`): find the
session a message belongs to, or create it. The table is a list in insertion
order; a lookup with `ORDER BY created_at DESC LIMIT 1` is `List.argmax`, one
without an order is `List.find?`.

What the clock and `Math.random` give a call is its `Draw`. The primary key
makes an insert of a drawn id that is already in the table throw.

* `resolveSession_cases`: everything a call can do. It either leaves the table
  alone (and throws or returns a row of it), or appends one new row with an id
  that was not in the table.
-/
import Mathlib.Data.List.MinMax
import AgentDesk.Js

namespace AgentDesk

open Js

/-- `session_mode` of a wiring. -/
inductive SessionMode where
  | shared | perThread | agentShared | perUser | perUserPerThread
  deriving DecidableEq, Repr

/-- The column's text. -/
def SessionMode.text : SessionMode → String
  | .shared => "shared"
  | .perThread => "per-thread"
  | .agentShared => "agent-shared"
  | .perUser => "per-user"
  | .perUserPerThread => "per-user-per-thread"

def isUserScopedSessionMode (m : SessionMode) : Bool :=
  m = .perUser || m = .perUserPerThread

inductive SessionStatus where
  | active | closed | archived
  deriving DecidableEq, Repr

/-- A row of `sessions`. The provider and container columns are left out: no
function here reads them. -/
structure Session where
  id : String
  agentGroupId : String
  messagingGroupId : Option String
  threadId : Option String
  ownerUserId : Option String
  rootSessionId : Option String
  conversationThreadId : Option String
  status : SessionStatus
  spawnDepth : ℕ
  createdAt : ℕ
  deriving DecidableEq, Repr

/-! ### Lookups -/

def getSession (db : List Session) (id : String) : Option Session :=
  db.find? fun s => s.id = id

/-- `thread_id = ?` for a truthy argument, `thread_id IS NULL` otherwise. -/
def threadIs (threadId : Option String) (s : Session) : Bool :=
  if truthy threadId then s.threadId = threadId else s.threadId = none

def findSessionForAgent (db : List Session) (agentGroupId messagingGroupId : String)
    (threadId : Option String) : Option Session :=
  db.find? fun s => s.agentGroupId = agentGroupId && s.messagingGroupId = some messagingGroupId &&
    threadIs threadId s && s.ownerUserId = none && s.status = .active

def findSessionForAgentOwner (db : List Session) (agentGroupId messagingGroupId ownerUserId : String)
    (threadId : Option String) : Option Session :=
  db.find? fun s => s.agentGroupId = agentGroupId && s.messagingGroupId = some messagingGroupId &&
    s.ownerUserId = some ownerUserId && threadIs threadId s && s.status = .active

/-- The newest active row that meets `p`. -/
def newestActive (db : List Session) (p : Session → Bool) : Option Session :=
  (db.filter fun s => p s && s.status = .active).argmax (·.createdAt)

def findSessionByAgentGroup (db : List Session) (agentGroupId : String) : Option Session :=
  newestActive db fun s => s.agentGroupId = agentGroupId

def findNewestOwnedSessionForAgent (db : List Session) (agentGroupId ownerUserId : String) :
    Option Session :=
  newestActive db fun s => s.agentGroupId = agentGroupId && s.ownerUserId = some ownerUserId

def findNewestOwnerlessSessionForAgent (db : List Session) (agentGroupId : String) : Option Session :=
  newestActive db fun s => s.agentGroupId = agentGroupId && s.ownerUserId = none

def findSessionForAgentRoot (db : List Session) (agentGroupId rootSessionId : String) : Option Session :=
  newestActive db fun s => s.agentGroupId = agentGroupId && s.rootSessionId = some rootSessionId

theorem newestActive_spec {db : List Session} {p : Session → Bool} {s : Session}
    (h : newestActive db p = some s) : s ∈ db ∧ p s = true ∧ s.status = .active := by
  have hm := List.argmax_mem h
  simpa [List.mem_filter] using hm

theorem find_spec {db : List Session} {p : Session → Bool} {s : Session}
    (h : db.find? p = some s) : s ∈ db ∧ p s = true :=
  ⟨List.mem_of_find?_eq_some h, List.find?_some h⟩

/-! ### `resolveSession` -/

/-- What the outside gives one call of `resolveSession`: the two clock reads,
the random suffixes of the two ids it may mint, and whether
`initSessionFolder` succeeds. -/
structure Draw where
  now : ℕ
  rand : String
  convRand : String
  createdAt : ℕ
  folderOk : Bool
  deriving DecidableEq, Repr

def generateId (now : ℕ) (rand : String) : String := s!"sess-{now}-{rand}"

theorem generateId_ne (now : ℕ) (rand : String) : generateId now rand ≠ "" := by
  intro h
  have := congrArg String.toList h
  simp [generateId] at this

/-- The row a call creates when no lookup hits. -/
def newSession (d : Draw) (agentGroupId : String) (messagingGroupId threadId : Option String)
    (sessionMode : SessionMode) (ownerUserId rootSessionId : Option String)
    (sourceDepth : Option ℕ) : Session :=
  let id := generateId d.now d.rand
  { id
    agentGroupId
    messagingGroupId
    threadId := if sessionMode = .perThread ∨ sessionMode = .perUserPerThread then threadId else none
    ownerUserId :=
      if truthy rootSessionId then ownerUserId
      else if isUserScopedSessionMode sessionMode then ownerUserId else none
    -- `rootSessionId ?? id`: only null falls back to the session itself
    rootSessionId := some (rootSessionId.getD id)
    conversationThreadId :=
      if truthy rootSessionId then none else some s!"conv-{d.now}-{d.convRand}"
    status := .active
    spawnDepth := match sourceDepth with
      | none => 0
      | some n => n + 1
    createdAt := d.createdAt }

/-- The lookups of `resolveSession`, in its order. -/
def resolveExisting (db : List Session) (agentGroupId : String) (messagingGroupId threadId : Option String)
    (sessionMode : SessionMode) (ownerUserId rootSessionId : Option String) : Option Session :=
  match rootSessionId with
  | some root =>
    if root ≠ "" then findSessionForAgentRoot db agentGroupId root
    else byMode
  | none => byMode
where
  byMode : Option Session :=
    if sessionMode = .agentShared then findSessionByAgentGroup db agentGroupId
    else match messagingGroupId with
      | some mg =>
        if mg = "" then none
        else
          let lookupThreadId := if sessionMode = .shared ∨ sessionMode = .perUser then none else threadId
          if isUserScopedSessionMode sessionMode then
            ownerUserId.bind fun owner => findSessionForAgentOwner db agentGroupId mg owner lookupThreadId
          else findSessionForAgent db agentGroupId mg lookupThreadId
      | none => none

/-- Find or create a session. Returns the table after the call, and the
session with whether it was created, or the error thrown. -/
def resolveSession (db : List Session) (d : Draw) (agentGroupId : String)
    (messagingGroupId threadId : Option String) (sessionMode : SessionMode)
    (ownerUserId rootSessionId : Option String) (sourceDepth : Option ℕ) :
    List Session × Except String (Session × Bool) :=
  if isUserScopedSessionMode sessionMode && !truthy ownerUserId then
    (db, .error s!"ownerUserId is required for session_mode={sessionMode.text}")
  else
    match resolveExisting db agentGroupId messagingGroupId threadId sessionMode ownerUserId
        rootSessionId with
    | some existing => (db, .ok (existing, false))
    | none =>
      let session := newSession d agentGroupId messagingGroupId threadId sessionMode ownerUserId
        rootSessionId sourceDepth
      if db.any fun s => s.id = session.id then
        (db, .error "UNIQUE constraint failed: sessions.id")
      else if d.folderOk then (db ++ [session], .ok (session, true))
      else (db ++ [session], .error "initSessionFolder failed")

theorem resolveExisting_spec {db : List Session} {g : String} {mg th : Option String}
    {mode : SessionMode} {owner root : Option String} {s : Session}
    (h : resolveExisting db g mg th mode owner root = some s) :
    s ∈ db ∧ s.agentGroupId = g ∧ s.status = .active ∧
      (truthy root = true → s.rootSessionId = root) := by
  have hby : resolveExisting.byMode db g mg th mode owner = some s →
      s ∈ db ∧ s.agentGroupId = g ∧ s.status = .active := by
    intro h
    unfold resolveExisting.byMode at h
    split at h
    · obtain ⟨hm, hp, ha⟩ := newestActive_spec h
      exact ⟨hm, by simpa using hp, ha⟩
    · split at h
      · split at h
        · cases h
        · simp only at h
          split at h
          · obtain ⟨o, -, ho⟩ := Option.bind_eq_some_iff.mp h
            obtain ⟨hm, hp⟩ := find_spec ho
            simp only [Bool.and_eq_true, decide_eq_true_eq] at hp
            exact ⟨hm, hp.1.1.1.1, hp.2⟩
          · obtain ⟨hm, hp⟩ := find_spec h
            simp only [Bool.and_eq_true, decide_eq_true_eq] at hp
            exact ⟨hm, hp.1.1.1.1, hp.2⟩
      · cases h
  unfold resolveExisting at h
  cases root with
  | none =>
    obtain ⟨h1, h2, h3⟩ := hby h
    exact ⟨h1, h2, h3, by simp⟩
  | some r =>
    simp only at h
    by_cases hr : r = ""
    · simp only [hr, ne_eq, not_true_eq_false, if_false] at h
      obtain ⟨h1, h2, h3⟩ := hby h
      exact ⟨h1, h2, h3, by simp [hr]⟩
    · rw [if_pos hr] at h
      obtain ⟨hm, hp, ha⟩ := newestActive_spec h
      simp only [Bool.and_eq_true, decide_eq_true_eq] at hp
      exact ⟨hm, hp.1, ha, fun _ => hp.2⟩

/-- **Everything `resolveSession` can do.** It leaves the table alone and
throws, or returns an active row of the group's (of the root's lane when a root
is given); or it appends one row whose id was not in the table. -/
theorem resolveSession_cases {db db' : List Session} {d : Draw} {g : String} {mg th : Option String}
    {mode : SessionMode} {owner root : Option String} {depth : Option ℕ}
    {r : Except String (Session × Bool)}
    (h : resolveSession db d g mg th mode owner root depth = (db', r)) :
    (db' = db ∧ ∃ e, r = .error e) ∨
    (db' = db ∧ ∃ s, r = .ok (s, false) ∧ s ∈ db ∧ s.agentGroupId = g ∧ s.status = .active ∧
      (truthy root = true → s.rootSessionId = root)) ∨
    (db' = db ++ [newSession d g mg th mode owner root depth] ∧
      (∀ s ∈ db, s.id ≠ generateId d.now d.rand) ∧
      (isUserScopedSessionMode mode = true → truthy owner = true) ∧
      ∀ s c, r = .ok (s, c) → s = newSession d g mg th mode owner root depth) := by
  unfold resolveSession at h
  split at h
  · obtain ⟨rfl, rfl⟩ := Prod.mk.inj h
    exact .inl ⟨rfl, _, rfl⟩
  · rename_i hmode
    have hown : isUserScopedSessionMode mode = true → truthy owner = true := by
      intro hm
      by_contra ho
      exact hmode (by simp [hm, ho])
    split at h
    · rename_i s hs
      obtain ⟨rfl, rfl⟩ := Prod.mk.inj h
      exact .inr (.inl ⟨rfl, s, rfl, resolveExisting_spec hs⟩)
    · simp only at h
      split at h
      · obtain ⟨rfl, rfl⟩ := Prod.mk.inj h
        exact .inl ⟨rfl, _, rfl⟩
      · rename_i hid
        have hfresh : ∀ s ∈ db, s.id ≠ generateId d.now d.rand := by
          intro s hs he
          exact hid (List.any_eq_true.mpr ⟨s, hs, by simpa [newSession] using he⟩)
        split at h
        · obtain ⟨rfl, rfl⟩ := Prod.mk.inj h
          exact .inr (.inr ⟨rfl, hfresh, hown, fun s c he => by
            simp only [Except.ok.injEq, Prod.mk.injEq] at he
            exact he.1.symm⟩)
        · obtain ⟨rfl, rfl⟩ := Prod.mk.inj h
          exact .inr (.inr ⟨rfl, hfresh, hown, fun s c he => by cases he⟩)

end AgentDesk
