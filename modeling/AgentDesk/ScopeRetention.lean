/-
# Expiring the state of people who left

`src/scope-retention.ts`: what an agent keeps for a person, their memory and the transcripts, is in a
directory of its own, the person's scope. Every spawn that mounts it stamps a marker in it. A sweep deletes
the scopes whose marker is older than the window and that no active session of the person resolves to. The
delete cannot be undone, so that a row of the audit log is written before it.

A delete that fails is tried again at every sweep. So that this does not write a row each time, the scopes
that have a row and are still there are in a set. Only a delete that succeeds takes a scope out of it. The
person may come back before that: the scope is used again, the set still has it, and when it expires for the
second time it is deleted on the strength of the row of the first.

* `visit_cases`: what the sweep can do with one scope.
* `noUnrecordedExpiry_visit`, `noUnrecordedExpiry_sweep`: when it does so with a row.
* `expiry_recorded_iff`: in any run, every delete is of an idle scope, outside the window, with a row since
  its last use, exactly when no scope of the set is used and expires again.
* `returned_scope_lost`: a person comes back after a failed delete.
-/
import AgentDesk.SessionArchive

namespace AgentDesk

open Js

/-! ### Scopes -/

/-- What `userScopeKey` is given by the runtime. -/
structure KeyRuntime where
  toLowerCase : String → String
  sha1Hex : String → String

def isSlugChar (c : Char) : Bool := ('a' ≤ c && c ≤ 'z') || ('0' ≤ c && c ≤ '9')

/-- Everything else becomes a hyphen, and a run of it one hyphen. -/
def hyphenate : List Char → List Char
  | [] => []
  | c :: cs =>
    if isSlugChar c then c :: hyphenate cs
    else if (hyphenate cs).head? = some '-' then hyphenate cs
    else '-' :: hyphenate cs

def trimHyphens (cs : List Char) : List Char :=
  ((cs.dropWhile (· = '-')).reverse.dropWhile (· = '-')).reverse

def userScopeKey (k : KeyRuntime) (userId : String) : String :=
  let slug := String.ofList ((trimHyphens (hyphenate (k.toLowerCase userId).toList)).take 24)
  let named := if slug = "" then "user" else slug
  let fingerprint := String.ofList ((k.sha1Hex userId).toList.take 8)
  s!"u-{named}-{fingerprint}"

/-- The directory of a person's scope, under the one of the agent group. -/
structure ScopeId where
  agentGroupId : String
  scopeKey : String
  deriving DecidableEq, Repr

/-- What backs the writable mounts of a session: the group's directories, or a person's scope. -/
inductive StateScope where
  | group
  | user (base : ScopeId)
  deriving DecidableEq, Repr

def resolveStateScope (k : KeyRuntime) (session : Session) : StateScope :=
  match session.ownerUserId with
  | some owner => if owner = "" then .group else .user ⟨session.agentGroupId, userScopeKey k owner⟩
  | none => .group

/-- A scope on the disk, with the time of `.last-access`; `none` without the marker. -/
structure ScopeDir where
  id : ScopeId
  marker : Option ℕ

/-! ### The sweep -/

/-- A delete of a scope: what the host knew, when, and whether it succeeded. -/
structure ExpiryAttempt where
  scope : ScopeId
  sessions : SessionTable
  lastAccess : Option ℕ
  days : ℕ
  now : ℕ
  removed : Bool

/-- What happens to a scope: a spawn that mounts it, a row `scope_retention_expired` of the audit log, a delete. -/
inductive ScopeEntry where
  | access (scope : ScopeId)
  | audit (scope : ScopeId)
  | attempt (a : ExpiryAttempt)

/-- The host; `log` has what happened, the last first. -/
structure ScopeHost where
  sessions : SessionTable
  scopes : List ScopeDir
  ids : (scopes.map (·.id)).Nodup
  auditedPendingDelete : List ScopeId
  log : List ScopeEntry

def ScopeHost.markerMs (h : ScopeHost) (s : ScopeId) : Option ℕ := (Table.find (·.id) h.scopes s).bind (·.marker)

/-- The writing of a marker: of the file, and of the time it is given. -/
structure StampIo where
  write : Bool
  utimes : Bool

def ScopeDir.withMarker (marker : Option ℕ) (d : ScopeDir) : ScopeDir := { d with marker }

theorem ScopeDir.withMarker_id (marker : Option ℕ) (d : ScopeDir) : (d.withMarker marker).id = d.id := rfl

def ScopeHost.setMarker (h : ScopeHost) (s : ScopeId) (marker : Option ℕ) : ScopeHost :=
  { h with
    scopes := Table.update (·.id) h.scopes s (ScopeDir.withMarker marker)
    ids := by
      rw [Table.keys_update (ScopeDir.withMarker_id marker)]
      exact h.ids }

/-- Stamp a scope, and whether the stamp landed. A file whose time cannot be set is of this moment. -/
def ScopeHost.touchScopeAccess (h : ScopeHost) (s : ScopeId) (atMs : Option ℕ) (now : ℕ) (io : StampIo) :
    ScopeHost × Bool :=
  if !io.write then (h, false)
  else match atMs with
    | none => (h.setMarker s (some now), true)
    | some ms => if io.utimes then (h.setMarker s (some ms), true) else (h.setMarker s (some now), false)

/-- The scopes that active sessions resolve to, and when each scope was last used, as its sessions know. -/
structure ScopeIndex where
  live : List ScopeId
  lastUse : ScopeId → Option ℕ

def indexScopes (k : KeyRuntime) (sessions : SessionTable) : ScopeIndex :=
  { live := (sessions.rows.filter (·.status = .active)).filterMap fun r =>
      match resolveStateScope k r.toSession with
      | .user s => some s
      | .group => none
    lastUse := fun s =>
      ((sessions.rows.filter fun r => resolveStateScope k r.toSession = .user s).map (·.idleSince)).max? }

/-- What becomes of `rmSync`. It may fail with a part of the scope gone, the marker or not. -/
inductive RmResult where
  | removed
  | failed (markerKept : Bool)
  deriving DecidableEq, Repr

/-- The settings of a sweep and what the outside gives it. -/
structure SweepCall where
  days : ℕ
  preview : Bool
  now : ℕ
  listRoot : Bool
  listScopes : String → Bool
  stamp : ScopeId → StampIo
  audit : ScopeId → Bool
  rm : ScopeId → RmResult

inductive ScopeOutcome where
  | skippedLive | kept | wouldRemove | auditFailed | deleteFailed | removed
  deriving DecidableEq, Repr

structure ScopeVisit where
  adopted : Bool
  outcome : ScopeOutcome
  deriving DecidableEq, Repr

/-- A scope without a marker is stamped. -/
def ScopeHost.adopt (h : ScopeHost) (call : SweepCall) (s : ScopeId) (accessed : ℕ) : ScopeHost × Bool :=
  if (h.markerMs s).isSome || call.preview then (h, false)
  else h.touchScopeAccess s (some accessed) call.now (call.stamp s)

def ScopeHost.recordExpiry (h : ScopeHost) (s : ScopeId) : ScopeHost :=
  { h with auditedPendingDelete := s :: h.auditedPendingDelete, log := .audit s :: h.log }

/-- `rmSync` and what follows. -/
def ScopeHost.rmScope (h : ScopeHost) (a : ExpiryAttempt) : RmResult → ScopeHost × ScopeOutcome
  | .removed =>
    ({ h with
        scopes := Table.delete (·.id) h.scopes a.scope, ids := Table.nodup_delete h.ids a.scope
        auditedPendingDelete := h.auditedPendingDelete.filter (· ≠ a.scope)
        log := .attempt { a with removed := true } :: h.log }, .removed)
  | .failed markerKept =>
    let rest := if markerKept then h else h.setMarker a.scope none
    ({ rest with log := .attempt { a with removed := false } :: rest.log }, .deleteFailed)

/-- The last access of a scope that is on record: its marker, or else what its sessions know. -/
def ScopeHost.lastAccess (h : ScopeHost) (index : ScopeIndex) (s : ScopeId) : Option ℕ :=
  (h.markerMs s).or (index.lastUse s)

/-- What is known of a scope that is about to be deleted. -/
def ScopeHost.attempt (h : ScopeHost) (index : ScopeIndex) (call : SweepCall) (s : ScopeId) : ExpiryAttempt :=
  ⟨s, h.sessions, h.lastAccess index s, call.days, call.now, false⟩

/-- One turn of the inner loop. -/
def ScopeHost.visit (h : ScopeHost) (index : ScopeIndex) (call : SweepCall) (s : ScopeId) : ScopeHost × ScopeVisit :=
  if s ∈ index.live then (h, ⟨false, .skippedLive⟩)
  else
    let accessed := (h.lastAccess index s).getD call.now
    let (stamped, adopted) := h.adopt call s accessed
    if call.now < accessed + dayMs * call.days then (stamped, ⟨adopted, .kept⟩)
    else if call.preview then (stamped, ⟨adopted, .wouldRemove⟩)
    else if s ∈ stamped.auditedPendingDelete then
      let (h', outcome) := stamped.rmScope (h.attempt index call s) (call.rm s)
      (h', ⟨adopted, outcome⟩)
    else if call.audit s then
      let (h', outcome) := (stamped.recordExpiry s).rmScope (h.attempt index call s) (call.rm s)
      (h', ⟨adopted, outcome⟩)
    else (stamped, ⟨adopted, .auditFailed⟩)

def ScopeHost.visits (h : ScopeHost) (index : ScopeIndex) (call : SweepCall) :
    List ScopeId → ScopeHost × List ScopeVisit
  | [] => (h, [])
  | s :: scopes =>
    let first := h.visit index call s
    let rest := first.1.visits index call scopes
    (rest.1, first.2 :: rest.2)

structure ScopeSweepResult where
  scanned : ℕ
  adopted : ℕ
  removed : ℕ
  skippedLive : ℕ
  wouldRemove : ℕ
  deriving DecidableEq, Repr

def ScopeSweepResult.of (visits : List ScopeVisit) : ScopeSweepResult :=
  { scanned := visits.length, adopted := visits.countP (·.adopted)
    removed := visits.countP (·.outcome = .removed), skippedLive := visits.countP (·.outcome = .skippedLive)
    wouldRemove := visits.countP (·.outcome = .wouldRemove) }

/-- The scopes that the directories list. -/
def ScopeHost.listed (h : ScopeHost) (call : SweepCall) : List ScopeId :=
  (h.scopes.map (·.id)).filter fun s => call.listScopes s.agentGroupId

def ScopeHost.sweepExpiredScopes (k : KeyRuntime) (h : ScopeHost) (call : SweepCall) : ScopeHost × ScopeSweepResult :=
  if call.days = 0 || !call.listRoot then (h, .of [])
  else
    let swept := h.visits (indexScopes k h.sessions) call (h.listed call)
    (swept.1, .of swept.2)

/-! ### The host -/

/-- Everything that touches the scopes or the table of the sessions. -/
inductive ScopeHostEvent where
  /-- A session is opened, used, archived or deleted. -/
  | write (sessions : SessionTable)
  | spawn (session : Session) (now : ℕ) (stamp : StampIo)
  | sweep (call : SweepCall)
  | restart

/-- A spawn mounts the scope of its session: the directory is made if it is not there, and stamped. -/
def ScopeHost.ensureStateScope (k : KeyRuntime) (h : ScopeHost) (session : Session) (now : ℕ) (stamp : StampIo) :
    ScopeHost :=
  match resolveStateScope k session with
  | .group => h
  | .user s =>
    let made : ScopeHost :=
      { h with
        scopes := Table.upsert (·.id) h.scopes ⟨s, none⟩ id
        ids := Table.nodup_upsert (fun _ => rfl) h.ids _ }
    let touched := (made.touchScopeAccess s none now stamp).1
    { touched with log := .access s :: touched.log }

def scopeStep (k : KeyRuntime) (h : ScopeHost) : ScopeHostEvent → Option ScopeHost
  | .write sessions => some { h with sessions }
  | .spawn session now stamp => some (h.ensureStateScope k session now stamp)
  | .sweep call => some (h.sweepExpiredScopes k call).1
  | .restart => some { h with auditedPendingDelete := [] }

/-! ### What a delete needs -/

inductive ScopeMark where
  | used | audited | removed
  deriving DecidableEq, Repr

/-- What an entry says about a scope; a delete that fails says nothing. -/
def ScopeEntry.mark (s : ScopeId) : ScopeEntry → Option ScopeMark
  | .access s' => if s' = s then some .used else none
  | .audit s' => if s' = s then some .audited else none
  | .attempt a => if a.scope = s ∧ a.removed = true then some .removed else none

/-- The last of it. -/
def lastMark (log : List ScopeEntry) (s : ScopeId) : Option ScopeMark := log.findSome? (ScopeEntry.mark s)

/-- A delete that destroys nothing live and nothing unrecorded: a row was written since the scope was last
used and since it was last removed, so that the row is for this expiry and for no other. -/
structure ExpiryAttempt.Justified (k : KeyRuntime) (older : List ScopeEntry) (a : ExpiryAttempt) : Prop where
  idle : ∀ r ∈ a.sessions.rows, r.status = .active → resolveStateScope k r.toSession ≠ .user a.scope
  outside : ∃ accessed, a.lastAccess = some accessed ∧ accessed + dayMs * a.days ≤ a.now
  recorded : lastMark older a.scope = some .audited

def NoUnrecordedExpiry (k : KeyRuntime) (log : List ScopeEntry) : Prop :=
  ∀ newer a older, log = newer ++ .attempt a :: older → a.Justified k older

/-- The sweep is to delete the scope. -/
structure ScopeHost.Expires (h : ScopeHost) (index : ScopeIndex) (call : SweepCall) (s : ScopeId) : Prop where
  idle : s ∉ index.live
  real : call.preview = false
  outside : ∃ accessed, h.lastAccess index s = some accessed ∧ accessed + dayMs * call.days ≤ call.now

/-- No scope that a sweep is to delete, and that waits for its delete from an earlier sweep, was used in
between. -/
def UnusedSinceRow (k : KeyRuntime) (h : ScopeHost) : ScopeHostEvent → Prop
  | .sweep call => call.days ≠ 0 → call.listRoot = true → ∀ s ∈ h.listed call,
      h.Expires (indexScopes k h.sessions) call s → s ∈ h.auditedPendingDelete → lastMark h.log s ≠ some .used
  | _ => True

/-- A scope that waits for its delete has a row, and at most uses after it. -/
def WaitsWithRow (h : ScopeHost) : Prop :=
  ∀ s ∈ h.auditedPendingDelete, lastMark h.log s = some .audited ∨ lastMark h.log s = some .used

variable {k : KeyRuntime} {index : ScopeIndex} {call : SweepCall} {h h' : ScopeHost} {s s' : ScopeId}

/-! ### One scope -/

theorem lastMark_cons {e : ScopeEntry} {log : List ScopeEntry} :
    lastMark (e :: log) s = (e.mark s).or (lastMark log s) := by
  unfold lastMark
  rw [List.findSome?_cons]
  cases e.mark s <;> rfl

theorem mem_live {sessions : SessionTable} : s ∈ (indexScopes k sessions).live ↔
    ∃ r ∈ sessions.rows, r.status = .active ∧ resolveStateScope k r.toSession = .user s := by
  simp only [indexScopes, List.mem_filterMap, List.mem_filter, decide_eq_true_eq]
  constructor
  · rintro ⟨r, ⟨hr, hactive⟩, hs⟩
    refine ⟨r, hr, hactive, ?_⟩
    split at hs
    · rename_i heq
      rw [heq, Option.some.inj hs]
    · cases hs
  · rintro ⟨r, hr, hactive, heq⟩
    exact ⟨r, ⟨hr, hactive⟩, by rw [heq]⟩

/-- The host after `h`, as far as `s` goes. -/
structure SameScope (s : ScopeId) (h h' : ScopeHost) : Prop where
  sessions : h'.sessions = h.sessions
  marker : h'.markerMs s = h.markerMs s
  waits : s ∈ h'.auditedPendingDelete ↔ s ∈ h.auditedPendingDelete
  mark : lastMark h'.log s = lastMark h.log s

theorem SameScope.refl : SameScope s h h := ⟨rfl, rfl, Iff.rfl, rfl⟩

theorem SameScope.trans {h'' : ScopeHost} (h₁ : SameScope s h h') (h₂ : SameScope s h' h'') : SameScope s h h'' :=
  ⟨h₂.sessions.trans h₁.sessions, h₂.marker.trans h₁.marker, h₂.waits.trans h₁.waits, h₂.mark.trans h₁.mark⟩

theorem SameScope.expires (h₁ : SameScope s h h') : h'.Expires index call s ↔ h.Expires index call s := by
  have hlast : h'.lastAccess index s = h.lastAccess index s := by
    rw [ScopeHost.lastAccess, h₁.marker]
    rfl
  constructor
  · intro he
    exact ⟨he.idle, he.real, hlast ▸ he.outside⟩
  · intro he
    exact ⟨he.idle, he.real, hlast ▸ he.outside⟩

theorem sameScope_setMarker {marker : Option ℕ} (hne : s' ≠ s) : SameScope s' h (h.setMarker s marker) := by
  refine ⟨rfl, ?_, Iff.rfl, rfl⟩
  unfold ScopeHost.markerMs ScopeHost.setMarker
  rw [Table.find_update (ScopeDir.withMarker_id marker), if_neg hne]

/-- A stamp of one scope: nothing is written down, and the others stay. -/
structure OnlyStamped (s : ScopeId) (h h' : ScopeHost) : Prop where
  log : h'.log = h.log
  waiting : h'.auditedPendingDelete = h.auditedPendingDelete
  sessions : h'.sessions = h.sessions
  others : ∀ s', s' ≠ s → SameScope s' h h'

theorem onlyStamped_refl : OnlyStamped s h h := ⟨rfl, rfl, rfl, fun _ _ => .refl⟩

theorem onlyStamped_setMarker {marker : Option ℕ} : OnlyStamped s h (h.setMarker s marker) :=
  ⟨rfl, rfl, rfl, fun _ hne => sameScope_setMarker hne⟩

theorem onlyStamped_touch {atMs : Option ℕ} {now : ℕ} {io : StampIo} :
    OnlyStamped s h (h.touchScopeAccess s atMs now io).1 := by
  unfold ScopeHost.touchScopeAccess
  by_cases hwrite : io.write = true
  · cases atMs with
    | none =>
      simp only [hwrite, Bool.not_true, Bool.false_eq_true, if_false]
      exact onlyStamped_setMarker
    | some ms =>
      by_cases hutimes : io.utimes = true
      · simp only [hwrite, hutimes, Bool.not_true, Bool.false_eq_true, if_false, if_true]
        exact onlyStamped_setMarker
      · simp only [hwrite, hutimes, Bool.not_true, Bool.false_eq_true, if_false]
        exact onlyStamped_setMarker
  · simp only [hwrite, Bool.not_false, if_true]
    exact onlyStamped_refl

theorem onlyStamped_adopt {accessed : ℕ} : OnlyStamped s h (h.adopt call s accessed).1 := by
  unfold ScopeHost.adopt
  split
  · exact onlyStamped_refl
  · exact onlyStamped_touch

theorem rmScope_spec (a : ExpiryAttempt) (r : RmResult) :
    (h.rmScope a r).1.log = .attempt { a with removed := decide (r = .removed) } :: h.log ∧
      (∀ s' ∈ (h.rmScope a r).1.auditedPendingDelete,
        s' ∈ h.auditedPendingDelete ∧ (s' = a.scope → r ≠ .removed)) ∧
      (h.rmScope a r).1.sessions = h.sessions ∧ ∀ s', s' ≠ a.scope → SameScope s' h (h.rmScope a r).1 := by
  cases r with
  | removed =>
    refine ⟨rfl, fun s' hs' => ?_, rfl, fun s' hne => ⟨rfl, ?_, ?_, ?_⟩⟩
    · obtain ⟨hmem, hs⟩ := List.mem_filter.mp hs'
      exact ⟨hmem, fun he => absurd he (of_decide_eq_true hs)⟩
    · unfold ScopeHost.markerMs ScopeHost.rmScope
      rw [Table.find_delete, if_neg hne]
    · simp [ScopeHost.rmScope, hne]
    · simp [ScopeHost.rmScope, lastMark_cons, ScopeEntry.mark, Ne.symm hne]
  | failed markerKept =>
    have hrest : OnlyStamped a.scope h (if markerKept then h else h.setMarker a.scope none) := by
      split
      · exact onlyStamped_refl
      · exact onlyStamped_setMarker
    refine ⟨?_, fun s' hs' => ⟨hrest.waiting ▸ hs', fun _ => RmResult.noConfusion⟩, hrest.sessions, fun s' hne => ?_⟩
    · exact congrArg (ScopeEntry.attempt _ :: ·) hrest.log
    · refine (hrest.others s' hne).trans ⟨rfl, rfl, Iff.rfl, ?_⟩
      simp [ScopeHost.rmScope, lastMark_cons, ScopeEntry.mark]

/-- **One scope.** It is not deleted and at most stamped; or it is deleted, after a row unless it waits. -/
theorem visit_cases (hdays : call.days ≠ 0) :
    (OnlyStamped s h (h.visit index call s).1 ∧ (h.Expires index call s → s ∉ h.auditedPendingDelete)) ∨
    (h.Expires index call s ∧ ∃ stamped, OnlyStamped s h stamped ∧
      ((s ∈ h.auditedPendingDelete ∧
          (h.visit index call s).1 = (stamped.rmScope (h.attempt index call s) (call.rm s)).1) ∨
        (s ∉ h.auditedPendingDelete ∧ (h.visit index call s).1 =
          ((stamped.recordExpiry s).rmScope (h.attempt index call s) (call.rm s)).1))) := by
  unfold ScopeHost.visit
  by_cases hlive : s ∈ index.live
  · rw [if_pos hlive]
    exact .inl ⟨onlyStamped_refl, fun he => absurd hlive he.idle⟩
  · rw [if_neg hlive]
    dsimp only
    generalize haccessed : (h.lastAccess index s).getD call.now = accessed
    have hstamped : OnlyStamped s h (h.adopt call s accessed).1 := onlyStamped_adopt
    by_cases hfresh : call.now < accessed + dayMs * call.days
    · rw [if_pos hfresh]
      refine .inl ⟨hstamped, fun he => ?_⟩
      obtain ⟨a, ha, hold⟩ := he.outside
      have hsame : accessed = a := by rw [← haccessed, ha, Option.getD_some]
      rw [hsame] at hfresh
      exact absurd hfresh (Nat.not_lt.mpr hold)
    · rw [if_neg hfresh]
      by_cases hpreview : call.preview = true
      · rw [if_pos hpreview]
        refine .inl ⟨hstamped, fun he => ?_⟩
        rw [he.real] at hpreview
        cases hpreview
      · have hexpires : h.Expires index call s := by
          refine ⟨hlive, by simpa using hpreview, ?_⟩
          cases hlast : h.lastAccess index s with
          | none =>
            -- without evidence the scope counts as used now
            have hnow : accessed = call.now := by rw [← haccessed, hlast, Option.getD_none]
            have hday : 0 < dayMs := by simp [dayMs]
            have hwindow : 0 < dayMs * call.days := Nat.mul_pos hday (Nat.pos_of_ne_zero hdays)
            rw [hnow] at hfresh
            exact absurd (Nat.lt_add_of_pos_right hwindow) hfresh
          | some a =>
            have hsame : accessed = a := by rw [← haccessed, hlast, Option.getD_some]
            rw [hsame] at hfresh
            exact ⟨a, rfl, Nat.not_lt.mp hfresh⟩
        rw [if_neg hpreview, hstamped.waiting]
        by_cases hwaits : s ∈ h.auditedPendingDelete
        · rw [if_pos hwaits]
          exact .inr ⟨hexpires, _, hstamped, .inl ⟨hwaits, rfl⟩⟩
        · rw [if_neg hwaits]
          by_cases haudit : call.audit s = true
          · rw [if_pos haudit]
            exact .inr ⟨hexpires, _, hstamped, .inr ⟨hwaits, rfl⟩⟩
          · rw [if_neg haudit]
            exact .inl ⟨hstamped, fun _ => hwaits⟩

theorem sameScope_visit (hdays : call.days ≠ 0) (hne : s' ≠ s) : SameScope s' h (h.visit index call s).1 := by
  rcases @visit_cases index call h s hdays with ⟨hstamped, -⟩ |
    ⟨-, stamped, hstamped, ⟨-, hvisit⟩ | ⟨-, hvisit⟩⟩
  · exact hstamped.others s' hne
  · rw [hvisit]
    exact (hstamped.others s' hne).trans ((rmScope_spec _ _).2.2.2 s' hne)
  · have hrecord : SameScope s' stamped (stamped.recordExpiry s) := by
      refine ⟨rfl, rfl, ?_, ?_⟩
      · simp [ScopeHost.recordExpiry, hne]
      · simp [ScopeHost.recordExpiry, lastMark_cons, ScopeEntry.mark, Ne.symm hne]
    rw [hvisit]
    exact ((hstamped.others s' hne).trans hrecord).trans ((rmScope_spec _ _).2.2.2 s' hne)

theorem waitsWithRow_visit (hdays : call.days ≠ 0) (hw : WaitsWithRow h) : WaitsWithRow (h.visit index call s).1 := by
  intro s' hs'
  by_cases hne : s' ≠ s
  · have hsame := @sameScope_visit index call h s s' hdays hne
    rw [hsame.mark]
    exact hw s' (hsame.waits.mp hs')
  · obtain rfl : s' = s := not_not.mp hne
    rcases @visit_cases index call h s' hdays with ⟨hstamped, -⟩ |
      ⟨-, stamped, hstamped, ⟨hwaits, hvisit⟩ | ⟨-, hvisit⟩⟩
    · rw [hstamped.log]
      exact hw s' (hstamped.waiting ▸ hs')
    · rw [hvisit] at hs' ⊢
      obtain ⟨hlog, hset, -, -⟩ := rmScope_spec (h := stamped) (h.attempt index call s') (call.rm s')
      have hfailed : call.rm s' ≠ .removed := (hset s' hs').2 rfl
      rw [hlog, lastMark_cons, hstamped.log]
      simpa [ScopeEntry.mark, hfailed] using hw s' hwaits
    · rw [hvisit] at hs' ⊢
      obtain ⟨hlog, hset, -, -⟩ :=
        rmScope_spec (h := stamped.recordExpiry s') (h.attempt index call s') (call.rm s')
      have hfailed : call.rm s' ≠ .removed := (hset s' hs').2 rfl
      rw [hlog, lastMark_cons]
      left
      simp [ScopeEntry.mark, hfailed, ScopeHost.recordExpiry, lastMark_cons]

theorem noUnrecordedExpiry_cons {e : ScopeEntry} {log : List ScopeEntry} :
    NoUnrecordedExpiry k (e :: log) ↔ (∀ a, e = .attempt a → a.Justified k log) ∧ NoUnrecordedExpiry k log := by
  constructor
  · intro h
    refine ⟨fun a ha => h [] a log (by rw [ha]; rfl), fun newer a older he => ?_⟩
    exact h (e :: newer) a older (by rw [he]; rfl)
  · rintro ⟨hhead, hrest⟩ newer a older he
    cases newer with
    | nil =>
      obtain ⟨rfl, rfl⟩ := List.cons.inj he
      exact hhead a rfl
    | cons e' newer => exact hrest newer a older (List.cons.inj he).2

theorem justified_iff (he : h.Expires (indexScopes k h.sessions) call s) {removed : Bool} {older : List ScopeEntry} :
    ({ h.attempt (indexScopes k h.sessions) call s with removed := removed } : ExpiryAttempt).Justified k older ↔
      lastMark older s = some .audited := by
  constructor
  · exact fun hj => hj.recorded
  · intro hrow
    refine ⟨fun r hr hactive hs => he.idle (mem_live.mpr ⟨r, hr, hactive, hs⟩), he.outside, hrow⟩

/-- **One scope is deleted on the strength of its row**, unless it waited and was used since. -/
theorem noUnrecordedExpiry_visit (hdays : call.days ≠ 0) (hw : WaitsWithRow h)
    (hindex : index = indexScopes k h.sessions) :
    NoUnrecordedExpiry k (h.visit index call s).1.log ↔ NoUnrecordedExpiry k h.log ∧
      (h.Expires index call s → s ∈ h.auditedPendingDelete → lastMark h.log s ≠ some .used) := by
  subst hindex
  rcases @visit_cases (indexScopes k h.sessions) call h s hdays with ⟨hstamped, hnew⟩ |
    ⟨he, stamped, hstamped, ⟨hwaits, hvisit⟩ | ⟨hwaits, hvisit⟩⟩
  · rw [hstamped.log]
    exact ⟨fun h => ⟨h, fun he hwaits => absurd hwaits (hnew he)⟩, fun h => h.1⟩
  · have hrow : lastMark h.log s = some .audited ↔ lastMark h.log s ≠ some .used := by
      rcases hw s hwaits with h₁ | h₁ <;> simp [h₁]
    obtain ⟨hlog, -, -, -⟩ :=
      rmScope_spec (h := stamped) (h.attempt (indexScopes k h.sessions) call s) (call.rm s)
    rw [hvisit, hlog, hstamped.log, noUnrecordedExpiry_cons]
    simp only [ScopeEntry.attempt.injEq, forall_eq', justified_iff he, hrow, he, hwaits, forall_const]
    exact And.comm
  · obtain ⟨hlog, -, -, -⟩ :=
      rmScope_spec (h := stamped.recordExpiry s) (h.attempt (indexScopes k h.sessions) call s) (call.rm s)
    have hlast : lastMark (.audit s :: h.log) s = some .audited := by simp [lastMark_cons, ScopeEntry.mark]
    have hrecorded : (stamped.recordExpiry s).log = .audit s :: h.log := by
      rw [ScopeHost.recordExpiry, hstamped.log]
    rw [hvisit, hlog, hrecorded, noUnrecordedExpiry_cons, noUnrecordedExpiry_cons]
    simp [justified_iff he, hlast, hwaits]

/-! ### A sweep -/

theorem sessions_visit (hdays : call.days ≠ 0) : (h.visit index call s).1.sessions = h.sessions := by
  rcases @visit_cases index call h s hdays with ⟨hstamped, -⟩ |
    ⟨-, stamped, hstamped, ⟨-, hvisit⟩ | ⟨-, hvisit⟩⟩
  · exact hstamped.sessions
  · rw [hvisit, (rmScope_spec _ _).2.2.1, hstamped.sessions]
  · rw [hvisit, (rmScope_spec _ _).2.2.1]
    exact hstamped.sessions

theorem waitsWithRow_visits (hdays : call.days ≠ 0) (scopes : List ScopeId) :
    ∀ {h : ScopeHost}, WaitsWithRow h → WaitsWithRow (h.visits index call scopes).1 := by
  induction scopes with
  | nil => exact fun hw => hw
  | cons s scopes ih => exact fun hw => ih (waitsWithRow_visit hdays hw)

theorem noUnrecordedExpiry_visits (hdays : call.days ≠ 0) {scopes : List ScopeId} (hnd : scopes.Nodup)
    (hw : WaitsWithRow h) (hindex : index = indexScopes k h.sessions) :
    NoUnrecordedExpiry k (h.visits index call scopes).1.log ↔ NoUnrecordedExpiry k h.log ∧
      ∀ s ∈ scopes, h.Expires index call s → s ∈ h.auditedPendingDelete → lastMark h.log s ≠ some .used := by
  induction scopes generalizing h with
  | nil => simp [ScopeHost.visits]
  | cons s scopes ih =>
    obtain ⟨hs, hrest⟩ := List.nodup_cons.mp hnd
    have hfirst := noUnrecordedExpiry_visit (s := s) hdays hw hindex
    have hsame : ∀ s' ∈ scopes, SameScope s' h (h.visit index call s).1 := by
      intro s' hs'
      refine sameScope_visit hdays ?_
      rintro rfl
      exact hs hs'
    have hnext := ih hrest (@waitsWithRow_visit index call h s hdays hw) (by rw [sessions_visit hdays, hindex])
    have hlater : (∀ s' ∈ scopes, (h.visit index call s).1.Expires index call s' →
        s' ∈ (h.visit index call s).1.auditedPendingDelete →
          lastMark (h.visit index call s).1.log s' ≠ some .used) ↔
        ∀ s' ∈ scopes, h.Expires index call s' → s' ∈ h.auditedPendingDelete → lastMark h.log s' ≠ some .used := by
      refine forall_congr' fun s' => forall_congr' fun hs' => ?_
      rw [(hsame s' hs').expires, (hsame s' hs').waits, (hsame s' hs').mark]
    show NoUnrecordedExpiry k ((h.visit index call s).1.visits index call scopes).1.log ↔ _
    rw [hnext, hfirst, hlater, List.forall_mem_cons, and_assoc]

theorem nodup_listed : (h.listed call).Nodup := h.ids.filter _

/-! ### Runs -/

theorem ensureStateScope_spec (session : Session) (now : ℕ) (stamp : StampIo) :
    (h.ensureStateScope k session now stamp).auditedPendingDelete = h.auditedPendingDelete ∧
      ((h.ensureStateScope k session now stamp).log = h.log ∨
        ∃ s, (h.ensureStateScope k session now stamp).log = .access s :: h.log) := by
  unfold ScopeHost.ensureStateScope
  cases resolveStateScope k session with
  | group => exact ⟨rfl, .inl rfl⟩
  | user s =>
    let made : ScopeHost :=
      { h with
        scopes := Table.upsert (·.id) h.scopes ⟨s, none⟩ id
        ids := Table.nodup_upsert (fun _ => rfl) h.ids _ }
    have hstamped : OnlyStamped s made (made.touchScopeAccess s none now stamp).1 := onlyStamped_touch
    exact ⟨hstamped.waiting, .inr ⟨s, congrArg (ScopeEntry.access s :: ·) hstamped.log⟩⟩

theorem waitsWithRow_step {e : ScopeHostEvent} (hw : WaitsWithRow h) (hstep : scopeStep k h e = some h') :
    WaitsWithRow h' := by
  cases e with
  | write sessions =>
    obtain rfl := Option.some.inj hstep
    exact hw
  | spawn session now stamp =>
    obtain rfl := Option.some.inj hstep
    obtain ⟨hset, hlog | ⟨s, hlog⟩⟩ := ensureStateScope_spec (h := h) (k := k) session now stamp
    · intro s' hs'
      rw [hlog]
      exact hw s' (hset ▸ hs')
    · intro s' hs'
      rw [hlog, lastMark_cons]
      by_cases hs : s = s'
      · simp [ScopeEntry.mark, hs]
      · simpa [ScopeEntry.mark, hs] using hw s' (hset ▸ hs')
  | sweep call =>
    obtain rfl := Option.some.inj hstep
    unfold ScopeHost.sweepExpiredScopes
    split
    · exact hw
    · rename_i hoff
      simp only [Bool.or_eq_true, decide_eq_true_eq, not_or] at hoff
      exact waitsWithRow_visits hoff.1 _ hw
  | restart =>
    obtain rfl := Option.some.inj hstep
    exact fun s' hs' => absurd hs' List.not_mem_nil

theorem noUnrecordedExpiry_sweep (hw : WaitsWithRow h) :
    NoUnrecordedExpiry k (h.sweepExpiredScopes k call).1.log ↔
      NoUnrecordedExpiry k h.log ∧ UnusedSinceRow k h (.sweep call) := by
  unfold ScopeHost.sweepExpiredScopes UnusedSinceRow
  by_cases hdays : call.days = 0
  · simp [hdays]
  · by_cases hroot : call.listRoot = true
    · simp only [hdays, hroot, decide_false, Bool.not_true, Bool.or_self, Bool.false_eq_true, if_false, ne_eq,
        not_false_eq_true, forall_const]
      exact noUnrecordedExpiry_visits hdays nodup_listed hw rfl
    · simp [hroot]

theorem noUnrecordedExpiry_step {e : ScopeHostEvent} (hw : WaitsWithRow h) (hp : NoUnrecordedExpiry k h.log)
    (hstep : scopeStep k h e = some h') : NoUnrecordedExpiry k h'.log ↔ UnusedSinceRow k h e := by
  cases e with
  | write sessions =>
    obtain rfl := Option.some.inj hstep
    exact iff_of_true hp trivial
  | spawn session now stamp =>
    obtain rfl := Option.some.inj hstep
    refine iff_of_true ?_ trivial
    obtain ⟨-, hlog | ⟨s, hlog⟩⟩ := ensureStateScope_spec (h := h) (k := k) session now stamp
    · rw [hlog]
      exact hp
    · rw [hlog, noUnrecordedExpiry_cons]
      exact ⟨fun a ha => ScopeEntry.noConfusion ha, hp⟩
  | sweep call =>
    obtain rfl := Option.some.inj hstep
    rw [noUnrecordedExpiry_sweep hw]
    exact and_iff_right hp
  | restart =>
    obtain rfl := Option.some.inj hstep
    exact iff_of_true hp trivial

/-- **When nothing is destroyed unrecorded.** In every run of a host that has just started. -/
theorem expiry_recorded_iff {es : List ScopeHostEvent} (hset : h.auditedPendingDelete = []) (hlog : h.log = [])
    (hrun : Trans.run (scopeStep k) h es = some h') :
    Trans.Always (scopeStep k) (fun h => NoUnrecordedExpiry k h.log) h es ↔
      Trans.Along (scopeStep k) (UnusedSinceRow k) h es := by
  have hwaits : WaitsWithRow h := by
    intro s hs
    rw [hset] at hs
    exact absurd hs List.not_mem_nil
  have hnone : NoUnrecordedExpiry k h.log := by
    intro newer a older he
    rw [hlog] at he
    exact absurd he.symm (by simp)
  exact Trans.always_iff_along (I := WaitsWithRow) (fun _ _ _ hw hs => waitsWithRow_step hw hs)
    (fun _ _ _ hw hp hs => noUnrecordedExpiry_step hw hp hs) hwaits hnone hrun

/-! ### A person who comes back -/

def sampleRuntime : KeyRuntime := ⟨id, fun _ => "0123456789abcdef"⟩

def ownedSession (status : SessionStatus) (lastActive : ℕ) : SessionRow :=
  { id := "s", agentGroupId := "ag", messagingGroupId := none, threadId := none, ownerUserId := some "u"
    rootSessionId := none, conversationThreadId := none, status, spawnDepth := 0, createdAt := 0
    containerStatus := .stopped, lastActive := some lastActive, archivedAt := none }

/-- The scope was last used at the beginning, and its session is archived. -/
def leftHost : ScopeHost :=
  { sessions := ⟨[ownedSession .archived 0], by simp⟩, scopes := [⟨⟨"ag", "u-u-01234567"⟩, some 0⟩], ids := by simp
    auditedPendingDelete := [], log := [] }

/-- A sweep with a window of thirty days. -/
def sweepAt (day : ℕ) (rm : RmResult) : SweepCall :=
  { days := 30, preview := false, now := day * dayMs, listRoot := true, listScopes := fun _ => true
    stamp := fun _ => ⟨true, true⟩, audit := fun _ => true, rm := fun _ => rm }

/-- The delete fails, and succeeds a day later. -/
def retriedDelete : List ScopeHostEvent := [.sweep (sweepAt 31 (.failed true)), .sweep (sweepAt 32 .removed)]

theorem expiry_recorded_iff_sample : ∃ h, Trans.run (scopeStep sampleRuntime) leftHost retriedDelete = some h ∧
    h.scopes = [] ∧ Trans.Always (scopeStep sampleRuntime) (fun h => NoUnrecordedExpiry sampleRuntime h.log)
      leftHost retriedDelete := by
  have hfirst : UnusedSinceRow sampleRuntime leftHost (.sweep (sweepAt 31 (.failed true))) :=
    fun _ _ s _ _ hwaits => absurd hwaits List.not_mem_nil
  refine ⟨_, rfl, by rfl, (expiry_recorded_iff rfl rfl rfl).mpr ⟨hfirst, fun h₁ hstep => ⟨?_, fun _ _ => trivial⟩⟩⟩
  obtain rfl := Option.some.inj hstep
  intro _ _ s hs _ _
  have hlisted : s ∈ [(⟨"ag", "u-u-01234567"⟩ : ScopeId)] := hs
  obtain rfl := List.mem_singleton.mp hlisted
  decide +kernel

/-- The delete fails; the person comes back, and leaves for a second time. -/
def returned : List ScopeHostEvent :=
  [.sweep (sweepAt 31 (.failed true)), .write ⟨[ownedSession .active (32 * dayMs)], by simp⟩,
    .spawn (ownedSession .active (32 * dayMs)).toSession (32 * dayMs) ⟨true, true⟩,
    .write ⟨[ownedSession .archived (32 * dayMs)], by simp⟩, .sweep (sweepAt 70 .removed)]

/-- What was written since is deleted with the row of the first time. -/
theorem returned_scope_lost : ∃ h, Trans.run (scopeStep sampleRuntime) leftHost returned = some h ∧ h.scopes = [] ∧
    h.log.countP (fun e => e.mark ⟨"ag", "u-u-01234567"⟩ = some .audited) = 1 ∧
    ¬ NoUnrecordedExpiry sampleRuntime h.log ∧
    ¬ Trans.Always (scopeStep sampleRuntime) (fun h => NoUnrecordedExpiry sampleRuntime h.log) leftHost returned := by
  have hrun : Trans.run (scopeStep sampleRuntime) leftHost returned = some _ := rfl
  have hlost : ¬ NoUnrecordedExpiry sampleRuntime (Option.get _ (Option.isSome_of_eq_some hrun)).log := by
    intro hp
    have hused := (hp [] _ _ rfl).recorded
    revert hused
    decide +kernel
  exact ⟨_, hrun, by rfl, by rfl, hlost, fun halways => hlost (halways _ [] _ (List.append_nil _).symm hrun)⟩

end AgentDesk
