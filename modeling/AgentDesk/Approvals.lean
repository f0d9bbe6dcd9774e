/-
# One approval and its clicks

`src/modules/approvals/response-handler.ts`: a click on an approval card finds
the card's `pending_approvals` row and runs the handler registered for its
action, or records the rejection. The row is deleted last. On a rejection
nothing is awaited before that; on an approval the handler is (an image
rebuild takes minutes), and until it is done the row reads `pending` to every
other click.

* `double_click`: two approvals of one row start its handler twice.
* `approval_once_iff`: in every run of clicks, handlers that come back and
  expiry sweeps, the handler starts at most once, and not after a recorded
  rejection or expiry, exactly when no click that would start it finds the row
  pending while its handler is running, or after an earlier decision whose
  clean-up failed.

A click's decision is one synchronous block (`handleApprovalsResponse`), so it
is one step; the return of the awaited handler is another. Every write may
throw, and `dispatchResponse` swallows that.
-/
import AgentDesk.Sessions
import AgentDesk.Trans

namespace AgentDesk

open Js

/-! ### A click -/

inductive ApprovalStatus where
  | pending | approved | rejected | expired
  deriving DecidableEq, Repr

/-- A row of `pending_approvals`; `payload` is what its column parses to. The card's columns are left
out. -/
structure PendingApproval where
  approvalId : String
  sessionId : Option String
  action : String
  payload : Content
  createdAt : ℕ
  agentGroupId : Option String
  status : ApprovalStatus

def onecliAction : String := "onecli_credential"

/-- What a click reads: the table, the sessions, the actions with a registered handler, and the
OneCLI requests waiting in memory. -/
structure ApprovalReads where
  approvals : List PendingApproval
  sessions : List Session
  handlers : List String
  waiting : List String

def getPendingApproval (rows : List PendingApproval) (approvalId : String) : Option PendingApproval :=
  rows.find? fun a => a.approvalId = approvalId

/-- What a click turns out to be. -/
inductive ApprovalClick where
  /-- Some other module's card. -/
  | unclaimed
  /-- The waiting OneCLI request is answered. -/
  | credential (approve : Bool)
  /-- The row is not pending any more. -/
  | stale (approval : PendingApproval)
  /-- A OneCLI row nobody waits for, or a row whose session is gone. -/
  | drop (approval : PendingApproval)
  | reject (approval : PendingApproval)
  | noHandler (approval : PendingApproval)
  /-- `JSON.parse(approval.payload)` throws. -/
  | badPayload (approval : PendingApproval)
  | start (approval : PendingApproval)

/-- `handleRegisteredApproval` up to its first await, on a pending row. -/
def handleRegisteredApproval (env : ApprovalReads) (approval : PendingApproval) (value : String) :
    ApprovalClick :=
  if !truthy approval.sessionId then .drop approval
  else match getSession env.sessions (approval.sessionId.getD "") with
    | none => .drop approval
    | some _ =>
      if value ≠ "approve" then .reject approval
      else if approval.action ∉ env.handlers then .noHandler approval
      else if approval.payload.isNone then .badPayload approval
      else .start approval

def handleApprovalsResponse (env : ApprovalReads) (questionId value : String) : ApprovalClick :=
  if questionId ∈ env.waiting then .credential (value = "approve")
  else match getPendingApproval env.approvals questionId with
    | none => .unclaimed
    | some approval =>
      if approval.status ≠ .pending then .stale approval
      else if approval.action = onecliAction then .drop approval
      else handleRegisteredApproval env approval value

/-- The row, the value and the registry let a click start the handler. -/
structure Startable (env : ApprovalReads) (a : PendingApproval) (value : String) : Prop where
  value : value = "approve"
  pending : a.status = .pending
  notWaiting : a.approvalId ∉ env.waiting
  action : a.action ≠ onecliAction
  sessionId : truthy a.sessionId = true
  session : (getSession env.sessions (a.sessionId.getD "")).isSome = true
  handler : a.action ∈ env.handlers
  payload : a.payload.isSome = true

theorem handleRegisteredApproval_start {env : ApprovalReads} {a b : PendingApproval} {value : String} :
    handleRegisteredApproval env a value = .start b ↔
      a = b ∧ value = "approve" ∧ truthy a.sessionId = true ∧
        (getSession env.sessions (a.sessionId.getD "")).isSome = true ∧ a.action ∈ env.handlers ∧
        a.payload.isSome = true := by
  unfold handleRegisteredApproval
  by_cases hsid : truthy a.sessionId = true
  · rw [hsid, Bool.not_true, if_neg Bool.false_ne_true]
    cases hs : getSession env.sessions (a.sessionId.getD "") with
    | none => simp
    | some session =>
      by_cases hv : value = "approve"
      · by_cases hh : a.action ∈ env.handlers
        · cases hp : a.payload <;> simp [hv, hh]
        · simp [hv, hh]
      · simp [hv]
  · rw [Bool.not_eq_true] at hsid
    simp [hsid]

theorem handleApprovalsResponse_start {env : ApprovalReads} {questionId value : String} {a : PendingApproval} :
    handleApprovalsResponse env questionId value = .start a ↔
      getPendingApproval env.approvals questionId = some a ∧ Startable env a value := by
  unfold handleApprovalsResponse
  cases hget : getPendingApproval env.approvals questionId with
  | none =>
    by_cases hw : questionId ∈ env.waiting <;> simp [hw]
  | some b =>
    have hid : b.approvalId = questionId := by simpa using List.find?_some hget
    by_cases hw : questionId ∈ env.waiting
    · rw [if_pos hw]
      refine ⟨fun h => absurd h (by simp), fun ⟨hb, hs⟩ => ?_⟩
      obtain rfl := Option.some.inj hb
      exact absurd (hid ▸ hw) hs.notWaiting
    · rw [if_neg hw]
      dsimp only
      by_cases hst : b.status = .pending
      · by_cases hact : b.action = onecliAction
        · rw [if_neg (not_not.mpr hst), if_pos hact]
          refine ⟨fun h => absurd h (by simp), fun ⟨hb, hs⟩ => ?_⟩
          obtain rfl := Option.some.inj hb
          exact absurd hact hs.action
        · rw [if_neg (not_not.mpr hst), if_neg hact, handleRegisteredApproval_start]
          constructor
          · rintro ⟨rfl, hv, hsid, hs, hh, hp⟩
            exact ⟨rfl, hv, hst, hid ▸ hw, hact, hsid, hs, hh, hp⟩
          · rintro ⟨hb, hs⟩
            obtain rfl := Option.some.inj hb
            exact ⟨rfl, hs.value, hs.sessionId, hs.session, hs.handler, hs.payload⟩
      · rw [if_pos hst]
        refine ⟨fun h => absurd h (by simp), fun ⟨hb, hs⟩ => ?_⟩
        obtain rfl := Option.some.inj hb
        exact absurd hs.pending hst

theorem handleApprovalsResponse_credential {env : ApprovalReads} {questionId value : String} {approve : Bool}
    (h : handleApprovalsResponse env questionId value = .credential approve) :
    questionId ∈ env.waiting ∧ approve = decide (value = "approve") := by
  have hreg : ∀ a, handleRegisteredApproval env a value ≠ .credential approve := by
    intro a
    unfold handleRegisteredApproval
    split
    · simp
    · split
      · simp
      · split_ifs <;> simp
  unfold handleApprovalsResponse at h
  by_cases hw : questionId ∈ env.waiting
  · rw [if_pos hw] at h
    exact ⟨hw, (ApprovalClick.credential.inj h).symm⟩
  · rw [if_neg hw] at h
    split at h
    · exact absurd h (by simp)
    · split at h
      · exact absurd h (by simp)
      · split at h
        · exact absurd h (by simp)
        · exact absurd h (hreg _)

/-! ### Runs of one row -/

/-- Which writes after a decision go through. -/
structure Cleanup where
  notify : Bool
  audit : Bool
  delete : Bool
  deriving DecidableEq, Repr

/-- One row and its history: how many of its handlers are running, whether a decision was recorded
(or a handler finished) that left the row in place, how often the handler was started, whether a
rejection or an expiry is recorded, and whether the handler was started after that. -/
structure ApprovalRun where
  row : Option PendingApproval
  running : ℕ
  leftover : Bool
  starts : ℕ
  refused : Bool
  late : Bool

def ApprovalRun.init (a : PendingApproval) : ApprovalRun :=
  ⟨some a, 0, false, 0, a.status = .rejected || a.status = .expired, false⟩

inductive ApprovalEvent where
  /-- Somebody clicks a button of the row's card. -/
  | click (env : ApprovalReads) (value : String) (ok : Cleanup)
  /-- A started handler comes back, with or without an error. -/
  | settle (threw : Bool) (ok : Cleanup)
  /-- `expireStalePendingApprovals`. -/
  | expire (olderThanMs now : ℕ)

def ApprovalRun.dropIf (s : ApprovalRun) (gone : Bool) : ApprovalRun :=
  if gone then { s with row := none } else s

/-- A click on row `a`. -/
def ApprovalRun.click (s : ApprovalRun) (a : PendingApproval) (env : ApprovalReads) (value : String)
    (ok : Cleanup) : ApprovalRun :=
  match handleApprovalsResponse { env with approvals := [a] } a.approvalId value with
  | .unclaimed | .badPayload _ => s
  | .credential approve =>
    { s with
      row := some { a with status := if approve then .approved else .rejected }
      refused := s.refused || !approve }.dropIf (ok.audit && ok.delete)
  | .stale _ => s.dropIf (ok.audit && ok.delete)
  | .drop _ => s.dropIf ok.delete
  | .reject _ =>
    -- a rejection is on record once it is audited
    if ok.notify && ok.audit then
      { s with refused := true, leftover := s.leftover || !ok.delete }.dropIf ok.delete
    else s
  | .noHandler _ => s.dropIf (ok.notify && ok.audit && ok.delete)
  | .start _ => { s with starts := s.starts + 1, running := s.running + 1, late := s.late || s.refused }

/-- A handler comes back: a failure is reported to the agent, the decision audited, the row deleted. -/
def ApprovalRun.settle (s : ApprovalRun) (threw : Bool) (ok : Cleanup) : ApprovalRun :=
  let done := (!threw || ok.notify) && ok.audit && ok.delete
  { s with running := s.running - 1, leftover := s.leftover || !done }.dropIf done

def ApprovalRun.expire (s : ApprovalRun) (a : PendingApproval) (olderThanMs now : ℕ) : ApprovalRun :=
  if a.status = .pending && a.createdAt + olderThanMs < now then
    { s with row := some { a with status := .expired }, refused := true }
  else s

def approvalStep (s : ApprovalRun) : ApprovalEvent → Option ApprovalRun
  | .click env value ok => some (match s.row with
    | some a => s.click a env value ok
    | none => s)
  | .settle threw ok => if s.running = 0 then none else some (s.settle threw ok)
  | .expire olderThanMs now => some (match s.row with
    | some a => s.expire a olderThanMs now
    | none => s)

/-- The handler was started at most once, and never after a recorded rejection or expiry. -/
def AppliedOnce (s : ApprovalRun) : Prop := s.starts ≤ 1 ∧ s.late = false

/-- A click that can start the handler does not come while the handler is running, nor after a
decision that left the row in place. -/
def NotInWindow (s : ApprovalRun) : ApprovalEvent → Prop
  | .click env value _ => ∀ a, s.row = some a → Startable env a value → s.running = 0 ∧ s.leftover = false
  | _ => True

/-- A pending row that was decided once is being handled, or was left behind. -/
structure ApprovalInv (s : ApprovalRun) : Prop where
  running : 0 < s.running → 0 < s.starts
  left : s.leftover = true → 0 < s.starts ∨ s.refused = true
  decided : ∀ a, s.row = some a → a.status = .pending → 0 < s.starts ∨ s.refused = true →
    0 < s.running ∨ s.leftover = true

theorem approvalInv_init (a : PendingApproval) : ApprovalInv (.init a) := by
  refine ⟨fun h => absurd h (lt_irrefl 0), fun h => absurd h (by simp [ApprovalRun.init]), fun b hb hst h => ?_⟩
  obtain rfl := Option.some.inj hb
  simp [ApprovalRun.init, hst] at h

theorem ApprovalInv.dropIf {s : ApprovalRun} (h : ApprovalInv s) (gone : Bool) : ApprovalInv (s.dropIf gone) := by
  unfold ApprovalRun.dropIf
  split
  · exact ⟨h.running, h.left, fun a ha => absurd ha (by simp)⟩
  · exact h

theorem ApprovalRun.click_cases (s : ApprovalRun) (a : PendingApproval) (env : ApprovalReads) (value : String)
    (ok : Cleanup) :
    (¬ Startable env a value ∧
      ((∃ gone, s.click a env value ok = s.dropIf gone) ∨
       (∃ (approve : Bool) (gone : Bool), s.click a env value ok =
          { s with
            row := some { a with status := if approve then .approved else .rejected }
            refused := s.refused || !approve }.dropIf gone) ∨
       (∃ gone, s.click a env value ok =
          { s with refused := true, leftover := s.leftover || !gone }.dropIf gone))) ∨
    (Startable env a value ∧
      s.click a env value ok =
        { s with starts := s.starts + 1, running := s.running + 1, late := s.late || s.refused }) := by
  have hfind : getPendingApproval [a] a.approvalId = some a := by simp [getPendingApproval]
  have hiff : ∀ b, handleApprovalsResponse { env with approvals := [a] } a.approvalId value = .start b ↔
      a = b ∧ Startable env b value := by
    intro b
    rw [handleApprovalsResponse_start]
    simp only [hfind, Option.some.injEq]
    exact and_congr_right fun _ =>
      ⟨fun h => ⟨h.1, h.2, h.3, h.4, h.5, h.6, h.7, h.8⟩, fun h => ⟨h.1, h.2, h.3, h.4, h.5, h.6, h.7, h.8⟩⟩
  by_cases hstart : Startable env a value
  · right
    refine ⟨hstart, ?_⟩
    unfold ApprovalRun.click
    rw [(hiff a).mpr ⟨rfl, hstart⟩]
  · left
    refine ⟨hstart, ?_⟩
    unfold ApprovalRun.click
    cases hc : handleApprovalsResponse { env with approvals := [a] } a.approvalId value with
    | unclaimed => exact .inl ⟨false, rfl⟩
    | credential approve => exact .inr (.inl ⟨approve, _, rfl⟩)
    | stale b => exact .inl ⟨_, rfl⟩
    | drop b => exact .inl ⟨_, rfl⟩
    | reject b =>
      dsimp only
      by_cases hrec : (ok.notify && ok.audit) = true
      · rw [if_pos hrec]
        exact .inr (.inr ⟨_, rfl⟩)
      · rw [if_neg hrec]
        exact .inl ⟨false, rfl⟩
    | noHandler b => exact .inl ⟨_, rfl⟩
    | badPayload b => exact .inl ⟨false, rfl⟩
    | start b =>
      obtain ⟨rfl, hs⟩ := (hiff b).mp hc
      exact absurd hs hstart

theorem approvalInv_click {s : ApprovalRun} (h : ApprovalInv s) (a : PendingApproval)
    (env : ApprovalReads) (value : String) (ok : Cleanup) : ApprovalInv (s.click a env value ok) := by
  rcases s.click_cases a env value ok with
    ⟨-, ⟨gone, heq⟩ | ⟨approve, gone, heq⟩ | ⟨gone, heq⟩⟩ | ⟨-, heq⟩
  · rw [heq]
    exact h.dropIf gone
  · rw [heq]
    have hanswered : ApprovalInv { s with
        row := some { a with status := if approve then .approved else .rejected }
        refused := s.refused || !approve } := by
      refine ⟨h.running, fun hl => ?_, fun b hb hst => ?_⟩
      · rcases h.left hl with hs | hr
        · exact .inl hs
        · exact .inr (by simp [hr])
      · -- an answered row is not pending
        obtain rfl := Option.some.inj hb
        cases approve <;> simp at hst
    exact hanswered.dropIf gone
  · rw [heq]
    cases gone with
    | true => exact ⟨h.running, fun _ => .inr rfl, fun b hb => absurd hb (by simp [ApprovalRun.dropIf])⟩
    | false => exact ⟨h.running, fun _ => .inr rfl, fun _ _ _ _ => .inr (Bool.or_true s.leftover)⟩
  · rw [heq]
    exact ⟨fun _ => Nat.succ_pos _, fun _ => .inl (Nat.succ_pos _), fun _ _ _ _ => .inl (Nat.succ_pos _)⟩

theorem approvalInv_settle {s : ApprovalRun} (h : ApprovalInv s) (hrun : s.running ≠ 0) (threw : Bool)
    (ok : Cleanup) : ApprovalInv (s.settle threw ok) := by
  have hstarts : 0 < s.starts := h.running (Nat.pos_of_ne_zero hrun)
  unfold ApprovalRun.settle
  dsimp only
  generalize hdone : ((!threw || ok.notify) && ok.audit && ok.delete) = done
  cases done with
  | true => exact ⟨fun _ => hstarts, fun _ => .inl hstarts, fun b hb => absurd hb (by simp [ApprovalRun.dropIf])⟩
  | false => exact ⟨fun _ => hstarts, fun _ => .inl hstarts, fun _ _ _ _ => .inr (Bool.or_true s.leftover)⟩

theorem approvalInv_expire {s : ApprovalRun} (h : ApprovalInv s) (a : PendingApproval) (olderThanMs now : ℕ) :
    ApprovalInv (s.expire a olderThanMs now) := by
  unfold ApprovalRun.expire
  split
  · refine ⟨h.running, fun _ => .inr rfl, fun b hb hst => ?_⟩
    obtain rfl := Option.some.inj hb
    cases hst
  · exact h

theorem approvalInv_step (s : ApprovalRun) (e : ApprovalEvent) (s' : ApprovalRun) (h : ApprovalInv s)
    (hs : approvalStep s e = some s') : ApprovalInv s' := by
  cases e with
  | click env value ok =>
    obtain rfl := Option.some.inj hs
    cases s.row with
    | none => exact h
    | some a => exact approvalInv_click h a env value ok
  | settle threw ok =>
    by_cases hrun : s.running = 0
    · simp [approvalStep, hrun] at hs
    · obtain rfl : s.settle threw ok = s' := by simpa [approvalStep, hrun] using hs
      exact approvalInv_settle h hrun threw ok
  | expire olderThanMs now =>
    obtain rfl := Option.some.inj hs
    cases s.row with
    | none => exact h
    | some a => exact approvalInv_expire h a olderThanMs now

theorem appliedOnce_congr {s s' : ApprovalRun} (hst : s'.starts = s.starts) (hl : s'.late = s.late) :
    AppliedOnce s' ↔ AppliedOnce s := by
  unfold AppliedOnce
  rw [hst, hl]

theorem ApprovalRun.dropIf_counters (s : ApprovalRun) (gone : Bool) :
    (s.dropIf gone).starts = s.starts ∧ (s.dropIf gone).late = s.late := by
  cases gone <;> exact ⟨rfl, rfl⟩

theorem notInWindow_click {s : ApprovalRun} (h : ApprovalInv s) (hone : AppliedOnce s) {a : PendingApproval}
    (hrow : s.row = some a) (env : ApprovalReads) (value : String) (ok : Cleanup) :
    AppliedOnce (s.click a env value ok) ↔ NotInWindow s (.click env value ok) := by
  rcases s.click_cases a env value ok with ⟨hnot, hcase⟩ | ⟨hstart, heq⟩
  · have hkept : (s.click a env value ok).starts = s.starts ∧ (s.click a env value ok).late = s.late := by
      rcases hcase with ⟨gone, heq⟩ | ⟨approve, gone, heq⟩ | ⟨gone, heq⟩ <;> rw [heq] <;>
        exact ApprovalRun.dropIf_counters _ gone
    rw [appliedOnce_congr hkept.1 hkept.2]
    refine ⟨fun _ b hb hs => absurd hs ?_, fun _ => hone⟩
    obtain rfl := Option.some.inj (hrow.symm.trans hb)
    exact hnot
  · rw [heq]
    have hdecided := h.decided a hrow hstart.pending
    constructor
    · rintro ⟨hstarts, hlate⟩ b hb -
      -- a first start that is not late has nothing decided before it
      have h0 : s.starts = 0 := by
        change s.starts + 1 ≤ 1 at hstarts
        omega
      have hr : s.refused = false := by
        change (s.late || s.refused) = false at hlate
        rw [Bool.or_eq_false_iff] at hlate
        exact hlate.2
      constructor
      · by_contra hne
        have := h.running (Nat.pos_of_ne_zero hne)
        omega
      · by_contra hl
        rw [Bool.not_eq_false] at hl
        rcases h.left hl with h1 | h1
        · omega
        · rw [hr] at h1
          cases h1
    · intro hwin
      obtain ⟨hrun, hleft⟩ := hwin a hrow hstart
      have hnone : ¬ (0 < s.starts ∨ s.refused = true) := by
        intro hd
        rcases hdecided hd with h1 | h1
        · omega
        · rw [hleft] at h1
          cases h1
      rw [not_or, Bool.not_eq_true] at hnone
      refine ⟨?_, ?_⟩
      · show s.starts + 1 ≤ 1
        omega
      · show (s.late || s.refused) = false
        rw [hone.2, hnone.2]
        rfl

theorem appliedOnce_step (s : ApprovalRun) (e : ApprovalEvent) (s' : ApprovalRun) (h : ApprovalInv s)
    (hone : AppliedOnce s) (hs : approvalStep s e = some s') : AppliedOnce s' ↔ NotInWindow s e := by
  cases e with
  | click env value ok =>
    obtain rfl := Option.some.inj hs
    cases hrow : s.row with
    | none => exact ⟨fun _ a ha => absurd (hrow.symm.trans ha) (by simp), fun _ => hone⟩
    | some a => exact notInWindow_click h hone hrow env value ok
  | settle threw ok =>
    by_cases hrun : s.running = 0
    · simp [approvalStep, hrun] at hs
    · obtain rfl : s.settle threw ok = s' := by simpa [approvalStep, hrun] using hs
      have hkept := ApprovalRun.dropIf_counters { s with
        running := s.running - 1
        leftover := s.leftover || !((!threw || ok.notify) && ok.audit && ok.delete) }
        ((!threw || ok.notify) && ok.audit && ok.delete)
      exact ⟨fun _ => trivial, fun _ => (appliedOnce_congr hkept.1 hkept.2).mpr hone⟩
  | expire olderThanMs now =>
    obtain rfl := Option.some.inj hs
    refine ⟨fun _ => trivial, fun _ => ?_⟩
    cases s.row with
    | none => exact hone
    | some a =>
      dsimp only
      unfold ApprovalRun.expire
      split <;> exact hone

/-- **When an approval is applied once.** In a run of one row's clicks, returning handlers and expiry
sweeps, the handler is started at most once and never after a recorded rejection or expiry, in every
state, exactly when no click that can start it comes while the handler is running or after a decision
that left the row in place. -/
theorem approval_once_iff {a : PendingApproval} {es : List ApprovalEvent} {s : ApprovalRun}
    (hrun : Trans.run approvalStep (.init a) es = some s) :
    Trans.Always approvalStep AppliedOnce (.init a) es ↔
      Trans.Along approvalStep NotInWindow (.init a) es := by
  have hinit : AppliedOnce (.init a) := ⟨Nat.zero_le 1, rfl⟩
  exact Trans.always_iff_along approvalInv_step appliedOnce_step (approvalInv_init a) hinit hrun

/-- A request for packages, and what a click on it reads. -/
def installApproval : PendingApproval :=
  ⟨"appr-1", some "sess-1", "install_packages", some (.obj [("apt", .arr [.str "jq"])]), 1000,
    some "ag-work", .pending⟩

def installReads : ApprovalReads :=
  ⟨[], [⟨"sess-1", "ag-work", none, none, none, none, none, .active, 0, 0⟩],
    ["install_packages", "add_mcp_server"], []⟩

/-- The approver clicks twice while the image is built. -/
theorem double_click :
    ∃ s, Trans.run approvalStep (.init installApproval)
        [.click installReads "approve" ⟨true, true, true⟩, .click installReads "approve" ⟨true, true, true⟩] =
          some s ∧ s.starts = 2 ∧ ¬ AppliedOnce s := by
  refine ⟨_, rfl, rfl, fun h => ?_⟩
  exact absurd h.1 (by decide)

/-- An approval that comes back before the second click. -/
theorem approval_once_iff_sample :
    ∃ s, Trans.run approvalStep (.init installApproval)
        [.click installReads "approve" ⟨true, true, true⟩, .settle false ⟨true, true, true⟩,
          .click installReads "approve" ⟨true, true, true⟩] = some s ∧ s.starts = 1 ∧ AppliedOnce s := by
  have hrun : Trans.run approvalStep (.init installApproval)
      [.click installReads "approve" ⟨true, true, true⟩, .settle false ⟨true, true, true⟩,
        .click installReads "approve" ⟨true, true, true⟩] = some _ := rfl
  refine ⟨_, hrun, rfl, (approval_once_iff hrun).mpr ?_ _ [] _ (List.append_nil _).symm hrun⟩
  refine ⟨fun _ _ _ => ⟨rfl, rfl⟩, fun s₁ h₁ => ?_⟩
  obtain rfl := Option.some.inj h₁
  refine ⟨trivial, fun s₂ h₂ => ?_⟩
  obtain rfl := Option.some.inj h₂
  refine ⟨fun a ha => ?_, fun _ _ => trivial⟩
  have hgone : (none : Option PendingApproval) = some a := ha
  cases hgone

end AgentDesk
