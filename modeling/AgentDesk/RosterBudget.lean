/-
# The budgets of roster messages, over every run

Reservations, rollbacks, consents and revokes in any order, over any messages,
scopes, participants and windows (a reservation kept after a timeout is one no
rollback follows). The state has, beside the two tables, what happened so far
(`Books`, which no code reads): the limit each ledger row was last reserved
against, how often each message was charged and refunded, and which grants
someone revoked.

* `roster_budget`: no grant is sent on beyond its cap, no window beyond the
  limit it was reserved against, and a message is charged at most once.
-/
import Mathlib.Logic.Function.Basic
import AgentDesk.DmGrants
import AgentDesk.Trans

namespace AgentDesk

/-- One call; whatever it draws or is told is in it. -/
inductive RosterEvent where
  | consent (a : InsertDmGrantArgs)
  | reserve (x : Send)
  | rollback (x : Send)
  | revoke (rv : Revocation) (now : ℕ)

/-- What happened so far: the limits reserved against, the charges and refunds of
each message, and the grants explicitly revoked since their last consent. -/
structure Books where
  limit : LedgerKey × ℕ → ℕ
  charges : String → ℕ
  refunds : String → ℕ
  revoked : String → Bool

structure RosterState where
  db : Roster
  books : Books

def RosterState.empty : RosterState := ⟨⟨[], []⟩, ⟨fun _ => 0, fun _ => 0, fun _ => 0, fun _ => false⟩⟩

def Revocation.apply (rv : Revocation) (grants : List DmGrantRow) (now : ℕ) : List DmGrantRow :=
  match rv with
  | .scope s => revokeScope grants s now
  | .participantInScope s p => revokeParticipantInScope grants s p now
  | .leaver o p => revokeGrantsForLeaver grants o p now

theorem Revocation.apply_eq (rv : Revocation) (grants : List DmGrantRow) (now : ℕ) :
    rv.apply grants now = revokeWhere grants rv.covers now := by
  cases rv <;> rfl

/-- Note the limit of every window a reservation charges. -/
def noteLimits (now : ℕ) : List Budget → (LedgerKey × ℕ → ℕ) → LedgerKey × ℕ → ℕ
  | [], l => l
  | b :: bs, l => match windowStartIso now b.window.windowSec with
    | none => l
    | some ws => noteLimits now bs (Function.update l (b.key, ws) b.window.limit)

/-- The grants revoked so far, `rv` included. -/
def coveredBy (st : RosterState) (rv : Revocation) (id : String) : Bool :=
  st.books.revoked id || st.db.grants.any fun g => g.id = id && rv.covers g

/-- The grants revoked so far, without the one a consent recorded or renewed. -/
def reopenedBy (st : RosterState) : Option String → String → Bool
  | some id => Function.update st.books.revoked id false
  | none => st.books.revoked

def rosterStep (st : RosterState) : RosterEvent → Option RosterState
  | .consent a =>
    some { db := { st.db with grants := (insertDmGrant st.db.grants a).1 },
           books := { st.books with revoked := reopenedBy st (insertDmGrant st.db.grants a).2 } }
  | .reserve x => match reserveRosterSend st.db x with
    | (db, some (.ok true)) =>
      some { db := db,
             books := { st.books with
               limit := noteLimits x.now x.budgets st.books.limit,
               charges := Function.update st.books.charges x.messageOutId
                 (st.books.charges x.messageOutId + 1) } }
    | (db, _) => some { st with db := db }
  | .rollback x => match rollbackRosterReservation st.db x with
    | (db, some true) =>
      some { db := db,
             books := { st.books with
               refunds := Function.update st.books.refunds x.messageOutId
                 (st.books.refunds x.messageOutId + 1) } }
    | (db, _) => some { st with db := db }
  | .revoke rv now =>
    some { db := { st.db with grants := rv.apply st.db.grants now },
           books := { st.books with revoked := coveredBy st rv } }

/-! ### What a step can do -/

theorem rosterStep_reserve {st st' : RosterState} {x : Send} (h : rosterStep st (.reserve x) = some st') :
    st' = st ∨
    (hasRosterReservation st.db.ledger x.messageOutId = false ∧
      ∃ ledger, chargeAll x.now x.budgets st.db.ledger = .ok ledger ∧
        st' = { db :=
                  { grants := st.db.grants.map fun g =>
                      if g.id = x.grantId && g.isOpen then g.charge x.now else g,
                    ledger := bumpLedger ledger (.reserve x.messageOutId) reserveSentinelWindow },
                books := { st.books with
                  limit := noteLimits x.now x.budgets st.books.limit,
                  charges := Function.update st.books.charges x.messageOutId
                    (st.books.charges x.messageOutId + 1) } }) := by
  simp only [rosterStep] at h
  split at h
  · rename_i db hr
    rcases reserveRosterSend_cases hr with ⟨-, hno⟩ | ⟨-, hres, ledger, hch, hg, hl⟩
    · exact (hno rfl).elim
    · obtain rfl := Option.some.inj h
      obtain ⟨grants, led⟩ := db
      simp only at hg hl
      subst hg hl
      exact .inr ⟨hres, ledger, hch, rfl⟩
  · rename_i db r hne hr
    rcases reserveRosterSend_cases hr with ⟨rfl, -⟩ | ⟨hok, -⟩
    · exact .inl (Option.some.inj h).symm
    · exact (hne hok).elim

theorem rosterStep_rollback {st st' : RosterState} {x : Send} (h : rosterStep st (.rollback x) = some st') :
    (st' = st ∧ (rollbackRosterReservation st.db x).2 ≠ some true) ∨
    (hasRosterReservation st.db.ledger x.messageOutId = true ∧
      ∃ ledger, refundAll x.now x.budgets st.db.ledger = .ok ledger ∧
        st' = { db :=
                  { grants := st.db.grants.map fun g => if g.id = x.grantId then g.refund else g,
                    ledger := Table.delete LedgerRow.pk ledger
                      (.reserve x.messageOutId, reserveSentinelWindow) },
                books := { st.books with
                  refunds := Function.update st.books.refunds x.messageOutId
                    (st.books.refunds x.messageOutId + 1) } }) := by
  simp only [rosterStep] at h
  split at h
  · rename_i db hr
    rcases rollbackRosterReservation_cases hr with ⟨-, hno⟩ | ⟨-, hres, ledger, hre, hg, hl⟩
    · exact (hno rfl).elim
    · obtain rfl := Option.some.inj h
      obtain ⟨grants, led⟩ := db
      simp only at hg hl
      subst hg hl
      exact .inr ⟨hres, ledger, hre, rfl⟩
  · rename_i db r hne hr
    rcases rollbackRosterReservation_cases hr with ⟨rfl, hno⟩ | ⟨hok, -⟩
    · exact .inl ⟨(Option.some.inj h).symm, by rw [hr]; exact hno⟩
    · exact (hne hok).elim

/-! ### The invariant -/

/-- Every budget is within its limit, and a standing reservation is the one charge not refunded. -/
structure BudgetInv (st : RosterState) : Prop where
  cap : ∀ g ∈ st.db.grants, 0 < g.maxSends → g.sendsUsed ≤ g.maxSends
  rate : ∀ k ws, k.isRate = true → currentCount st.db.ledger k ws ≤ st.books.limit (k, ws)
  marker : ∀ m, st.books.charges m =
    st.books.refunds m + if hasRosterReservation st.db.ledger m then 1 else 0

theorem budgetInv_empty : BudgetInv RosterState.empty := by
  refine ⟨?_, ?_, ?_⟩ <;>
    simp [RosterState.empty, currentCount, hasRosterReservation, Table.find]

/-- A change of the grants that keeps every cap. -/
theorem BudgetInv.of_grants {st : RosterState} (h : BudgetInv st) {grants : List DmGrantRow}
    {revoked : String → Bool} (hcap : ∀ g ∈ grants, 0 < g.maxSends → g.sendsUsed ≤ g.maxSends) :
    BudgetInv { db := { st.db with grants := grants }, books := { st.books with revoked := revoked } } :=
  ⟨hcap, h.rate, h.marker⟩

theorem chargeAll_rate {now : ℕ} {bs : List Budget} {ledger ledger' : List LedgerRow}
    {l : LedgerKey × ℕ → ℕ} (h : chargeAll now bs ledger = .ok ledger')
    (hl : ∀ k ws, k.isRate = true → currentCount ledger k ws ≤ l (k, ws)) :
    ∀ k ws, k.isRate = true → currentCount ledger' k ws ≤ noteLimits now bs l (k, ws) := by
  induction bs generalizing ledger l with
  | nil =>
    cases h
    exact hl
  | cons b bs ih =>
    unfold chargeAll at h
    unfold noteLimits
    cases hw : windowStartIso now b.window.windowSec with
    | none =>
      rw [hw] at h
      cases h
    | some ws₀ =>
      rw [hw] at h
      simp only at h ⊢
      split at h
      · cases h
      · rename_i hroom
        refine ih h fun k ws hk => ?_
        rw [currentCount_bump]
        by_cases hp : (k, ws) = (b.key, ws₀)
        · rw [if_pos hp, hp, Function.update_self]
          omega
        · rw [if_neg hp, Function.update_of_ne hp]
          exact hl k ws hk

theorem hasRosterReservation_bump (ledger : List LedgerRow) (m m' : String) :
    hasRosterReservation (bumpLedger ledger (.reserve m) reserveSentinelWindow) m' =
      if m' = m then true else hasRosterReservation ledger m' := by
  unfold hasRosterReservation
  rw [find_bump]
  by_cases h : m' = m <;> simp [h]

theorem hasRosterReservation_delete (ledger : List LedgerRow) (m m' : String) :
    hasRosterReservation (Table.delete LedgerRow.pk ledger (.reserve m, reserveSentinelWindow)) m' =
      if m' = m then false else hasRosterReservation ledger m' := by
  unfold hasRosterReservation
  rw [Table.find_delete]
  by_cases h : m' = m <;> simp [h]

theorem currentCount_marker {ledger : List LedgerRow} {k : LedgerKey} (hk : k.isRate = true) (ws : ℕ)
    (m : String) : currentCount (bumpLedger ledger (.reserve m) reserveSentinelWindow) k ws =
      currentCount ledger k ws := by
  rw [currentCount_bump, if_neg]
  rintro ⟨⟩
  cases hk

theorem BudgetInv.reserve {st st' : RosterState} (h : BudgetInv st) {x : Send}
    (hstep : rosterStep st (.reserve x) = some st') : BudgetInv st' := by
  rcases rosterStep_reserve hstep with rfl | ⟨hres, ledger, hch, rfl⟩
  · exact h
  · refine ⟨fun g hg hpos => ?_, fun k ws hk => ?_, fun m => ?_⟩
    · obtain ⟨g₀, hg₀, rfl⟩ := List.mem_map.mp hg
      split at hpos
      · rename_i hopen
        rw [if_pos hopen]
        have ho : g₀.maxSends ≤ 0 ∨ g₀.sendsUsed < g₀.maxSends := by
          simp [DmGrantRow.isOpen] at hopen
          exact hopen.2.2
        simp only [DmGrantRow.charge] at hpos ⊢
        omega
      · rename_i hopen
        rw [if_neg hopen]
        exact h.cap g₀ hg₀ hpos
    · simp only [currentCount_marker hk]
      exact chargeAll_rate hch h.rate k ws hk
    · have hm := h.marker m
      simp only [hasRosterReservation_bump, chargeAll_marker (budgets_isRate x) hch]
      by_cases he : m = x.messageOutId
      · subst he
        rw [hres] at hm
        simpa using hm
      · rw [Function.update_of_ne he]
        simpa [he] using hm

theorem BudgetInv.rollback {st st' : RosterState} (h : BudgetInv st) {x : Send}
    (hstep : rosterStep st (.rollback x) = some st') : BudgetInv st' := by
  rcases rosterStep_rollback hstep with ⟨rfl, -⟩ | ⟨hres, ledger, hre, rfl⟩
  · exact h
  · refine ⟨fun g hg hpos => ?_, fun k ws hk => ?_, fun m => ?_⟩
    · obtain ⟨g₀, hg₀, rfl⟩ := List.mem_map.mp hg
      split at hpos
      · rename_i hid
        rw [if_pos hid]
        have := h.cap g₀ hg₀ hpos
        simp only [DmGrantRow.refund] at hpos ⊢
        omega
      · rename_i hid
        rw [if_neg hid]
        exact h.cap g₀ hg₀ hpos
    · -- a rate row keeps its place and its count only falls
      have hle := (refundAll_le (k, ws) hre).2
      have hne : (k, ws) ≠ (.reserve x.messageOutId, reserveSentinelWindow) := by
        rintro ⟨⟩
        cases hk
      simp only [currentCount, Table.find_delete, if_neg hne]
      exact hle.trans (h.rate k ws hk)
    · have hm := h.marker m
      have hsame : hasRosterReservation ledger m = hasRosterReservation st.db.ledger m :=
        (refundAll_le (.reserve m, reserveSentinelWindow) hre).1
      simp only [hasRosterReservation_delete, hsame]
      by_cases he : m = x.messageOutId
      · subst he
        rw [hres] at hm
        simpa using hm
      · rw [Function.update_of_ne he]
        simpa [he] using hm

theorem BudgetInv.consent {st st' : RosterState} (h : BudgetInv st) {a : InsertDmGrantArgs}
    (hstep : rosterStep st (.consent a) = some st') : BudgetInv st' := by
  simp only [rosterStep] at hstep
  obtain rfl := Option.some.inj hstep
  refine h.of_grants fun g hg hpos => ?_
  rcases insertDmGrant_cases st.db.grants a with he | ⟨g₁, -, he⟩ | ⟨-, he⟩ <;> rw [he] at hg
  · exact h.cap g hg hpos
  · obtain ⟨g₀, hg₀, rfl⟩ := List.mem_map.mp hg
    split at hpos <;> rename_i hid
    · rw [if_pos hid]
      exact h.cap g₀ hg₀ hpos
    · rw [if_neg hid]
      exact h.cap g₀ hg₀ hpos
  · rcases List.mem_append.mp hg with hg | hg
    · exact h.cap g hg hpos
    · obtain rfl := List.mem_singleton.mp hg
      exact Int.le_of_lt hpos

theorem BudgetInv.revoke {st st' : RosterState} (h : BudgetInv st) {rv : Revocation} {now : ℕ}
    (hstep : rosterStep st (.revoke rv now) = some st') : BudgetInv st' := by
  obtain rfl := Option.some.inj hstep
  refine h.of_grants fun g hg hpos => ?_
  rw [Revocation.apply_eq] at hg
  obtain ⟨g₀, hg₀, rfl⟩ := List.mem_map.mp hg
  split at hpos <;> rename_i hc
  · rw [if_pos hc]
    exact h.cap g₀ hg₀ hpos
  · rw [if_neg hc]
    exact h.cap g₀ hg₀ hpos

theorem budgetInv_step (st : RosterState) (e : RosterEvent) (st' : RosterState) (h : BudgetInv st)
    (hstep : rosterStep st e = some st') : BudgetInv st' := by
  cases e with
  | consent a => exact h.consent hstep
  | reserve x => exact h.reserve hstep
  | rollback x => exact h.rollback hstep
  | revoke rv now => exact h.revoke hstep

theorem budgetInv_run {es : List RosterEvent} {st : RosterState}
    (h : Trans.run rosterStep RosterState.empty es = some st) : BudgetInv st :=
  Trans.run_inv budgetInv_step budgetInv_empty h

/-- **Roster budget safety.** After any reservations, rollbacks, consents and revokes: no grant
with a cap has sent more than it, no rate window counts more than the limit it was last reserved
against, a message has one charge more than refunds while its reservation stands and none
otherwise, and reserving again for it changes nothing. -/
theorem roster_budget {es : List RosterEvent} {st : RosterState}
    (hrun : Trans.run rosterStep RosterState.empty es = some st) :
    (∀ g ∈ st.db.grants, 0 < g.maxSends → g.sendsUsed ≤ g.maxSends) ∧
    (∀ k ws, k.isRate = true → currentCount st.db.ledger k ws ≤ st.books.limit (k, ws)) ∧
    (∀ m, st.books.charges m =
      st.books.refunds m + if hasRosterReservation st.db.ledger m then 1 else 0) ∧
    ∀ x : Send, hasRosterReservation st.db.ledger x.messageOutId = true →
      reserveRosterSend st.db x = (st.db, some (.ok false)) := by
  have h := budgetInv_run hrun
  refine ⟨h.cap, h.rate, h.marker, fun x hx => ?_⟩
  simp [reserveRosterSend, reserveTx, hx]

/-! ### A participant with one message -/

/-- `ou_p` consents to one message in the scope `s`. -/
def sampleConsent : InsertDmGrantArgs :=
  { id := "g", scopeId := "s", agentGroupId := "ag", slotLabel := "p", participantOpenId := "ou_p",
    dmPlatformId := "feishu:p2p:ou_p", channelType := none, consentSource := "p2p-ingress",
    consentInboundMsgId := "om_1", consentOriginUserId := none, originPlatformId := none,
    maxSends := some 1, expiresAt := none, now := 0 }

def sampleSend (messageOutId : String) : Send :=
  { messageOutId := messageOutId, grantId := "g",
    rateKeys := ⟨"g", "s", "ou_p", "global"⟩, windows := defaultRateWindows,
    deploy := ⟨"global", ⟨60, 100⟩, 0, 86400⟩, now := 60000 }

/-- A second message is refused, a retry of the first is not charged. -/
theorem roster_budget_sample :
    ∃ st, Trans.run rosterStep RosterState.empty
        [.consent sampleConsent, .reserve (sampleSend "m1"), .reserve (sampleSend "m2"),
         .reserve (sampleSend "m1")] = some st ∧
      st.books.charges "m1" = 1 ∧ st.books.charges "m2" = 0 ∧
      ((∀ g ∈ st.db.grants, 0 < g.maxSends → g.sendsUsed ≤ g.maxSends) ∧
        (∀ k ws, k.isRate = true → currentCount st.db.ledger k ws ≤ st.books.limit (k, ws)) ∧
        (∀ m, st.books.charges m =
          st.books.refunds m + if hasRosterReservation st.db.ledger m then 1 else 0) ∧
        ∀ x : Send, hasRosterReservation st.db.ledger x.messageOutId = true →
          reserveRosterSend st.db x = (st.db, some (.ok false))) := by
  have hrun : Trans.run rosterStep RosterState.empty
      [.consent sampleConsent, .reserve (sampleSend "m1"), .reserve (sampleSend "m2"),
       .reserve (sampleSend "m1")] = some _ := rfl
  exact ⟨_, hrun, rfl, rfl, roster_budget hrun⟩

end AgentDesk
