/-
# The accounts of roster messages

`reserveRosterSend` and `rollbackRosterReservation` (`src/db/dm-grants.ts`) change six counters, a grant's
revocation and a marker row; what a rollback undoes it works out from the counters. Over any calls, where a
rollback is given what its reservation was given, the tables are exactly what the reservations that stand make
of them. So two orders that leave the same reservations standing answer alike from then on.

* `exact_accounts`: every count is the number of standing reservations charged to it, every grant has sent what it
  had plus its standing reservations, a refusal changes nothing, and a grant is revoked at its cap; and a
  reservation that is rolled back later leaves the answers to come as if neither it nor the calls that did
  nothing in the meantime had happened.
* `refused_meanwhile`: a call that was refused meanwhile is not made good by the rollback.
-/
import Mathlib.Data.List.Forall2
import AgentDesk.RosterRevocation

namespace AgentDesk

deriving instance DecidableEq for RateKeys, RateWindow, RateWindows, DeployQuotaConfig, Send

/-! ### Calls and what they leave -/

inductive RosterCall where
  | reserve (x : Send)
  | rollback (x : Send)
  deriving DecidableEq

/-- What a call answers. -/
inductive RosterVerdict where
  | reserved (r : Option ReserveResult)
  | rolledBack (r : Option Bool)
  deriving DecidableEq

def RosterCall.apply (db : Roster) : RosterCall → Roster × RosterVerdict
  | .reserve x => ((reserveRosterSend db x).1, .reserved (reserveRosterSend db x).2)
  | .rollback x => ((rollbackRosterReservation db x).1, .rolledBack (rollbackRosterReservation db x).2)

/-- The answers to calls made one after the other. -/
def verdicts : Roster → List RosterCall → List RosterVerdict
  | _, [] => []
  | db, c :: cs => (c.apply db).2 :: verdicts (c.apply db).1 cs

/-- The tables, and the reservations that stand (which no code reads). -/
structure Accounts where
  db : Roster
  standing : List Send

/-- A table of grants: its primary key, and counters that have counted up. -/
structure GrantTable where
  rows : List DmGrantRow
  ids : (rows.map (·.id)).Nodup
  used : ∀ g ∈ rows, 0 ≤ g.sendsUsed

/-- The grants, and an empty ledger. -/
def Accounts.opening (grants : GrantTable) : Accounts := ⟨⟨grants.rows, []⟩, []⟩

/-- A rollback of a standing reservation is given what that was given. -/
def accountStep (st : Accounts) : RosterCall → Option Accounts
  | .reserve x => some
    { db := (reserveRosterSend st.db x).1
      standing := if (reserveRosterSend st.db x).2 = some (.ok true) then x :: st.standing else st.standing }
  | .rollback x =>
    if hasRosterReservation st.db.ledger x.messageOutId = true ∧ x ∉ st.standing then none
    else some
      { db := (rollbackRosterReservation st.db x).1
        standing := if (rollbackRosterReservation st.db x).2 = some true then st.standing.erase x else st.standing }

/-- The budget is charged to the ledger row `p` at `now`. -/
def Budget.charges (now : ℕ) (p : LedgerKey × ℕ) (b : Budget) : Bool :=
  b.key = p.1 && windowStartIso now b.window.windowSec = some p.2

def Send.charges (p : LedgerKey × ℕ) (x : Send) : Bool := x.budgets.any (·.charges x.now p)

/-- How many of the reservations are charged to the ledger row `p`. -/
def charged (standing : List Send) (p : LedgerKey × ℕ) : ℕ := standing.countP (·.charges p)

/-- How many of the reservations are charged to the grant. -/
def sendsOf (standing : List Send) (grantId : String) : ℕ := standing.countP (·.grantId = grantId)

/-- Revoked exactly at the cap, as a grant is that nobody revoked. -/
def DmGrantRow.RevokedAtCap (g : DmGrantRow) : Prop :=
  g.revokedAt.isSome = true ↔ 0 < g.maxSends ∧ g.sendsUsed = g.maxSends

/-- A grant as it was and as it is: its standing reservations have been added, and reaching its cap has revoked
it. -/
structure GrantAccount (standing : List Send) (g₀ g : DmGrantRow) : Prop where
  rest : g = { g₀ with sendsUsed := g.sendsUsed, revokedAt := g.revokedAt }
  used : g.sendsUsed = g₀.sendsUsed + sendsOf standing g₀.id
  revoked : g.revokedAt.isSome = true ↔
    g₀.revokedAt.isSome = true ∨ (0 < sendsOf standing g₀.id ∧ 0 < g.maxSends ∧ g.sendsUsed = g.maxSends)
  /-- What stands was charged to an open grant. -/
  opened : 0 < sendsOf standing g₀.id → g₀.revokedAt = none ∧ (0 < g.maxSends → g.sendsUsed ≤ g.maxSends)

/-- The tables are what the standing reservations make of the grants. -/
structure ExactAccounts (grants : GrantTable) (st : Accounts) : Prop where
  rates : ∀ k ws, k.isRate = true → currentCount st.db.ledger k ws = charged st.standing (k, ws)
  markers : ∀ m, hasRosterReservation st.db.ledger m = true ↔ m ∈ st.standing.map (·.messageOutId)
  once : (st.standing.map (·.messageOutId)).Nodup
  rows : (st.db.ledger.map LedgerRow.pk).Nodup
  grants : List.Forall₂ (GrantAccount st.standing) grants.rows st.db.grants

/-! ### The ledger -/

theorem currentCount_dec (ledger : List LedgerRow) (k k' : LedgerKey) (ws ws' : ℕ) :
    currentCount (decLedger ledger k ws) k' ws' =
      if (k', ws') = (k, ws) then currentCount ledger k ws - 1 else currentCount ledger k' ws' := by
  have hf : ∀ r : LedgerRow, LedgerRow.pk { r with count := r.count - 1 } = r.pk := fun _ => rfl
  unfold currentCount decLedger
  rw [Table.find_update hf]
  split
  · cases Table.find LedgerRow.pk ledger (k, ws) <;> simp
  · rfl

theorem chargeAll_count {now : ℕ} {bs : List Budget} {ledger ledger' : List LedgerRow}
    (h : chargeAll now bs ledger = .ok ledger') (k : LedgerKey) (ws : ℕ) :
    currentCount ledger' k ws = currentCount ledger k ws + bs.countP (·.charges now (k, ws)) := by
  induction bs generalizing ledger with
  | nil =>
    cases h
    rfl
  | cons b bs ih =>
    unfold chargeAll at h
    split at h
    · cases h
    rename_i ws₀ hws
    split at h
    · cases h
    rw [ih h, currentCount_bump, List.countP_cons, Budget.charges, hws]
    by_cases hp : (k, ws) = (b.key, ws₀)
    · obtain ⟨rfl, rfl⟩ := Prod.mk.inj hp
      simp
      omega
    · have hno : ¬ (b.key = k ∧ ws₀ = ws) := fun he => hp (by rw [he.1, he.2])
      simp [hp, hno]

theorem refundAll_count {now : ℕ} {bs : List Budget} {ledger ledger' : List LedgerRow}
    (h : refundAll now bs ledger = .ok ledger') (k : LedgerKey) (ws : ℕ) :
    currentCount ledger' k ws = currentCount ledger k ws - bs.countP (·.charges now (k, ws)) := by
  induction bs generalizing ledger with
  | nil =>
    cases h
    rfl
  | cons b bs ih =>
    unfold refundAll at h
    split at h
    · cases h
    rename_i ws₀ hws
    rw [ih h, currentCount_dec, List.countP_cons, Budget.charges, hws]
    by_cases hp : (k, ws) = (b.key, ws₀)
    · obtain ⟨rfl, rfl⟩ := Prod.mk.inj hp
      simp
      omega
    · have hno : ¬ (b.key = k ∧ ws₀ = ws) := fun he => hp (by rw [he.1, he.2])
      simp [hp, hno]

theorem countP_of_nodup {α β : Type} {key : α → β} {p : α → Bool} {k : β} (hp : ∀ a, p a = true → key a = k) :
    ∀ {l : List α}, (l.map key).Nodup → l.countP p = (l.any p).toNat
  | [], _ => rfl
  | a :: l, hnd => by
    rw [List.map_cons, List.nodup_cons] at hnd
    rw [List.countP_cons, countP_of_nodup hp hnd.2, List.any_cons]
    by_cases ha : p a = true
    · have hrest : l.any p = false := by
        rw [List.any_eq_false]
        intro b hb hpb
        exact hnd.1 (List.mem_map.mpr ⟨b, hb, (hp b hpb).trans (hp a ha).symm⟩)
      rw [hrest, ha]
      rfl
    · simp [ha]

theorem budgets_keys_nodup (x : Send) : (x.budgets.map (·.key)).Nodup := by
  unfold Send.budgets budgets
  split <;> simp

theorem countP_charges (x : Send) (p : LedgerKey × ℕ) : x.budgets.countP (·.charges x.now p) = (x.charges p).toNat :=
  countP_of_nodup (k := p.1) (fun b hb => by simp_all [Budget.charges]) (budgets_keys_nodup x)

theorem bumpLedger_rows {ledger : List LedgerRow} (h : (ledger.map LedgerRow.pk).Nodup) (k : LedgerKey) (ws : ℕ) :
    ((bumpLedger ledger k ws).map LedgerRow.pk).Nodup := by
  have hf : ∀ r : LedgerRow, LedgerRow.pk { r with count := r.count + 1 } = r.pk := fun _ => rfl
  exact Table.nodup_upsert hf h _

theorem chargeAll_rows {now : ℕ} {bs : List Budget} {ledger ledger' : List LedgerRow}
    (hnd : (ledger.map LedgerRow.pk).Nodup) (h : chargeAll now bs ledger = .ok ledger') :
    (ledger'.map LedgerRow.pk).Nodup := by
  induction bs generalizing ledger with
  | nil =>
    cases h
    exact hnd
  | cons b bs ih =>
    unfold chargeAll at h
    split at h
    · cases h
    split at h
    · cases h
    · exact ih (bumpLedger_rows hnd _ _) h

theorem refundAll_rows {now : ℕ} {bs : List Budget} {ledger ledger' : List LedgerRow}
    (hnd : (ledger.map LedgerRow.pk).Nodup) (h : refundAll now bs ledger = .ok ledger') :
    (ledger'.map LedgerRow.pk).Nodup := by
  induction bs generalizing ledger with
  | nil =>
    cases h
    exact hnd
  | cons b bs ih =>
    unfold refundAll at h
    split at h
    · cases h
    · have hf : ∀ r : LedgerRow, LedgerRow.pk { r with count := r.count - 1 } = r.pk := fun _ => rfl
      refine ih ?_ h
      unfold decLedger
      rw [Table.keys_update hf]
      exact hnd

theorem currentCount_row {ledger : List LedgerRow} (hnd : (ledger.map LedgerRow.pk).Nodup) {r : LedgerRow}
    (hr : r ∈ ledger) : currentCount ledger r.key r.windowStart = r.count := by
  have hfind : Table.find LedgerRow.pk ledger (r.key, r.windowStart) = some r := Table.find_of_nodup hnd hr
  rw [currentCount, hfind]
  rfl

theorem currentCount_delete_marker {k : LedgerKey} (hk : k.isRate = true) (ledger : List LedgerRow) (ws : ℕ)
    (m : String) : currentCount (Table.delete LedgerRow.pk ledger (.reserve m, reserveSentinelWindow)) k ws =
      currentCount ledger k ws := by
  unfold currentCount
  rw [Table.find_delete, if_neg]
  rintro ⟨⟩
  cases hk

/-! ### The grants -/

theorem forall₂_imp_mem {α β : Type} {R S : α → β → Prop} {l : List α} {l' : List β} (h : List.Forall₂ R l l')
    (himp : ∀ a b, b ∈ l' → R a b → S a b) : List.Forall₂ S l l' := by
  induction h with
  | nil => exact .nil
  | cons hab _ ih => exact .cons (himp _ _ (.head _) hab) (ih fun a b hb => himp a b (.tail _ hb))

theorem sendsOf_cons (x : Send) (standing : List Send) (grantId : String) :
    sendsOf (x :: standing) grantId = sendsOf standing grantId + if grantId = x.grantId then 1 else 0 := by
  rw [sendsOf, List.countP_cons]
  by_cases hid : grantId = x.grantId
  · simp [sendsOf, hid]
  · simp [sendsOf, hid, Ne.symm hid]

theorem charged_cons (x : Send) (standing : List Send) (p : LedgerKey × ℕ) :
    charged (x :: standing) p = charged standing p + (x.charges p).toNat := by
  rw [charged, List.countP_cons]
  cases hx : x.charges p <;> simp [charged]

theorem perm_charged {l l' : List Send} (h : l.Perm l') (p : LedgerKey × ℕ) : charged l p = charged l' p :=
  h.countP_eq _

theorem perm_sendsOf {l l' : List Send} (h : l.Perm l') (id : String) : sendsOf l id = sendsOf l' id :=
  h.countP_eq _

theorem GrantAccount.perm {l l' : List Send} (hp : l.Perm l') {g₀ g : DmGrantRow} (h : GrantAccount l g₀ g) :
    GrantAccount l' g₀ g := by
  obtain ⟨hrest, hused, hrev, hopen⟩ := h
  rw [perm_sendsOf hp] at hused hrev hopen
  exact ⟨hrest, hused, hrev, hopen⟩

theorem GrantAccount.id {l : List Send} {g₀ g : DmGrantRow} (h : GrantAccount l g₀ g) : g.id = g₀.id := by
  rw [h.rest]

theorem GrantAccount.maxSends {l : List Send} {g₀ g : DmGrantRow} (h : GrantAccount l g₀ g) :
    g.maxSends = g₀.maxSends := by
  rw [h.rest]

theorem GrantAccount.cons_of_ne {l : List Send} {x : Send} {g₀ g : DmGrantRow} (h : GrantAccount l g₀ g)
    (hne : g.id ≠ x.grantId) : GrantAccount (x :: l) g₀ g := by
  have hsame : sendsOf (x :: l) g₀.id = sendsOf l g₀.id := by
    rw [sendsOf_cons, if_neg (h.id ▸ hne), Nat.add_zero]
  exact ⟨h.rest, hsame ▸ h.used, hsame ▸ h.revoked, hsame ▸ h.opened⟩

/-- The reservation that charges a grant is one more that stands. -/
theorem GrantAccount.charge {l : List Send} {x : Send} {g₀ g : DmGrantRow} (h : GrantAccount l g₀ g)
    (hid : g.id = x.grantId) (hopen : g.isOpen = true) : GrantAccount (x :: l) g₀ (g.charge x.now) := by
  obtain ⟨hnone, hroom⟩ := isOpen_iff.mp hopen
  have hone : sendsOf (x :: l) g₀.id = sendsOf l g₀.id + 1 := by
    rw [sendsOf_cons, if_pos (h.id ▸ hid)]
  have hg₀ : g₀.revokedAt = none := by
    have hno : ¬ g.revokedAt.isSome = true := by simp [hnone]
    rw [h.revoked, not_or] at hno
    simpa using hno.1
  refine ⟨?_, ?_, ?_, fun _ => ⟨hg₀, fun hpos => ?_⟩⟩
  · unfold DmGrantRow.charge
    rw [h.rest]
  · rw [hone]
    show g.sendsUsed + 1 = _
    rw [h.used]
    push_cast
    omega
  · rw [hone]
    show (if 0 < g.maxSends ∧ g.maxSends ≤ g.sendsUsed + 1 then g.revokedAt.or (some x.now) else g.revokedAt).isSome =
      true ↔ g₀.revokedAt.isSome = true ∨ 0 < sendsOf l g₀.id + 1 ∧ 0 < g.maxSends ∧ g.sendsUsed + 1 = g.maxSends
    rw [hnone, hg₀]
    by_cases hpos : 0 < g.maxSends
    · have hlt := hroom hpos
      by_cases hcap : g.maxSends ≤ g.sendsUsed + 1
      · have heq : g.sendsUsed + 1 = g.maxSends := by omega
        simp [hpos, heq]
      · have hne : g.sendsUsed + 1 ≠ g.maxSends := by omega
        simp [hcap, hne]
    · simp [hpos]
  · have hlt := hroom hpos
    show g.sendsUsed + 1 ≤ g.maxSends
    omega

/-- The rollback that refunds a grant takes one of the reservations that stand. -/
theorem GrantAccount.refund {l : List Send} {x : Send} {g₀ g : DmGrantRow} (h : GrantAccount (x :: l) g₀ g)
    (hnonneg : 0 ≤ g₀.sendsUsed) (hid : g.id = x.grantId) : GrantAccount l g₀ g.refund := by
  have hone : sendsOf (x :: l) g₀.id = sendsOf l g₀.id + 1 := by
    rw [sendsOf_cons, if_pos (h.id ▸ hid)]
  obtain ⟨hg₀, hle⟩ := h.opened (by omega)
  have hused := h.used
  have hrev := h.revoked
  rw [hone] at hused hrev
  push_cast at hused
  have hmax : g.refund.sendsUsed = g.sendsUsed - 1 := by
    show max (g.sendsUsed - 1) 0 = g.sendsUsed - 1
    omega
  -- the refund leaves it below its cap, and open
  have hopen : g.refund.revokedAt = none := by
    show (if g.capped then none else g.revokedAt) = none
    by_cases hcap : g.capped = true
    · rw [if_pos hcap]
    · rw [if_neg hcap, ← Option.not_isSome_iff_eq_none, hrev]
      rintro (hsome | ⟨-, hpos, heq⟩)
      · rw [hg₀] at hsome
        cases hsome
      · exact hcap (by simp [DmGrantRow.capped, hpos, heq])
  refine ⟨?_, ?_, ?_, fun _ => ⟨hg₀, fun hpos => ?_⟩⟩
  · unfold DmGrantRow.refund
    rw [h.rest]
  · rw [hmax, hused]
    omega
  · rw [hopen, hg₀, hmax]
    show _ ↔ _ ∨ 0 < sendsOf l g₀.id ∧ 0 < g.maxSends ∧ g.sendsUsed - 1 = g.maxSends
    have hno : ¬ (0 < g.maxSends ∧ g.sendsUsed - 1 = g.maxSends) := by
      rintro ⟨hpos, heq⟩
      have := hle hpos
      omega
    simp [hno]
  · have := hle hpos
    rw [hmax]
    show g.sendsUsed - 1 ≤ g.maxSends
    omega

theorem GrantAccount.drop_of_ne {l : List Send} {x : Send} {g₀ g : DmGrantRow} (h : GrantAccount (x :: l) g₀ g)
    (hne : g.id ≠ x.grantId) : GrantAccount l g₀ g := by
  have hsame : sendsOf (x :: l) g₀.id = sendsOf l g₀.id := by
    rw [sendsOf_cons, if_neg (h.id ▸ hne), Nat.add_zero]
  exact ⟨h.rest, hsame ▸ h.used, hsame ▸ h.revoked, hsame ▸ h.opened⟩

/-! ### What a call keeps -/

variable {grants : GrantTable} {st st' : Accounts} {x : Send}

theorem map_eq_of_forall₂ {α β γ : Type} {R : α → β → Prop} {f : α → γ} {f' : β → γ} {l : List α} {l' : List β}
    (h : List.Forall₂ R l l') (hR : ∀ a b, R a b → f' b = f a) : l'.map f' = l.map f := by
  induction h with
  | nil => rfl
  | cons hab _ ih => rw [List.map_cons, List.map_cons, hR _ _ hab, ih]

theorem ExactAccounts.ids (h : ExactAccounts grants st) : st.db.grants.map (·.id) = grants.rows.map (·.id) :=
  map_eq_of_forall₂ h.grants fun _ _ => GrantAccount.id

theorem ExactAccounts.perm {db : Roster} {l l' : List Send} (h : ExactAccounts grants ⟨db, l⟩) (hp : l.Perm l') :
    ExactAccounts grants ⟨db, l'⟩ where
  rates k ws hk := (h.rates k ws hk).trans (perm_charged hp _)
  markers m := (h.markers m).trans (hp.map _).mem_iff
  once := (hp.map _).nodup_iff.mp h.once
  rows := h.rows
  grants := h.grants.imp fun _ _ hg => hg.perm hp

theorem exactAccounts_opening (grants : GrantTable) : ExactAccounts grants (.opening grants) where
  rates _ _ _ := rfl
  markers m := by simp [Accounts.opening, hasRosterReservation, Table.find]
  once := List.nodup_nil
  rows := List.nodup_nil
  grants := by
    refine List.forall₂_same.mpr fun g _ => ⟨rfl, ?_, ?_, ?_⟩ <;> simp [Accounts.opening, sendsOf]

theorem ExactAccounts.reserve (h : ExactAccounts grants st)
    (hfresh : (reserveRosterSend st.db x).2 = some (.ok true)) :
    ExactAccounts grants ⟨(reserveRosterSend st.db x).1, x :: st.standing⟩ := by
  obtain ⟨hres, ⟨g₁, hg₁, hid₁, hopen₁⟩, ledger, hch, hdb⟩ := reserveRosterSend_fresh.mp hfresh
  rw [hdb]
  have hnew : x.messageOutId ∉ st.standing.map (·.messageOutId) := by
    rw [← h.markers, hres]
    exact Bool.false_ne_true
  refine ⟨fun k ws hk => ?_, fun m => ?_, List.nodup_cons.mpr ⟨hnew, h.once⟩, ?_, ?_⟩
  · rw [currentCount_marker hk, chargeAll_count hch, h.rates k ws hk, charged_cons, countP_charges]
  · rw [hasRosterReservation_bump, chargeAll_marker (budgets_isRate x) hch, List.map_cons, List.mem_cons, ← h.markers]
    by_cases hm : m = x.messageOutId <;> simp [hm]
  · exact bumpLedger_rows (chargeAll_rows h.rows hch) _ _
  · refine List.forall₂_map_right_iff.mpr (forall₂_imp_mem h.grants fun g₀ g hg hacc => ?_)
    by_cases hid : g.id = x.grantId
    · -- the ids are unique, so that the open grant is this one
      have hsame : g = g₁ := List.inj_on_of_nodup_map (h.ids ▸ grants.ids) hg hg₁ (hid.trans hid₁.symm)
      rw [if_pos (by simp [hid, hsame ▸ hopen₁])]
      exact hacc.charge hid (hsame ▸ hopen₁)
    · rw [if_neg (by simp [hid])]
      exact hacc.cons_of_ne hid

/-- A rollback of a reservation that stands. -/
theorem ExactAccounts.rollback {db : Roster} {l : List Send} (h : ExactAccounts grants ⟨db, x :: l⟩)
    (hdone : (rollbackRosterReservation db x).2 = some true) :
    ExactAccounts grants ⟨(rollbackRosterReservation db x).1, l⟩ := by
  obtain ⟨-, ledger, hre, hdb⟩ := rollbackRosterReservation_done.mp hdone
  have honce := List.nodup_cons.mp h.once
  rw [hdb]
  refine ⟨fun k ws hk => ?_, fun m => ?_, honce.2, Table.nodup_delete (refundAll_rows h.rows hre) _, ?_⟩
  · have hrate := h.rates k ws hk
    rw [charged_cons] at hrate
    rw [currentCount_delete_marker hk, refundAll_count hre, countP_charges]
    show currentCount db.ledger k ws - _ = _
    rw [hrate, Nat.add_sub_cancel]
  · have hsame : hasRosterReservation ledger m = hasRosterReservation db.ledger m :=
      (refundAll_le (.reserve m, reserveSentinelWindow) hre).1
    have hold := h.markers m
    rw [List.map_cons, List.mem_cons] at hold
    rw [hasRosterReservation_delete, hsame]
    by_cases hm : m = x.messageOutId
    · rw [if_pos hm, hm]
      exact ⟨fun hf => (nomatch hf), fun hmem => (honce.1 hmem).elim⟩
    · rw [if_neg hm]
      exact hold.trans (or_iff_right hm)
  · refine List.forall₂_map_right_iff.mpr ?_
    have hgrants : List.Forall₂ (fun g₀ g => g₀ ∈ grants.rows ∧ GrantAccount (x :: l) g₀ g) grants.rows db.grants :=
      (forall₂_imp_mem h.grants.flip fun _ _ hmem hacc => ⟨hmem, hacc⟩).flip
    refine hgrants.imp fun g₀ g hacc => ?_
    by_cases hid : g.id = x.grantId
    · rw [if_pos hid]
      exact hacc.2.refund (grants.used g₀ hacc.1) hid
    · rw [if_neg hid]
      exact hacc.2.drop_of_ne hid

theorem accountStep_done (hdone : (rollbackRosterReservation st.db x).2 = some true)
    (hs : accountStep st (.rollback x) = some st') :
    x ∈ st.standing ∧ st' = ⟨(rollbackRosterReservation st.db x).1, st.standing.erase x⟩ := by
  have hres := (rollbackRosterReservation_done.mp hdone).1
  by_cases hmem : x ∈ st.standing
  · have hno : ¬ (hasRosterReservation st.db.ledger x.messageOutId = true ∧ x ∉ st.standing) := fun h => h.2 hmem
    have hgo : accountStep st (.rollback x) =
        some ⟨(rollbackRosterReservation st.db x).1, st.standing.erase x⟩ := by
      simp only [accountStep, if_neg hno, if_pos hdone]
    exact ⟨hmem, (Option.some.inj (hgo.symm.trans hs)).symm⟩
  · have hstop : accountStep st (.rollback x) = none := if_pos ⟨hres, hmem⟩
    rw [hstop] at hs
    cases hs

theorem exactAccounts_step (st : Accounts) (c : RosterCall) (st' : Accounts) (h : ExactAccounts grants st)
    (hs : accountStep st c = some st') : ExactAccounts grants st' := by
  cases c with
  | reserve x =>
    obtain rfl := Option.some.inj hs
    by_cases hfresh : (reserveRosterSend st.db x).2 = some (.ok true)
    · rw [if_pos hfresh]
      exact h.reserve hfresh
    · rw [if_neg hfresh, reserveRosterSend_same hfresh]
      exact h
  | rollback x =>
    by_cases hdone : (rollbackRosterReservation st.db x).2 = some true
    · obtain ⟨hmem, rfl⟩ := accountStep_done hdone hs
      exact (h.perm (List.perm_cons_erase hmem)).rollback hdone
    · simp only [accountStep] at hs
      split at hs
      · cases hs
      · obtain rfl := Option.some.inj hs
        rw [rollbackRosterReservation_same hdone]
        exact h

/-! ### Tables that answer alike -/

/-- The counts of the rate windows and the daily bucket are the same. -/
def SameRates (l l' : List LedgerRow) : Prop :=
  ∀ k ws, k.isRate = true → currentCount l k ws = currentCount l' k ws

/-- The grants are the same but for when they were revoked. -/
structure SameGrant (g g' : DmGrantRow) : Prop where
  rest : g' = { g with revokedAt := g'.revokedAt }
  revoked : g'.revokedAt.isSome = g.revokedAt.isSome

structure Roster.Equivalent (db db' : Roster) : Prop where
  rates : SameRates db.ledger db'.ledger
  markers : ∀ m, hasRosterReservation db.ledger m = hasRosterReservation db'.ledger m
  grants : List.Forall₂ SameGrant db.grants db'.grants

theorem chargeAll_agree (now : ℕ) {bs : List Budget} {l l' : List LedgerRow}
    (hb : ∀ b ∈ bs, b.key.isRate = true) (h : SameRates l l') :
    (∃ e, chargeAll now bs l = .error e ∧ chargeAll now bs l' = .error e) ∨
      ∃ r r', chargeAll now bs l = .ok r ∧ chargeAll now bs l' = .ok r' ∧ SameRates r r' := by
  induction bs generalizing l l' with
  | nil => exact .inr ⟨l, l', rfl, rfl, h⟩
  | cons b bs ih =>
    unfold chargeAll
    cases hw : windowStartIso now b.window.windowSec with
    | none => exact .inl ⟨_, rfl, rfl⟩
    | some ws =>
      have hcount := h b.key ws (hb b (.head _))
      simp only
      rw [← hcount]
      split
      · exact .inl ⟨_, rfl, rfl⟩
      · refine ih (fun c hc => hb c (.tail _ hc)) fun k ws' hk => ?_
        rw [currentCount_bump, currentCount_bump, hcount, h k ws' hk]

theorem refundAll_agree (now : ℕ) (bs : List Budget) {l l' : List LedgerRow} (h : SameRates l l') :
    (∃ e, refundAll now bs l = .error e ∧ refundAll now bs l' = .error e) ∨
      ∃ r r', refundAll now bs l = .ok r ∧ refundAll now bs l' = .ok r' ∧ SameRates r r' := by
  induction bs generalizing l l' with
  | nil => exact .inr ⟨l, l', rfl, rfl, h⟩
  | cons b bs ih =>
    unfold refundAll
    cases hw : windowStartIso now b.window.windowSec with
    | none => exact .inl ⟨_, rfl, rfl⟩
    | some ws =>
      refine ih fun k ws' hk => ?_
      rw [currentCount_dec, currentCount_dec, h k ws' hk]
      by_cases hp : (k, ws') = (b.key, ws)
      · rw [if_pos hp, if_pos hp, ← (Prod.mk.inj hp).1, h k ws hk]
      · rw [if_neg hp, if_neg hp]

theorem any_of_forall₂ {α β : Type} {R : α → β → Prop} {p : α → Bool} {q : β → Bool} {l : List α} {l' : List β}
    (h : List.Forall₂ R l l') (hR : ∀ a b, R a b → q b = p a) : l'.any q = l.any p := by
  induction h with
  | nil => rfl
  | cons hab _ ih => rw [List.any_cons, List.any_cons, hR _ _ hab, ih]

theorem SameGrant.isOpen {g g' : DmGrantRow} (h : SameGrant g g') : g'.isOpen = g.isOpen := by
  have hnone : g'.revokedAt.isNone = g.revokedAt.isNone := by rw [← Option.not_isSome, h.revoked, Option.not_isSome]
  have hmax : g'.maxSends = g.maxSends := by rw [h.rest]
  have hused : g'.sendsUsed = g.sendsUsed := by rw [h.rest]
  rw [DmGrantRow.isOpen, DmGrantRow.isOpen, hnone, hmax, hused]

theorem SameGrant.id {g g' : DmGrantRow} (h : SameGrant g g') : g'.id = g.id := by
  rw [h.rest]

theorem SameGrant.charge {g g' : DmGrantRow} (h : SameGrant g g') (now : ℕ) :
    SameGrant (g.charge now) (g'.charge now) := by
  obtain ⟨hrest, hrev⟩ := h
  refine ⟨?_, ?_⟩
  · unfold DmGrantRow.charge
    rw [hrest]
  · unfold DmGrantRow.charge
    rw [hrest] at hrev ⊢
    simp only at hrev ⊢
    split
    · rw [Option.isSome_or, Option.isSome_or, hrev]
    · exact hrev

theorem SameGrant.refund {g g' : DmGrantRow} (h : SameGrant g g') : SameGrant g.refund g'.refund := by
  obtain ⟨hrest, hrev⟩ := h
  refine ⟨?_, ?_⟩
  · unfold DmGrantRow.refund
    rw [hrest]
  · unfold DmGrantRow.refund DmGrantRow.capped
    rw [hrest] at hrev ⊢
    simp only at hrev ⊢
    split
    · rfl
    · exact hrev

theorem Roster.Equivalent.map {db db' : Roster} (h : db.Equivalent db') {f f' : DmGrantRow → DmGrantRow}
    (hf : ∀ g g', SameGrant g g' → SameGrant (f g) (f' g')) :
    List.Forall₂ SameGrant (db.grants.map f) (db'.grants.map f') :=
  List.forall₂_map_left_iff.mpr (List.forall₂_map_right_iff.mpr (h.grants.imp hf))

/-- Equivalent tables answer a reservation alike and are equivalent after it. -/
theorem Roster.Equivalent.reserve {db db' : Roster} (h : db.Equivalent db') (x : Send) :
    (reserveRosterSend db x).2 = (reserveRosterSend db' x).2 ∧
      (reserveRosterSend db x).1.Equivalent (reserveRosterSend db' x).1 := by
  have hany : (db'.grants.any fun g => g.id = x.grantId && g.isOpen) =
      db.grants.any fun g => g.id = x.grantId && g.isOpen :=
    any_of_forall₂ h.grants fun g g' hg => by rw [hg.id, hg.isOpen]
  rw [reserveRosterSend_eq, reserveRosterSend_eq, ← h.markers, hany]
  split
  · exact ⟨rfl, h⟩
  split
  · rcases chargeAll_agree x.now (budgets_isRate x) h.rates with ⟨e, he, he'⟩ | ⟨r, r', hr, hr', hsame⟩
    · rw [he, he']
      rcases e with ⟨reason, key⟩ | _
      · exact ⟨rfl, h⟩
      · exact ⟨rfl, h⟩
    · rw [hr, hr']
      refine ⟨rfl, fun k ws hk => ?_, fun m => ?_, h.map fun g g' hg => ?_⟩
      · rw [currentCount_marker hk, currentCount_marker hk, hsame k ws hk]
      · rw [hasRosterReservation_bump, hasRosterReservation_bump, chargeAll_marker (budgets_isRate x) hr,
          chargeAll_marker (budgets_isRate x) hr', h.markers]
      · rw [hg.id, hg.isOpen]
        split
        · exact hg.charge x.now
        · exact hg
  · exact ⟨rfl, h⟩

theorem Roster.Equivalent.rollback {db db' : Roster} (h : db.Equivalent db') (x : Send) :
    (rollbackRosterReservation db x).2 = (rollbackRosterReservation db' x).2 ∧
      (rollbackRosterReservation db x).1.Equivalent (rollbackRosterReservation db' x).1 := by
  unfold rollbackRosterReservation
  rw [← h.markers]
  split
  · rcases refundAll_agree x.now x.budgets h.rates with ⟨e, he, he'⟩ | ⟨r, r', hr, hr', hsame⟩
    · rw [he, he']
      exact ⟨rfl, h⟩
    · rw [hr, hr']
      refine ⟨rfl, fun k ws hk => ?_, fun m => ?_, h.map fun g g' hg => ?_⟩
      · rw [currentCount_delete_marker hk, currentCount_delete_marker hk, hsame k ws hk]
      · have hmark : hasRosterReservation r m = hasRosterReservation r' m := by
          have hl := (refundAll_le (.reserve m, reserveSentinelWindow) hr).1
          have hl' := (refundAll_le (.reserve m, reserveSentinelWindow) hr').1
          exact hl.trans ((h.markers m).trans hl'.symm)
        rw [hasRosterReservation_delete, hasRosterReservation_delete, hmark]
      · rw [hg.id]
        split
        · exact hg.refund
        · exact hg
  · exact ⟨rfl, h⟩

/-- **Equivalent tables answer all calls alike.** -/
theorem Roster.Equivalent.verdicts {db db' : Roster} (h : db.Equivalent db') (cs : List RosterCall) :
    verdicts db cs = verdicts db' cs := by
  induction cs generalizing db db' with
  | nil => rfl
  | cons c cs ih =>
    have hc : (c.apply db).2 = (c.apply db').2 ∧ (c.apply db).1.Equivalent (c.apply db').1 := by
      cases c with
      | reserve x => exact ⟨congrArg RosterVerdict.reserved (h.reserve x).1, (h.reserve x).2⟩
      | rollback x => exact ⟨congrArg RosterVerdict.rolledBack (h.rollback x).1, (h.rollback x).2⟩
    rw [AgentDesk.verdicts, AgentDesk.verdicts, hc.1, ih hc.2]

theorem forall₂_join {α β γ : Type} {R : α → β → Prop} {S : α → γ → Prop} {T : β → γ → Prop} {l : List α}
    {a : List β} {b : List γ} (ha : List.Forall₂ R l a) (hb : List.Forall₂ S l b)
    (hT : ∀ x y z, R x y → S x z → T y z) : List.Forall₂ T a b := by
  induction ha generalizing b with
  | nil =>
    cases hb
    exact .nil
  | cons hxy _ ih =>
    cases hb with
    | cons hxz hb => exact .cons (hT _ _ _ hxy hxz) (ih hb)

theorem exists_of_forall₂_left {α β : Type} {R : α → β → Prop} {l : List α} {l' : List β}
    (h : List.Forall₂ R l l') {a : α} (ha : a ∈ l) : ∃ b ∈ l', R a b := by
  induction h with
  | nil => cases ha
  | cons hab _ ih =>
    rcases List.mem_cons.mp ha with rfl | ha
    · exact ⟨_, .head _, hab⟩
    · obtain ⟨b, hb, hR⟩ := ih ha
      exact ⟨b, .tail _ hb, hR⟩

/-- What the same reservations make of a grant. -/
theorem GrantAccount.sameGrant {l : List Send} {g₀ g g' : DmGrantRow} (h : GrantAccount l g₀ g)
    (h' : GrantAccount l g₀ g') : SameGrant g g' := by
  have hused : g'.sendsUsed = g.sendsUsed := h'.used.trans h.used.symm
  have hmax : g'.maxSends = g.maxSends := h'.maxSends.trans h.maxSends.symm
  refine ⟨?_, ?_⟩
  · rw [h'.rest, h.rest]
    simp only [hused]
  · rw [Bool.eq_iff_iff, h.revoked, h'.revoked, hused, hmax]

theorem ExactAccounts.equivalent (h : ExactAccounts grants st) (h' : ExactAccounts grants st')
    (hp : st.standing.Perm st'.standing) : st.db.Equivalent st'.db where
  rates k ws hk := by rw [h.rates k ws hk, h'.rates k ws hk, perm_charged hp]
  markers m := by rw [Bool.eq_iff_iff, h.markers, h'.markers, (hp.map _).mem_iff]
  grants := forall₂_join h.grants h'.grants fun _ _ _ hg hg' => (hg.perm hp).sameGrant hg'

/-! ### A reservation and its rollback -/

/-- The call makes a reservation, or undoes one. -/
def RosterCall.changes (db : Roster) (c : RosterCall) : Bool :=
  (c.apply db).2 = .reserved (some (.ok true)) || (c.apply db).2 = .rolledBack (some true)

/-- The calls that change something, when all are made one after the other. -/
def changing : Roster → List RosterCall → List RosterCall
  | _, [] => []
  | db, c :: cs => if c.changes db then c :: changing (c.apply db).1 cs else changing (c.apply db).1 cs

theorem accountStep_db {c : RosterCall} (hs : accountStep st c = some st') : st'.db = (c.apply st.db).1 := by
  cases c with
  | reserve x =>
    obtain rfl := Option.some.inj hs
    rfl
  | rollback x =>
    simp only [accountStep] at hs
    split at hs
    · cases hs
    · obtain rfl := Option.some.inj hs
      rfl

theorem accountStep_same {c : RosterCall} (hs : accountStep st c = some st') (hno : c.changes st.db = false) :
    st' = st := by
  cases c with
  | reserve x =>
    have hfresh : (reserveRosterSend st.db x).2 ≠ some (.ok true) := by
      intro he
      simp [RosterCall.changes, RosterCall.apply, he] at hno
    obtain rfl := Option.some.inj hs
    rw [if_neg hfresh, reserveRosterSend_same hfresh]
  | rollback x =>
    have hdone : (rollbackRosterReservation st.db x).2 ≠ some true := by
      intro he
      simp [RosterCall.changes, RosterCall.apply, he] at hno
    simp only [accountStep] at hs
    split at hs
    · cases hs
    · obtain rfl := Option.some.inj hs
      rw [rollbackRosterReservation_same hdone]

theorem chargeAll_mono {now : ℕ} {bs : List Budget} {l l' r : List LedgerRow} (hb : ∀ b ∈ bs, b.key.isRate = true)
    (hle : ∀ k ws, k.isRate = true → currentCount l' k ws ≤ currentCount l k ws)
    (h : chargeAll now bs l = .ok r) : ∃ r', chargeAll now bs l' = .ok r' := by
  induction bs generalizing l l' with
  | nil => exact ⟨l', rfl⟩
  | cons b bs ih =>
    unfold chargeAll at h ⊢
    split at h
    · cases h
    rename_i ws _
    split at h
    · cases h
    rename_i hroom
    have hrate := hle b.key ws (hb b (.head _))
    rw [if_neg (by omega)]
    refine ih (fun c hc => hb c (.tail _ hc)) (fun k ws' hk => ?_) h
    have hk' := hle k ws' hk
    rw [currentCount_bump, currentCount_bump]
    split <;> omega

theorem chargeAll_windows {now : ℕ} {bs : List Budget} {l r : List LedgerRow} (h : chargeAll now bs l = .ok r) :
    ∀ b ∈ bs, hasLength b.window.windowSec = true := by
  induction bs generalizing l with
  | nil => exact fun b hb => nomatch hb
  | cons b bs ih =>
    unfold chargeAll at h
    split at h
    · cases h
    rename_i ws hws
    split at h
    · cases h
    intro c hc
    rcases List.mem_cons.mp hc with rfl | hc
    · by_contra hnone
      simp [windowStartIso, hnone] at hws
    · exact ih h c hc

/-- Two histories, of which the first has one more reservation standing, `x`. -/
structure OneMore (grants : GrantTable) (x : Send) (st st' : Accounts) : Prop where
  left : ExactAccounts grants st
  right : ExactAccounts grants st'
  perm : st.standing.Perm (x :: st'.standing)

theorem OneMore.grant_open (h : OneMore grants x st st') {g : DmGrantRow} (hg : g ∈ st.db.grants)
    (hopen : g.isOpen = true) : ∃ g' ∈ st'.db.grants, g'.id = g.id ∧ g'.isOpen = true := by
  have hpair : List.Forall₂ (fun g g' : DmGrantRow => g'.id = g.id ∧ (g.isOpen = true → g'.isOpen = true))
      st.db.grants st'.db.grants := by
    refine forall₂_join h.left.grants h.right.grants fun g₀ g g' hacc hacc' => ?_
    refine ⟨hacc'.id.trans hacc.id.symm, fun hopen => ?_⟩
    obtain ⟨hnone, hroom⟩ := isOpen_iff.mp hopen
    have hone := (hacc.perm h.perm).used
    rw [sendsOf_cons] at hone
    have hless : g'.sendsUsed ≤ g.sendsUsed := by
      rw [hone, hacc'.used]
      push_cast
      split <;> omega
    have hmax : g'.maxSends = g.maxSends := hacc'.maxSends.trans hacc.maxSends.symm
    refine isOpen_iff.mpr ⟨?_, fun hpos => ?_⟩
    · rw [← Option.not_isSome_iff_eq_none, hacc'.revoked]
      rintro (hsome | ⟨-, hpos, hcap⟩)
      · have hrev := hacc.revoked.mpr (.inl hsome)
        rw [hnone] at hrev
        cases hrev
      · rw [hmax] at hpos hcap
        have := hroom hpos
        omega
    · rw [hmax] at hpos ⊢
      exact Int.lt_of_le_of_lt hless (hroom hpos)
  obtain ⟨g', hg', hid, himp⟩ := exists_of_forall₂_left hpair hg
  exact ⟨g', hg', hid, himp hopen⟩

theorem OneMore.same_marker (h : OneMore grants x st st') {m : String} (hne : m ≠ x.messageOutId) :
    hasRosterReservation st'.db.ledger m = hasRosterReservation st.db.ledger m := by
  rw [Bool.eq_iff_iff, h.left.markers, h.right.markers, (h.perm.map _).mem_iff, List.map_cons, List.mem_cons,
    or_iff_right hne]

/-- A call that changes something in the first history changes it in the second. -/
theorem OneMore.step {c : RosterCall} (h : OneMore grants x st st') {st₁ : Accounts}
    (hs : accountStep st c = some st₁) (hc : c.changes st.db = true) (hx : c ≠ .rollback x) :
    ∃ st₁', accountStep st' c = some st₁' ∧ OneMore grants x st₁ st₁' := by
  have hleft := exactAccounts_step st c st₁ h.left hs
  have hmark : x.messageOutId ∈ st.standing.map (·.messageOutId) :=
    (h.perm.map _).mem_iff.mpr (List.mem_cons_self ..)
  cases c with
  | reserve y =>
    have hfresh : (reserveRosterSend st.db y).2 = some (.ok true) := by
      simpa [RosterCall.changes, RosterCall.apply] using hc
    obtain ⟨hres, ⟨g, hg, hid, hopen⟩, ledger, hch, -⟩ := reserveRosterSend_fresh.mp hfresh
    have hne : y.messageOutId ≠ x.messageOutId := by
      intro he
      rw [he, (h.left.markers _).mpr hmark] at hres
      cases hres
    obtain ⟨g', hg', hid', hopen'⟩ := h.grant_open hg hopen
    have hless : ∀ k ws, k.isRate = true → currentCount st'.db.ledger k ws ≤ currentCount st.db.ledger k ws := by
      intro k ws hk
      rw [h.left.rates k ws hk, h.right.rates k ws hk, perm_charged h.perm, charged_cons]
      omega
    obtain ⟨ledger', hch'⟩ := chargeAll_mono (budgets_isRate y) hless hch
    have hfresh' : (reserveRosterSend st'.db y).2 = some (.ok true) := by
      rw [reserveRosterSend_eq, h.same_marker hne, hres, if_neg Bool.false_ne_true,
        if_pos (List.any_eq_true.mpr ⟨g', hg', by simp [hid'.trans hid, hopen']⟩), hch']
    have hs' : accountStep st' (.reserve y) = some ⟨(reserveRosterSend st'.db y).1, y :: st'.standing⟩ := by
      simp only [accountStep, if_pos hfresh']
    have hperm : (y :: st.standing).Perm (x :: y :: st'.standing) := (h.perm.cons y).trans (.swap x y _)
    refine ⟨_, hs', hleft, exactAccounts_step st' _ _ h.right hs', ?_⟩
    obtain rfl := Option.some.inj hs
    rw [if_pos hfresh]
    exact hperm
  | rollback y =>
    have hyx : y ≠ x := fun he => hx (he ▸ rfl)
    have hdone : (rollbackRosterReservation st.db y).2 = some true := by
      simpa [RosterCall.changes, RosterCall.apply] using hc
    obtain ⟨hres, ledger, hre, -⟩ := rollbackRosterReservation_done.mp hdone
    obtain ⟨hmem, rfl⟩ := accountStep_done hdone hs
    have hmem' : y ∈ st'.standing := (List.mem_cons.mp (h.perm.mem_iff.mp hmem)).resolve_left hyx
    have hres' : hasRosterReservation st'.db.ledger y.messageOutId = true :=
      (h.right.markers _).mpr (List.mem_map_of_mem hmem')
    obtain ⟨ledger', hre'⟩ := (refundAll_ok y.now y.budgets st'.db.ledger).mpr
      ((refundAll_ok y.now y.budgets st.db.ledger).mp ⟨ledger, hre⟩)
    have hdone' : (rollbackRosterReservation st'.db y).2 = some true := by
      rw [rollbackRosterReservation, if_pos hres', hre']
    have hs' : accountStep st' (.rollback y) =
        some ⟨(rollbackRosterReservation st'.db y).1, st'.standing.erase y⟩ := by
      have hno : ¬ (hasRosterReservation st'.db.ledger y.messageOutId = true ∧ y ∉ st'.standing) :=
        fun hboth => hboth.2 hmem'
      simp only [accountStep, if_neg hno, if_pos hdone']
    have hperm : (st.standing.erase y).Perm (x :: st'.standing.erase y) := by
      have hp := h.perm.erase y
      rwa [List.erase_cons_tail (by simpa using Ne.symm hyx)] at hp
    exact ⟨_, hs', hleft, exactAccounts_step st' _ _ h.right hs', hperm⟩

theorem OneMore.run {cs : List RosterCall} {st₁ : Accounts} (h : OneMore grants x st st')
    (hrun : Trans.run accountStep st cs = some st₁) (hx : .rollback x ∉ cs) :
    ∃ st₁', Trans.run accountStep st' (changing st.db cs) = some st₁' ∧ OneMore grants x st₁ st₁' := by
  induction cs generalizing st st' with
  | nil =>
    obtain rfl := Option.some.inj hrun
    exact ⟨st', rfl, h⟩
  | cons c cs ih =>
    obtain ⟨st₂, hs, hrest⟩ := Trans.run_cons.mp hrun
    have hcx : c ≠ .rollback x := fun he => hx (he ▸ .head _)
    have hcs : .rollback x ∉ cs := fun hmem => hx (.tail _ hmem)
    rw [changing, ← accountStep_db hs]
    by_cases hc : c.changes st.db = true
    · obtain ⟨st₂', hs', h₂⟩ := h.step hs hc hcx
      obtain ⟨st₁', hrun', h₁⟩ := ih h₂ hrest hcs
      rw [if_pos hc]
      exact ⟨st₁', Trans.run_cons.mpr ⟨st₂', hs', hrun'⟩, h₁⟩
    · rw [if_neg hc]
      obtain rfl := accountStep_same hs (Bool.eq_false_iff.mpr hc)
      exact ih h hrest hcs

/-- A reservation that is rolled back after other calls: as if neither it nor those of them that changed nothing
had been made. -/
theorem ExactAccounts.undone (h : ExactAccounts grants st) {mid : List RosterCall} {st₁ st₂ st₃ : Accounts}
    (hfresh : (reserveRosterSend st.db x).2 = some (.ok true)) (hs : accountStep st (.reserve x) = some st₁)
    (hrun : Trans.run accountStep st₁ mid = some st₂) (hx : .rollback x ∉ mid)
    (hback : accountStep st₂ (.rollback x) = some st₃) :
    ∃ st', Trans.run accountStep st (changing st₁.db mid) = some st' ∧
      ∀ cs, verdicts st₃.db cs = verdicts st'.db cs := by
  have h₁ := exactAccounts_step st _ st₁ h hs
  have hone : OneMore grants x st₁ st := by
    refine ⟨h₁, h, ?_⟩
    obtain rfl := Option.some.inj hs
    rw [if_pos hfresh]
  obtain ⟨st', hrun', h₂⟩ := hone.run hrun hx
  have hmem : x ∈ st₂.standing := h₂.perm.mem_iff.mpr (List.mem_cons_self ..)
  have hres : hasRosterReservation st₂.db.ledger x.messageOutId = true :=
    (h₂.left.markers _).mpr (List.mem_map_of_mem hmem)
  obtain ⟨-, -, ledger, hch, -⟩ := reserveRosterSend_fresh.mp hfresh
  obtain ⟨ledger', hre⟩ := (refundAll_ok x.now x.budgets st₂.db.ledger).mpr (chargeAll_windows hch)
  have hdone : (rollbackRosterReservation st₂.db x).2 = some true := by
    rw [rollbackRosterReservation, if_pos hres, hre]
  have h₃ := exactAccounts_step st₂ _ st₃ h₂.left hback
  have hperm : st₃.standing.Perm st'.standing := by
    obtain ⟨-, rfl⟩ := accountStep_done hdone hback
    have hp := h₂.perm.erase x
    rwa [List.erase_cons_head] at hp
  exact ⟨st', hrun', (h₃.equivalent h₂.right hperm).verdicts⟩

theorem GrantAccount.revokedAtCap {l : List Send} {g₀ g : DmGrantRow} (h : GrantAccount l g₀ g)
    (h₀ : g₀.RevokedAtCap) : g.RevokedAtCap := by
  have hmax := h.maxSends
  have hidle : sendsOf l g₀.id = 0 → g.sendsUsed = g₀.sendsUsed := by
    intro hzero
    rw [h.used, hzero]
    simp
  unfold DmGrantRow.RevokedAtCap at h₀ ⊢
  rw [h.revoked, h₀]
  constructor
  · rintro (⟨hpos, hcap⟩ | ⟨-, hboth⟩)
    · have hzero : sendsOf l g₀.id = 0 := by
        by_contra hne
        have hnone := (h.opened (Nat.pos_of_ne_zero hne)).1
        have hsome := h₀.mpr ⟨hpos, hcap⟩
        rw [hnone] at hsome
        cases hsome
      rw [hidle hzero, hmax]
      exact ⟨hpos, hcap⟩
    · exact hboth
  · intro hboth
    rcases Nat.eq_zero_or_pos (sendsOf l g₀.id) with hzero | hpos
    · rw [hidle hzero, hmax] at hboth
      exact .inl hboth
    · exact .inr ⟨hpos, hboth⟩

/-- **Exact roster accounting.** After any calls on a table of grants: a message has a marker exactly while a
reservation of it stands; the count of each rate row, and of each rate window, is the number of standing
reservations charged to it; each grant has sent what it had and its standing reservations, and is revoked exactly
at its cap if it was so before; a refusal changes nothing. Tables with the same standing reservations answer
alike, and a reservation that is rolled back after other calls leaves the answers to come as if neither it nor
those of the calls that changed nothing had been made. -/
theorem exact_accounts {grants : GrantTable} {cs : List RosterCall} {st : Accounts}
    (hrun : Trans.run accountStep (.opening grants) cs = some st) :
    (∀ m, hasRosterReservation st.db.ledger m = true ↔ m ∈ st.standing.map (·.messageOutId)) ∧
    (∀ r ∈ st.db.ledger, r.key.isRate = true → r.count = charged st.standing (r.key, r.windowStart)) ∧
    (∀ k ws, k.isRate = true → currentCount st.db.ledger k ws = charged st.standing (k, ws)) ∧
    List.Forall₂ (fun g₀ g : DmGrantRow => g.id = g₀.id ∧ g.sendsUsed = g₀.sendsUsed + sendsOf st.standing g.id ∧
      (g₀.RevokedAtCap → g.RevokedAtCap)) grants.rows st.db.grants ∧
    (∀ x reason blockedKey, (reserveRosterSend st.db x).2 = some (.refused reason blockedKey) →
      (reserveRosterSend st.db x).1 = st.db) ∧
    (∀ cs' st', Trans.run accountStep (.opening grants) cs' = some st' → st'.standing.Perm st.standing →
      ∀ later, verdicts st'.db later = verdicts st.db later) ∧
    ∀ x mid st₁ st₂ st₃, (reserveRosterSend st.db x).2 = some (.ok true) →
      accountStep st (.reserve x) = some st₁ → Trans.run accountStep st₁ mid = some st₂ →
      .rollback x ∉ mid → accountStep st₂ (.rollback x) = some st₃ →
      ∃ st', Trans.run accountStep st (changing st₁.db mid) = some st' ∧
        ∀ later, verdicts st₃.db later = verdicts st'.db later := by
  have hopening := exactAccounts_opening grants
  have h : ExactAccounts grants st := Trans.run_inv exactAccounts_step hopening hrun
  refine ⟨h.markers, fun r hr hk => ?_, h.rates, ?_, fun x reason key href => ?_, fun cs' st' hrun' hp => ?_, ?_⟩
  · rw [← h.rates _ _ hk, currentCount_row h.rows hr]
  · refine h.grants.imp fun g₀ g hacc => ⟨hacc.id, ?_, hacc.revokedAtCap⟩
    rw [hacc.id]
    exact hacc.used
  · exact reserveRosterSend_same (by simp [href])
  · have h' : ExactAccounts grants st' := Trans.run_inv exactAccounts_step hopening hrun'
    exact (h'.equivalent h hp).verdicts
  · intro x mid st₁ st₂ st₃ hfresh hs hmid hx hback
    exact h.undone hfresh hs hmid hx hback

/-! ### A grant of one message -/

/-- `ou_p` may be sent one message. -/
def oneMessageGrant : GrantTable where
  rows := [sampleConsent.row]
  ids := by simp
  used := by
    intro g hg
    rw [List.mem_singleton.mp hg]
    exact Int.le_refl 0

/-- A message is reserved, another refused, the first rolled back. -/
theorem exact_accounts_sample :
    ∃ st, Trans.run accountStep (.opening oneMessageGrant)
        [.reserve (sampleSend "m1"), .reserve (sampleSend "m2"), .rollback (sampleSend "m1")] = some st ∧
      ∀ m, hasRosterReservation st.db.ledger m = true ↔ m ∈ st.standing.map (·.messageOutId) := by
  have hrun : Trans.run accountStep (.opening oneMessageGrant)
      [.reserve (sampleSend "m1"), .reserve (sampleSend "m2"), .rollback (sampleSend "m1")] = some _ := rfl
  exact ⟨_, hrun, (exact_accounts hrun).1⟩

/-- `m2` is refused while `m1` is reserved. So, when `m1` has been rolled back, `m3` can be sent; had `m1` never
been reserved, `m2` would have taken the grant's one message. -/
theorem refused_meanwhile :
    (∃ st, Trans.run accountStep (.opening oneMessageGrant)
        [.reserve (sampleSend "m1"), .reserve (sampleSend "m2"), .rollback (sampleSend "m1")] = some st ∧
      verdicts st.db [.reserve (sampleSend "m3")] = [.reserved (some (.ok true))]) ∧
    ∃ st, Trans.run accountStep (.opening oneMessageGrant) [.reserve (sampleSend "m2")] = some st ∧
      verdicts st.db [.reserve (sampleSend "m3")] = [.reserved (some (.refused .maxSends none))] := by
  have hrun : Trans.run accountStep (.opening oneMessageGrant)
      [.reserve (sampleSend "m1"), .reserve (sampleSend "m2"), .rollback (sampleSend "m1")] = some _ := rfl
  have hrun' : Trans.run accountStep (.opening oneMessageGrant) [.reserve (sampleSend "m2")] = some _ := rfl
  exact ⟨⟨_, hrun, rfl⟩, _, hrun', rfl⟩

end AgentDesk
