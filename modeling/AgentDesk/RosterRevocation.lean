/-
# A rollback can take back a revocation

The send that reaches a grant's cap revokes it (`DmGrantRow.charge`), with the
column an opt-out uses. So a person who revokes between that reservation and
its rollback changes nothing (the grant is revoked already), and the rollback,
which finds the grant at its cap, clears the column: the grant is open again
after an explicit revoke and without a consent.

That is the only way. A revoked grant is never charged again, so one revoked
below its cap stays below it, and a rollback leaves it revoked.

* `revocation_undone`: the three-step order, from an empty database.
* `revocation_kept_iff`: over every run, an explicit revoke stands until the
  next consent exactly when no rollback of a standing reservation meets an
  explicitly revoked grant at its cap.
-/
import Mathlib.Data.List.Nodup
import AgentDesk.RosterBudget

namespace AgentDesk

/-- Every grant someone revoked since its last consent is revoked. -/
def RevocationKept (st : RosterState) : Prop :=
  ∀ g ∈ st.db.grants, st.books.revoked g.id = true → g.revokedAt.isSome = true

/-- The event is not a rollback that finds a reservation, has windows it can compute, and meets a
grant that is at its cap and was explicitly revoked. -/
def NoReopen (st : RosterState) : RosterEvent → Prop
  | .rollback x =>
    hasRosterReservation st.db.ledger x.messageOutId = true → (∀ b ∈ x.budgets, hasLength b.window.windowSec = true) →
      ∀ g ∈ st.db.grants, g.id = x.grantId → g.capped = true → st.books.revoked g.id = false
  | _ => True

/-! ### Grant ids are unique -/

/-- The primary key of `dm_grants`. -/
def UniqueIds (st : RosterState) : Prop := (st.db.grants.map (·.id)).Nodup

theorem UniqueIds.eq_of_id {st : RosterState} (h : UniqueIds st) {g g' : DmGrantRow} (hg : g ∈ st.db.grants)
    (hg' : g' ∈ st.db.grants) (he : g.id = g'.id) : g = g' :=
  List.inj_on_of_nodup_map h hg hg' he

theorem map_ids {f : DmGrantRow → DmGrantRow} (hf : ∀ g, (f g).id = g.id) (grants : List DmGrantRow) :
    (grants.map f).map (·.id) = grants.map (·.id) := by
  rw [List.map_map]
  exact List.map_congr_left fun g _ => hf g

theorem insertDmGrant_ids (grants : List DmGrantRow) (a : InsertDmGrantArgs) (h : (grants.map (·.id)).Nodup) :
    ((insertDmGrant grants a).1.map (·.id)).Nodup := by
  rcases insertDmGrant_cases grants a with he | ⟨g, -, he⟩ | ⟨hnew, he⟩ <;> rw [he]
  · exact h
  · unfold Table.update
    rw [map_ids fun g => by split <;> rfl]
    exact h
  · rw [List.map_append, List.nodup_append]
    refine ⟨h, by simp, fun i hi j hj hij => ?_⟩
    obtain ⟨g, hg, rfl⟩ := List.mem_map.mp hi
    simp only [List.map_cons, List.map_nil, List.mem_singleton] at hj
    exact hnew g hg (hij.trans hj)

theorem uniqueIds_step (st : RosterState) (e : RosterEvent) (st' : RosterState) (h : UniqueIds st)
    (hstep : rosterStep st e = some st') : UniqueIds st' := by
  cases e with
  | consent a =>
    simp only [rosterStep] at hstep
    obtain rfl := Option.some.inj hstep
    exact insertDmGrant_ids st.db.grants a h
  | reserve x =>
    rcases rosterStep_reserve hstep with rfl | ⟨-, ledger, -, rfl⟩
    · exact h
    · unfold UniqueIds
      rw [map_ids fun g => by split <;> rfl]
      exact h
  | rollback x =>
    rcases rosterStep_rollback hstep with ⟨rfl, -⟩ | ⟨-, ledger, -, rfl⟩
    · exact h
    · unfold UniqueIds
      rw [map_ids fun g => by split <;> rfl]
      exact h
  | revoke rv now =>
    obtain rfl := Option.some.inj hstep
    unfold UniqueIds
    simp only [Revocation.apply_eq, revokeWhere]
    rw [map_ids fun g => by split <;> rfl]
    exact h

/-! ### One step -/

theorem refundAll_ok (now : ℕ) (bs : List Budget) (ledger : List LedgerRow) :
    (∃ ledger', refundAll now bs ledger = .ok ledger') ↔ ∀ b ∈ bs, hasLength b.window.windowSec = true := by
  induction bs generalizing ledger with
  | nil => simp [refundAll]
  | cons b bs ih =>
    unfold refundAll windowStartIso
    by_cases hb : hasLength b.window.windowSec = true
    · simp only [hb, if_true]
      rw [ih]
      simp [hb]
    · simp [hb]

theorem revocationKept_reserve {st st' : RosterState} (h : RevocationKept st) {x : Send}
    (hstep : rosterStep st (.reserve x) = some st') : RevocationKept st' := by
  rcases rosterStep_reserve hstep with rfl | ⟨-, ledger, -, rfl⟩
  · exact h
  · intro g hg hrev
    obtain ⟨g₀, hg₀, rfl⟩ := List.mem_map.mp hg
    split at hrev <;> rename_i hopen
    · have hsome := h g₀ hg₀ hrev
      simp [DmGrantRow.isOpen, Option.isSome_iff_ne_none.mp hsome] at hopen
    · rw [if_neg hopen]
      exact h g₀ hg₀ hrev

theorem revocationKept_revoke {st st' : RosterState} (hu : UniqueIds st) (h : RevocationKept st)
    {rv : Revocation} {now : ℕ} (hstep : rosterStep st (.revoke rv now) = some st') :
    RevocationKept st' := by
  obtain rfl := Option.some.inj hstep
  intro g hg hrev
  simp only [Revocation.apply_eq] at hg
  obtain ⟨g₀, hg₀, rfl⟩ := List.mem_map.mp hg
  split <;> rename_i hc
  · rfl
  · rw [if_neg hc] at hrev
    -- not revoked now: it was revoked before, or the revoke does not cover it
    by_cases hcov : rv.covers g₀ = true
    · simpa [hcov, Option.isSome_iff_ne_none] using hc
    · refine h g₀ hg₀ ?_
      simp only [coveredBy, Bool.or_eq_true, List.any_eq_true, Bool.and_eq_true, decide_eq_true_eq] at hrev
      rcases hrev with hrev | ⟨g₁, hg₁, hid, hcov₁⟩
      · exact hrev
      · rw [hu.eq_of_id hg₁ hg₀ hid] at hcov₁
        exact (hcov hcov₁).elim

theorem revocationKept_consent {st st' : RosterState} (h : RevocationKept st) {a : InsertDmGrantArgs}
    (hstep : rosterStep st (.consent a) = some st') : RevocationKept st' := by
  simp only [rosterStep] at hstep
  obtain rfl := Option.some.inj hstep
  intro g hg hrev
  simp only at hg hrev
  rcases insertDmGrant_cases st.db.grants a with he | ⟨g₁, -, he⟩ | ⟨-, he⟩ <;> rw [he] at hg hrev <;>
    simp only [reopenedBy] at hg hrev
  · exact h g hg hrev
  · obtain ⟨g₀, hg₀, rfl⟩ := List.mem_map.mp hg
    by_cases hid : g₀.id = g₁.id
    · rw [if_pos hid] at hrev
      change Function.update st.books.revoked g₁.id false g₀.id = true at hrev
      rw [hid, Function.update_self] at hrev
      cases hrev
    · rw [if_neg hid] at hrev ⊢
      rw [Function.update_of_ne hid] at hrev
      exact h g₀ hg₀ hrev
  · by_cases hid : g.id = a.id
    · rw [hid, Function.update_self] at hrev
      cases hrev
    · rw [Function.update_of_ne hid] at hrev
      rcases List.mem_append.mp hg with hg | hg
      · exact h g hg hrev
      · exact (hid (by rw [List.mem_singleton.mp hg]; rfl)).elim

theorem revocationKept_rollback {st st' : RosterState} (h : RevocationKept st) {x : Send}
    (hstep : rosterStep st (.rollback x) = some st') :
    RevocationKept st' ↔ NoReopen st (.rollback x) := by
  rcases rosterStep_rollback hstep with ⟨rfl, hno⟩ | ⟨hres, ledger, hre, rfl⟩
  · refine ⟨fun _ hres hwin => ?_, fun _ => h⟩
    obtain ⟨ledger, hre⟩ := (refundAll_ok x.now x.budgets st'.db.ledger).mpr hwin
    exact (hno (by simp [rollbackRosterReservation, hres, hre])).elim
  · constructor
    · intro hkept _ _ g hg hid hcap
      by_contra hrev
      -- the refunded grant is open and still on record as revoked
      have hmem : g.refund ∈ st.db.grants.map fun g => if g.id = x.grantId then g.refund else g :=
        List.mem_map.mpr ⟨g, hg, by rw [if_pos hid]⟩
      have hsome := hkept g.refund hmem (by simpa [DmGrantRow.refund] using hrev)
      simp [DmGrantRow.refund, hcap] at hsome
    · intro hC g hg hrev
      obtain ⟨g₀, hg₀, rfl⟩ := List.mem_map.mp hg
      by_cases hid : g₀.id = x.grantId
      · rw [if_pos hid] at hrev ⊢
        have hwin := (refundAll_ok x.now x.budgets st.db.ledger).mp ⟨ledger, hre⟩
        have hsome := h g₀ hg₀ hrev
        by_cases hcap : g₀.capped = true
        · have hfalse := hC hres hwin g₀ hg₀ hid hcap
          rw [show st.books.revoked g₀.id = true from hrev] at hfalse
          cases hfalse
        · simpa [DmGrantRow.refund, hcap] using hsome
      · rw [if_neg hid] at hrev ⊢
        exact h g₀ hg₀ hrev

theorem revocationKept_step (st : RosterState) (e : RosterEvent) (st' : RosterState) (hu : UniqueIds st)
    (h : RevocationKept st) (hstep : rosterStep st e = some st') : RevocationKept st' ↔ NoReopen st e := by
  cases e with
  | consent a => exact ⟨fun _ => trivial, fun _ => revocationKept_consent h hstep⟩
  | reserve x => exact ⟨fun _ => trivial, fun _ => revocationKept_reserve h hstep⟩
  | rollback x => exact revocationKept_rollback h hstep
  | revoke rv now => exact ⟨fun _ => trivial, fun _ => revocationKept_revoke hu h hstep⟩

/-- **When a revocation stands.** Over every run from an empty database, every explicitly revoked
grant is revoked in every state, until its next consent, exactly when no step of the run is the
rollback of a standing reservation on an explicitly revoked grant at its cap. -/
theorem revocation_kept_iff {es : List RosterEvent} {st : RosterState}
    (hrun : Trans.run rosterStep RosterState.empty es = some st) :
    Trans.Always rosterStep RevocationKept RosterState.empty es ↔
      Trans.Along rosterStep NoReopen RosterState.empty es :=
  Trans.always_iff_along uniqueIds_step revocationKept_step List.nodup_nil
    (fun _ hg => by cases hg) hrun

/-- A consent to one message, its reservation, and a rollback: nothing is revoked in between. -/
theorem revocation_kept_iff_sample :
    ∃ st, Trans.run rosterStep RosterState.empty
        [.consent sampleConsent, .reserve (sampleSend "m1"), .rollback (sampleSend "m1"),
         .revoke (.participantInScope "s" "ou_p") 60001] = some st ∧
      (Trans.Always rosterStep RevocationKept RosterState.empty
          [.consent sampleConsent, .reserve (sampleSend "m1"), .rollback (sampleSend "m1"),
           .revoke (.participantInScope "s" "ou_p") 60001] ↔
        Trans.Along rosterStep NoReopen RosterState.empty
          [.consent sampleConsent, .reserve (sampleSend "m1"), .rollback (sampleSend "m1"),
           .revoke (.participantInScope "s" "ou_p") 60001]) := by
  have hrun : Trans.run rosterStep RosterState.empty
      [.consent sampleConsent, .reserve (sampleSend "m1"), .rollback (sampleSend "m1"),
       .revoke (.participantInScope "s" "ou_p") 60001] = some _ := rfl
  exact ⟨_, hrun, revocation_kept_iff hrun⟩

/-- The opt-out arrives while the grant's one message is reserved; the send fails and is rolled
back: `ou_p` has revoked the grant and it is open. -/
theorem revocation_undone :
    ∃ st, Trans.run rosterStep RosterState.empty
        [.consent sampleConsent, .reserve (sampleSend "m1"),
         .revoke (.participantInScope "s" "ou_p") 60001, .rollback (sampleSend "m1")] = some st ∧
      ∃ g ∈ st.db.grants, st.books.revoked g.id = true ∧ g.revokedAt = none := by
  have hrun : Trans.run rosterStep RosterState.empty
      [.consent sampleConsent, .reserve (sampleSend "m1"),
       .revoke (.participantInScope "s" "ou_p") 60001, .rollback (sampleSend "m1")] = some _ := rfl
  exact ⟨_, hrun, _, .head _, rfl, rfl⟩

end AgentDesk
