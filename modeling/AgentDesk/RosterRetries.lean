/-
# Retrying a roster message that timed out

A send that times out may have arrived, so that its reservation is kept for the retry (`deliverRosterMessage`,
`src/delivery.ts`). The retry goes through the gates again, and the first of them is the live check
(`checkGrantLive`, `src/db/dm-grants.ts`). The reservation that takes the last of a grant's sends has revoked the
grant, as an opt-out does, and the live check comes before anybody looks for a reservation.

* `roster_retry_iff`: after any run, an attempt that timed out and kept its reservation can be retried as far as
  liveness and budgets go, unless somebody revoked its grant or it expired, exactly when the grant is not at its cap.
* `last_send_stuck`: a grant of one message.

A kept reservation stands for good: only the attempt that made a reservation undoes it (`RetryInv`).
-/
import AgentDesk.RosterAttempts

namespace AgentDesk

open Js

/-! ### The tables under one call -/

/-- What of a grant never changes. -/
def DmGrantRow.place (g : DmGrantRow) : String × String × String := (g.id, g.scopeId, g.slotLabel)

/-- Nobody revoked a revoked grant below its cap but with a revoke. -/
def AutoRevoked (s : RosterState) : Prop :=
  ∀ g ∈ s.db.grants, g.revokedAt.isSome = true → s.books.revoked g.id = true ∨ g.capped = true

variable {s : RosterState} {re : RosterEvent}

theorem map_place {f : DmGrantRow → DmGrantRow} (hf : ∀ g, (f g).place = g.place) (grants : List DmGrantRow) :
    (grants.map f).map DmGrantRow.place = grants.map DmGrantRow.place := by
  rw [List.map_map]
  exact List.map_congr_left fun g _ => hf g

theorem insertDmGrant_places (grants : List DmGrantRow) (a : InsertDmGrantArgs) :
    (insertDmGrant grants a).1.map DmGrantRow.place = grants.map DmGrantRow.place ∨
      (getBySlot grants a.scopeId a.slotLabel = none ∧ (insertDmGrant grants a).1.map DmGrantRow.place =
        grants.map DmGrantRow.place ++ [(a.id, a.scopeId, a.slotLabel)]) := by
  unfold insertDmGrant
  split
  · exact .inl rfl
  split
  · split
    · refine .inl ?_
      unfold Table.update
      exact map_place (fun g => by split <;> rfl) grants
    · exact .inl rfl
  · rename_i hnone
    split
    · exact .inl rfl
    · exact .inr ⟨hnone, by rw [List.map_append]; rfl⟩

/-- A call leaves the grants in their places, and adds one to a free slot at most. -/
theorem after_places (s : RosterState) (re : RosterEvent) :
    (s.after re).db.grants.map DmGrantRow.place = s.db.grants.map DmGrantRow.place ∨
      ∃ id scopeId slotLabel, getBySlot s.db.grants scopeId slotLabel = none ∧
        (s.after re).db.grants.map DmGrantRow.place =
          s.db.grants.map DmGrantRow.place ++ [(id, scopeId, slotLabel)] := by
  have hs := rosterStep_after s re
  cases re with
  | consent a =>
    simp only [rosterStep] at hs
    rw [← Option.some.inj hs]
    exact (insertDmGrant_places s.db.grants a).imp_right fun h => ⟨a.id, a.scopeId, a.slotLabel, h⟩
  | reserve x =>
    refine .inl ?_
    rcases rosterStep_reserve hs with he | ⟨-, ledger, -, he⟩ <;> rw [he]
    exact map_place (fun g => by split <;> rfl) _
  | rollback x =>
    refine .inl ?_
    rcases rosterStep_rollback hs with ⟨he, -⟩ | ⟨-, ledger, -, he⟩ <;> rw [he]
    exact map_place (fun g => by split <;> rfl) _
  | revoke rv now =>
    refine .inl ?_
    rw [← Option.some.inj hs]
    simp only [Revocation.apply_eq, revokeWhere]
    exact map_place (fun g => by split <;> rfl) _

theorem after_reservation {m : String} (hre : ∀ x, re = .rollback x → x.messageOutId ≠ m)
    (h : hasRosterReservation s.db.ledger m = true) : hasRosterReservation (s.after re).db.ledger m = true := by
  have hs := rosterStep_after s re
  cases re with
  | consent a =>
    simp only [rosterStep] at hs
    rw [← Option.some.inj hs]
    exact h
  | reserve x =>
    rcases rosterStep_reserve hs with he | ⟨-, ledger, hch, he⟩ <;> rw [he]
    · exact h
    · rw [hasRosterReservation_bump, chargeAll_marker (budgets_isRate x) hch, h]
      simp
  | rollback x =>
    rcases rosterStep_rollback hs with ⟨he, -⟩ | ⟨-, ledger, hrefund, he⟩ <;> rw [he]
    · exact h
    · have hsame : hasRosterReservation ledger m = hasRosterReservation s.db.ledger m :=
        (refundAll_le (.reserve m, reserveSentinelWindow) hrefund).1
      rw [hasRosterReservation_delete, if_neg (hre x rfl).symm, hsame, h]
  | revoke rv now =>
    rw [← Option.some.inj hs]
    exact h

theorem after_reserve_db (s : RosterState) (x : Send) : (s.after (.reserve x)).db = (reserveRosterSend s.db x).1 := by
  simp only [RosterState.after, rosterStep]
  split <;> rename_i hr <;> rw [hr] <;> rfl

/-- A fresh reservation stands. -/
theorem after_reserved {x : Send} (h : (reserveRosterSend s.db x).2 = some (.ok true)) :
    hasRosterReservation (s.after (.reserve x)).db.ledger x.messageOutId = true := by
  obtain ⟨-, -, ledger, -, he⟩ := reserveRosterSend_fresh.mp h
  rw [after_reserve_db, he, hasRosterReservation_bump]
  simp

theorem AutoRevoked.consent (h : AutoRevoked s) (a : InsertDmGrantArgs) : AutoRevoked (s.after (.consent a)) := by
  intro g hg hsome
  have hs := rosterStep_after s (.consent a)
  simp only [rosterStep] at hs
  rw [← Option.some.inj hs] at hg ⊢
  simp only at hg ⊢
  rcases insertDmGrant_cases s.db.grants a with he | ⟨g₁, -, he⟩ | ⟨hnew, he⟩ <;> rw [he] at hg ⊢ <;>
    simp only [reopenedBy] at hg ⊢
  · exact h g hg hsome
  · obtain ⟨g₀, hg₀, rfl⟩ := List.mem_map.mp hg
    by_cases hid : g₀.id = g₁.id
    · -- the renewed grant is open
      rw [if_pos hid] at hsome
      cases hsome
    · rw [if_neg hid] at hsome ⊢
      rw [Function.update_of_ne hid]
      exact h g₀ hg₀ hsome
  · rcases List.mem_append.mp hg with hg | hg
    · rw [Function.update_of_ne (hnew g hg)]
      exact h g hg hsome
    · rw [List.mem_singleton.mp hg] at hsome
      cases hsome

theorem AutoRevoked.reserve (h : AutoRevoked s) (x : Send) : AutoRevoked (s.after (.reserve x)) := by
  rcases rosterStep_reserve (rosterStep_after s (.reserve x)) with he | ⟨-, ledger, -, he⟩ <;> rw [he]
  · exact h
  · intro g hg hsome
    obtain ⟨g₀, hg₀, rfl⟩ := List.mem_map.mp hg
    by_cases hopen : (g₀.id = x.grantId && g₀.isOpen) = true
    · -- an open grant is revoked by the charge that brings it to its cap
      rw [if_pos hopen] at hsome ⊢
      simp only [Bool.and_eq_true] at hopen
      have hnone := (isOpen_iff.mp hopen.2).1
      refine .inr ?_
      simp only [DmGrantRow.charge, hnone] at hsome
      split at hsome
      · rename_i hcap
        simp [DmGrantRow.charge, DmGrantRow.capped, hcap]
      · cases hsome
    · rw [if_neg hopen] at hsome ⊢
      exact h g₀ hg₀ hsome

theorem AutoRevoked.rollback (h : AutoRevoked s) (x : Send) : AutoRevoked (s.after (.rollback x)) := by
  rcases rosterStep_rollback (rosterStep_after s (.rollback x)) with ⟨he, -⟩ | ⟨-, ledger, -, he⟩ <;> rw [he]
  · exact h
  · intro g hg hsome
    obtain ⟨g₀, hg₀, rfl⟩ := List.mem_map.mp hg
    by_cases hid : g₀.id = x.grantId
    · -- a refund opens a grant at its cap, and leaves another as it was
      rw [if_pos hid] at hsome ⊢
      cases hcap : g₀.capped with
      | true =>
        rw [DmGrantRow.refund, hcap] at hsome
        cases hsome
      | false =>
        rw [DmGrantRow.refund, hcap] at hsome
        have hrev := (h g₀ hg₀ hsome).resolve_right (by simp [hcap])
        exact .inl hrev
    · rw [if_neg hid] at hsome ⊢
      exact h g₀ hg₀ hsome

theorem AutoRevoked.revoke (h : AutoRevoked s) (rv : Revocation) (now : ℕ) :
    AutoRevoked (s.after (.revoke rv now)) := by
  have hs := rosterStep_after s (.revoke rv now)
  rw [← Option.some.inj hs]
  intro g hg hsome
  simp only [Revocation.apply_eq] at hg
  obtain ⟨g₀, hg₀, rfl⟩ := List.mem_map.mp hg
  by_cases hcov : (rv.covers g₀ && g₀.revokedAt.isNone) = true
  · rw [if_pos hcov]
    simp only [Bool.and_eq_true] at hcov
    refine .inl ?_
    simp only [coveredBy, Bool.or_eq_true, List.any_eq_true, Bool.and_eq_true, decide_eq_true_eq]
    exact .inr ⟨g₀, hg₀, rfl, hcov.1⟩
  · rw [if_neg hcov] at hsome ⊢
    refine (h g₀ hg₀ hsome).imp_left fun hrev => ?_
    simp only [coveredBy, hrev, Bool.true_or]

theorem AutoRevoked.after (h : AutoRevoked s) (re : RosterEvent) : AutoRevoked (s.after re) := by
  cases re with
  | consent a => exact h.consent a
  | reserve x => exact h.reserve x
  | rollback x => exact h.rollback x
  | revoke rv now => exact h.revoke rv now

/-- No two grants have one slot of one scope. -/
def SlotsApart (s : RosterState) : Prop := (s.db.grants.map fun g => (g.scopeId, g.slotLabel)).Nodup

theorem slots_eq (grants : List DmGrantRow) :
    (grants.map fun g => (g.scopeId, g.slotLabel)) = (grants.map DmGrantRow.place).map (·.2) := by
  rw [List.map_map]
  rfl

theorem getBySlot_eq (grants : List DmGrantRow) (scopeId slotLabel : String) :
    getBySlot grants scopeId slotLabel =
      Table.find (fun g : DmGrantRow => (g.scopeId, g.slotLabel)) grants (scopeId, slotLabel) := by
  unfold getBySlot Table.find
  congr 1
  funext g
  simp [Prod.mk.injEq, Bool.decide_and]

theorem SlotsApart.after (h : SlotsApart s) (re : RosterEvent) : SlotsApart (s.after re) := by
  unfold SlotsApart at h ⊢
  rw [slots_eq] at h ⊢
  rcases after_places s re with he | ⟨id, scopeId, slotLabel, hnone, he⟩ <;> rw [he]
  · exact h
  · rw [List.map_append, List.map_singleton, ← List.concat_eq_append]
    refine h.concat fun hmem => ?_
    rw [← slots_eq] at hmem
    obtain ⟨g, hg, hslot⟩ := List.mem_map.mp hmem
    rw [getBySlot_eq] at hnone
    exact Table.find_none hnone g hg hslot

/-! ### Reservations that stand -/

/-- The attempt made a reservation, and its adapter call is on its way. -/
def RosterAttempt.fresh (a : RosterAttempt) : Bool :=
  match a.phase with
  | .sending _ fresh => fresh
  | _ => false

/-- The attempt's grant is the one of its slot. -/
def RosterAttempt.Placed (s : RosterState) (a : RosterAttempt) : Prop :=
  (a.grant.id, hostScopeForSession a.session, a.slot) ∈ s.db.grants.map DmGrantRow.place

/-- The message of the attempt has a reservation. -/
def RosterAttempt.Reserved (s : RosterState) (a : RosterAttempt) : Prop :=
  hasRosterReservation s.db.ledger a.msg.id = true

/-- Nobody else has made a reservation of the message, at this moment or for a retry. -/
def RosterDesk.SoleReserver (st : RosterDesk) (i : ℕ) (m : String) : Prop :=
  (∀ j b, st.attempts j = some b → b.fresh = true → b.msg.id = m → j = i) ∧ ∀ k ∈ st.kept, k.msg.id ≠ m

structure RetryInv (st : RosterDesk) : Prop where
  slots : SlotsApart st.roster
  auto : AutoRevoked st.roster
  placed : ∀ i a, st.attempts i = some a → a.Placed st.roster
  own : ∀ i a x fresh, st.attempts i = some a → a.phase = .sending x fresh → x.messageOutId = a.msg.id
  reserved : ∀ i a, st.attempts i = some a → a.fresh = true → a.Reserved st.roster ∧ st.SoleReserver i a.msg.id
  kept : ∀ k ∈ st.kept, k.Placed st.roster ∧ k.Reserved st.roster

variable {st st' : RosterDesk} {i : ℕ} {a : RosterAttempt}

theorem RosterAttempt.Placed.after (h : a.Placed s) (re : RosterEvent) : a.Placed (s.after re) := by
  unfold RosterAttempt.Placed at h ⊢
  rcases after_places s re with he | ⟨id, scopeId, slotLabel, -, he⟩ <;> rw [he]
  · exact h
  · exact List.mem_append_left _ h

/-- A call, which takes nobody's reservation that stands. -/
theorem RetryInv.call (h : RetryInv st) (hre : ∀ x, re = .rollback x →
    (∀ i a, st.attempts i = some a → a.fresh = true → a.msg.id ≠ x.messageOutId) ∧
      ∀ k ∈ st.kept, k.msg.id ≠ x.messageOutId) : RetryInv { st with roster := st.roster.after re } where
  slots := h.slots.after re
  auto := h.auto.after re
  placed i a ha := (h.placed i a ha).after re
  own := h.own
  reserved i a ha hfresh := by
    obtain ⟨hres, hsole⟩ := h.reserved i a ha hfresh
    exact ⟨after_reservation (fun x hx => ((hre x hx).1 i a ha hfresh).symm) hres, hsole⟩
  kept k hk := by
    obtain ⟨hplaced, hres⟩ := h.kept k hk
    exact ⟨hplaced.after re, after_reservation (fun x hx => ((hre x hx).2 k hk).symm) hres⟩

theorem RetryInv.call' (h : RetryInv st) (hre : ∀ x, re ≠ .rollback x) :
    RetryInv { st with roster := st.roster.after re } :=
  h.call fun x hx => (hre x hx).elim

theorem setAttempt_some {o : Option RosterAttempt} {j : ℕ} {b : RosterAttempt}
    (h : (st.setAttempt i o).attempts j = some b) : (j = i ∧ o = some b) ∨ (j ≠ i ∧ st.attempts j = some b) :=
  Table.eq_of_update h

/-- An attempt is over. -/
theorem RetryInv.clear (h : RetryInv st) (i : ℕ) : RetryInv (st.setAttempt i none) := by
  have hold : ∀ j b, (st.setAttempt i none).attempts j = some b → st.attempts j = some b := by
    intro j b hb
    rcases setAttempt_some hb with ⟨-, hno⟩ | ⟨-, hb⟩
    · cases hno
    · exact hb
  refine ⟨h.slots, h.auto, fun j b hb => h.placed j b (hold j b hb),
    fun j b x fresh hb => h.own j b x fresh (hold j b hb), fun j b hb hfresh => ?_, h.kept⟩
  obtain ⟨hres, hsole, hkept⟩ := h.reserved j b (hold j b hb) hfresh
  exact ⟨hres, fun l c hc => hsole l c (hold l c hc), hkept⟩

/-- An attempt goes on. -/
theorem RetryInv.set (h : RetryInv st) (hplaced : a.Placed st.roster)
    (hown : ∀ x fresh, a.phase = .sending x fresh → x.messageOutId = a.msg.id)
    (hfresh : a.fresh = true → a.Reserved st.roster ∧ st.SoleReserver i a.msg.id) :
    RetryInv (st.setAttempt i (some a)) where
  slots := h.slots
  auto := h.auto
  placed j b hb := by
    rcases setAttempt_some hb with ⟨-, hab⟩ | ⟨-, hb⟩
    · cases hab
      exact hplaced
    · exact h.placed j b hb
  own j b x fresh hb := by
    rcases setAttempt_some hb with ⟨-, hab⟩ | ⟨-, hb⟩
    · cases hab
      exact hown x fresh
    · exact h.own j b x fresh hb
  reserved j b hb hbf := by
    rcases setAttempt_some hb with ⟨rfl, hab⟩ | ⟨hj, hb⟩
    · cases hab
      obtain ⟨hres, hsole, hkept⟩ := hfresh hbf
      refine ⟨hres, fun l c hc hcf hid => ?_, hkept⟩
      rcases setAttempt_some hc with ⟨hl, -⟩ | ⟨-, hc⟩
      · exact hl
      · exact hsole l c hc hcf hid
    · obtain ⟨hres, hsole, hkept⟩ := h.reserved j b hb hbf
      refine ⟨hres, fun l c hc hcf hid => ?_, hkept⟩
      rcases setAttempt_some hc with ⟨hl, hac⟩ | ⟨-, hc⟩
      · -- the attempt that goes on would be a second reserver of the message
        cases hac
        have hji := (hfresh hcf).2.1 j b hb hbf hid.symm
        exact (hj hji).elim
      · exact hsole l c hc hcf hid
  kept := h.kept

theorem RetryInv.send (h : RetryInv st) (i : ℕ) (env : HostEnv) (hplaced : a.Placed st.roster) (target : Target) :
    RetryInv (st.send i env a target) := by
  rcases send_cases st i env a target with ⟨-, he⟩ | ⟨fresh, hok, he⟩ <;> rw [he]
  · exact h.clear i
  · have hcall : RetryInv { st with roster := st.roster.after (.reserve (a.send env)) } :=
      h.call' fun x hx => (nomatch hx)
    have hset : RetryInv
        (RosterDesk.setAttempt { st with roster := st.roster.after (.reserve (a.send env)) } i
          (some { a with phase := .sending (a.send env) fresh })) := by
      refine hcall.set (hplaced.after _) (fun x f hx => ?_) fun hf => ?_
      · cases hx
        rfl
      · simp only [RosterAttempt.fresh] at hf
        subst hf
        -- there was no reservation, so nobody had made one
        have hno := (reserveRosterSend_fresh.mp hok).1
        refine ⟨?_, fun j b hb hbf hid => ?_, fun k hk hid => ?_⟩
        · exact after_reserved hok
        · have hres : hasRosterReservation st.roster.db.ledger b.msg.id = true := (h.reserved j b hb hbf).1
          rw [hid] at hres
          exact absurd hres (by rw [show a.msg.id = (a.send env).messageOutId from rfl, hno]; simp)
        · have hres : hasRosterReservation st.roster.db.ledger k.msg.id = true := (h.kept k hk).2
          rw [hid] at hres
          exact absurd hres (by rw [show a.msg.id = (a.send env).messageOutId from rfl, hno]; simp)
    exact ⟨hset.slots, hset.auto, hset.placed, hset.own, hset.reserved, hset.kept⟩

theorem RetryInv.afterTarget (h : RetryInv st) (i : ℕ) (env : HostEnv) (originGroup : Bool)
    (hplaced : a.Placed st.roster) (t : Except String Target) : RetryInv (st.afterTarget i env originGroup a t) := by
  rcases afterTarget_cases st i env originGroup a t with ⟨-, he⟩ | ⟨target, -, he⟩ | ⟨target, -, -, -, he⟩ <;> rw [he]
  · exact h.clear i
  · exact h.set hplaced (fun x fresh hx => (nomatch hx)) fun hf => (nomatch hf)
  · exact h.send i env hplaced target

/-- The grant an attempt begins with is in its slot. -/
theorem placed_begin {env : HostEnv} {session : Session} {msg : OutboundMessage} {content : List (String × Json)}
    {grant : DmGrantRow} {slot : String} {phase : AttemptPhase}
    (hgate : rosterGate { env with grants := st.roster.db.grants } session msg content = .ok grant)
    (hslot : slotOf content = some slot) :
    RosterAttempt.Placed st.roster ⟨session, msg, slot, grant, phase⟩ := by
  have hlive := rosterGate_live hgate hslot
  obtain ⟨hfound, -⟩ := checkGrantLive_ok.mp hlive
  have hmem := List.mem_of_find?_eq_some hfound
  rw [getBySlot_eq] at hfound
  obtain ⟨hscope, hlabel⟩ := Prod.mk.inj (Table.find_spec hfound).2
  refine List.mem_map.mpr ⟨grant, hmem, ?_⟩
  rw [DmGrantRow.place, hscope, hlabel]

theorem retryInv_step (st : RosterDesk) (e : RosterDeskEvent) (st' : RosterDesk) (h : RetryInv st)
    (hs : rosterDeskStep st e = some st') : RetryInv st' := by
  cases e with
  | consent c =>
    obtain rfl := Option.some.inj hs
    exact h.call' fun x hx => (nomatch hx)
  | revoke rv now =>
    obtain rfl := Option.some.inj hs
    exact h.call' fun x hx => (nomatch hx)
  | begin i env originGroup session msg content =>
    obtain ⟨-, rfl | ⟨grant, slot, hgate, hslot, rfl⟩⟩ := rosterDeskStep_begin hs
    · exact h
    · unfold RosterDesk.afterGate
      split
      · exact h.set (placed_begin hgate hslot) (fun x fresh hx => (nomatch hx)) fun hf => (nomatch hf)
      · exact h.afterTarget i env originGroup (placed_begin hgate hslot) _
  | authorized i env originGroup =>
    obtain ⟨a, ha, -, -, rfl⟩ := rosterDeskStep_authorized hs
    exact h.afterTarget i env originGroup (h.placed i a ha) _
  | verified i env =>
    obtain ⟨a, target, ha, -, ⟨-, rv, rfl⟩ | ⟨-, rfl⟩⟩ := rosterDeskStep_verified hs
    · exact (h.clear i).call' fun x hx => (nomatch hx)
    · exact h.send i env (h.placed i a ha) target
  | delivered i =>
    obtain ⟨a, x, fresh, -, -, rfl⟩ := rosterDeskStep_delivered hs
    exact h.clear i
  | timedOut i =>
    obtain ⟨a, x, fresh, ha, hphase, rfl⟩ := rosterDeskStep_timedOut hs
    have hclear := h.clear i
    cases fresh with
    | false => exact hclear
    | true =>
      obtain ⟨hres, hsole, -⟩ := h.reserved i a ha (by rw [RosterAttempt.fresh, hphase])
      refine ⟨hclear.slots, hclear.auto, hclear.placed, hclear.own, fun j b hb hbf => ?_, fun k hk => ?_⟩
      · obtain ⟨hresb, hsoleb, hkept⟩ := hclear.reserved j b hb hbf
        refine ⟨hresb, hsoleb, fun k hk => ?_⟩
        rcases List.mem_append.mp hk with hk | hk
        · exact hkept k hk
        · -- the attempt that timed out was the only one with a reservation of its message
          obtain rfl := List.mem_singleton.mp hk
          intro hid
          rcases setAttempt_some hb with ⟨-, hno⟩ | ⟨hj, hb⟩
          · cases hno
          · exact hj (hsole j b hb hbf hid.symm)
      · rcases List.mem_append.mp hk with hk | hk
        · exact h.kept k hk
        · obtain rfl := List.mem_singleton.mp hk
          exact ⟨h.placed i k ha, hres⟩
  | failed i =>
    obtain ⟨a, x, fresh, ha, hphase, rfl⟩ := rosterDeskStep_failed hs
    have hclear := h.clear i
    cases fresh with
    | false => exact hclear
    | true =>
      obtain ⟨-, hsole, hkept⟩ := h.reserved i a ha (by rw [RosterAttempt.fresh, hphase])
      have hx := h.own i a x true ha hphase
      refine hclear.call fun y hy => ?_
      cases hy
      rw [hx]
      refine ⟨fun j b hb hbf hid => ?_, hkept⟩
      rcases setAttempt_some hb with ⟨-, hno⟩ | ⟨hj, hb⟩
      · cases hno
      · exact hj (hsole j b hb hbf hid)

theorem retryInv_empty : RetryInv RosterDesk.empty where
  slots := List.nodup_nil
  auto _ hg := by cases hg
  placed _ _ ha := by cases ha
  own _ _ _ _ ha := by cases ha
  reserved _ _ ha := by cases ha
  kept _ hk := by cases hk

/-! ### Retries -/

/-- The live check lets a retry of `k` at `now` through, and its reservation stands for good. -/
def RosterDesk.Retriable (st : RosterDesk) (k : RosterAttempt) (now : ℕ) : Prop :=
  (∃ g, checkGrantLive st.roster.db.grants (hostScopeForSession k.session) k.slot now = .ok g) ∧
    ∀ es st', Trans.run rosterDeskStep st es = some st' → ∀ x, x.messageOutId = k.msg.id →
      reserveRosterSend st'.roster.db x = (st'.roster.db, some (.ok false))

theorem send_kept (st : RosterDesk) (i : ℕ) (env : HostEnv) (a : RosterAttempt) (target : Target) :
    (st.send i env a target).kept = st.kept := by
  rcases send_cases st i env a target with ⟨-, he⟩ | ⟨fresh, -, he⟩ <;> rw [he] <;> rfl

theorem afterTarget_kept (st : RosterDesk) (i : ℕ) (env : HostEnv) (originGroup : Bool) (a : RosterAttempt)
    (t : Except String Target) : (st.afterTarget i env originGroup a t).kept = st.kept := by
  rcases afterTarget_cases st i env originGroup a t with ⟨-, he⟩ | ⟨target, -, he⟩ | ⟨target, -, -, -, he⟩ <;> rw [he]
  · rfl
  · rfl
  · exact send_kept st i env a target

/-- A kept reservation is not forgotten. -/
theorem kept_step (st : RosterDesk) (e : RosterDeskEvent) (st' : RosterDesk) {k : RosterAttempt} (hk : k ∈ st.kept)
    (hs : rosterDeskStep st e = some st') : k ∈ st'.kept := by
  cases e with
  | consent c =>
    obtain rfl := Option.some.inj hs
    exact hk
  | revoke rv now =>
    obtain rfl := Option.some.inj hs
    exact hk
  | begin i env originGroup session msg content =>
    obtain ⟨-, rfl | ⟨grant, slot, -, -, rfl⟩⟩ := rosterDeskStep_begin hs
    · exact hk
    · unfold RosterDesk.afterGate
      split
      · exact hk
      · rwa [afterTarget_kept]
  | authorized i env originGroup =>
    obtain ⟨a, -, -, -, rfl⟩ := rosterDeskStep_authorized hs
    rwa [afterTarget_kept]
  | verified i env =>
    obtain ⟨a, target, -, -, ⟨-, rv, rfl⟩ | ⟨-, rfl⟩⟩ := rosterDeskStep_verified hs
    · exact hk
    · rwa [send_kept]
  | delivered i =>
    obtain ⟨a, x, fresh, -, -, rfl⟩ := rosterDeskStep_delivered hs
    exact hk
  | timedOut i =>
    obtain ⟨a, x, fresh, -, -, rfl⟩ := rosterDeskStep_timedOut hs
    cases fresh with
    | false => exact hk
    | true => exact List.mem_append_left _ hk
  | failed i =>
    obtain ⟨a, x, fresh, -, -, rfl⟩ := rosterDeskStep_failed hs
    exact hk

/-- The slot of a kept attempt still has its grant. -/
theorem RosterAttempt.Placed.found (h : SlotsApart s) (hplaced : a.Placed s) : ∃ g ∈ s.db.grants,
    g.id = a.grant.id ∧ getBySlot s.db.grants (hostScopeForSession a.session) a.slot = some g := by
  obtain ⟨g, hg, hplace⟩ := List.mem_map.mp hplaced
  obtain ⟨hid, hslot⟩ := Prod.mk.inj hplace
  have hfound : Table.find (fun g : DmGrantRow => (g.scopeId, g.slotLabel)) s.db.grants (g.scopeId, g.slotLabel) =
      some g := Table.find_of_nodup h hg
  refine ⟨g, hg, hid, ?_⟩
  rw [getBySlot_eq, ← hslot]
  exact hfound

/-- **When a timed-out send can be retried.** In every run, the slot of an attempt that timed out and kept its
reservation still has its grant; and at every moment at which nobody has revoked the grant since its last consent
and it has not expired, the live check lets a retry through, whose reservation is there at whatever moment the
retry asks for it, exactly when the grant is not at its cap. -/
theorem roster_retry_iff {es : List RosterDeskEvent} {st : RosterDesk}
    (hrun : Trans.run rosterDeskStep RosterDesk.empty es = some st) {k : RosterAttempt} (hk : k ∈ st.kept) :
    ∃ g ∈ st.roster.db.grants, g.id = k.grant.id ∧
      getBySlot st.roster.db.grants (hostScopeForSession k.session) k.slot = some g ∧
      ∀ now, g.consentSource ∈ allowedConsentSources → st.roster.books.revoked g.id = false → g.expired now = false →
        (st.Retriable k now ↔ g.capped = false) := by
  have hinv : RetryInv st := Trans.run_inv retryInv_step retryInv_empty hrun
  obtain ⟨g, hg, hid, hfound⟩ := (hinv.kept k hk).1.found hinv.slots
  refine ⟨g, hg, hid, hfound, fun now hsource hrev hexp => ?_⟩
  have hcapped : ¬(0 < g.maxSends ∧ g.maxSends ≤ g.sendsUsed) ↔ g.capped = false := by
    rw [← Bool.not_eq_true, DmGrantRow.capped, Bool.and_eq_true, decide_eq_true_eq, decide_eq_true_eq]
  constructor
  · rintro ⟨⟨g', hlive⟩, -⟩
    obtain ⟨hfound', -, -, -, hroom⟩ := checkGrantLive_ok.mp hlive
    obtain rfl := Option.some.inj (hfound.symm.trans hfound')
    exact hcapped.mp hroom
  · intro hcap
    refine ⟨⟨g, checkGrantLive_ok.mpr ⟨hfound, hsource, ?_, hexp, hcapped.mpr hcap⟩⟩, fun es' st' hrun' x hx => ?_⟩
    · -- below the cap only a revoke revokes
      by_contra hne
      rcases hinv.auto g hg (Option.isSome_iff_ne_none.mpr hne) with h | h
      · rw [hrev] at h
        cases h
      · rw [hcap] at h
        cases h
    · have hinv' : RetryInv st' := Trans.run_inv retryInv_step hinv hrun'
      have hk' : k ∈ st'.kept :=
        Trans.run_inv (I := fun st => k ∈ st.kept) (fun st e st' => kept_step st e st') hk hrun'
      have hres := (hinv'.kept k hk').2
      unfold RosterAttempt.Reserved at hres
      rw [← hx] at hres
      rw [reserveRosterSend_eq, if_pos hres]

/-- A message times out and another may follow. -/
theorem roster_retry_iff_sample :
    ∃ st k, Trans.run rosterDeskStep RosterDesk.empty
        [.consent openConsent, rosterBegin 0, .verified 0 rosterSampleEnv, .timedOut 0] = some st ∧ k ∈ st.kept ∧
      ∃ g ∈ st.roster.db.grants, g.id = k.grant.id ∧
        getBySlot st.roster.db.grants (hostScopeForSession k.session) k.slot = some g ∧
        ∀ now, g.consentSource ∈ allowedConsentSources → st.roster.books.revoked g.id = false →
          g.expired now = false → (st.Retriable k now ↔ g.capped = false) := by
  have hrun : Trans.run rosterDeskStep RosterDesk.empty
      [.consent openConsent, rosterBegin 0, .verified 0 rosterSampleEnv, .timedOut 0] = some _ := rfl
  exact ⟨_, _, hrun, .head _, roster_retry_iff hrun (.head _)⟩

/-- `ou_p` consents to one message, and the attempt that sends it times out. The retry is turned away, though the
reservation stands and nobody revoked anything. -/
theorem last_send_stuck :
    ∃ st k, Trans.run rosterDeskStep RosterDesk.empty
        [.consent sampleConsent, rosterBegin 0, .verified 0 rosterSampleEnv, .timedOut 0] = some st ∧ k ∈ st.kept ∧
      hasRosterReservation st.roster.db.ledger k.msg.id = true ∧ st.roster.books.revoked k.grant.id = false ∧
      checkGrantLive st.roster.db.grants (hostScopeForSession k.session) k.slot 60 = .error .revoked ∧
      (rosterDeskStep st (rosterBegin 1)).bind (fun st => (st.attempts 1).map RosterAttempt.slot) = none := by
  have hrun : Trans.run rosterDeskStep RosterDesk.empty
      [.consent sampleConsent, rosterBegin 0, .verified 0 rosterSampleEnv, .timedOut 0] = some _ := rfl
  exact ⟨_, _, hrun, .head _, rfl, rfl, rfl, rfl⟩

end AgentDesk
