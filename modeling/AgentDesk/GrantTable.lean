/-
# The table of grants

`dm_grants` has three keys: the id, the slot of a scope, and the participant of a scope. The upsert of
`insertDmGrant` has the slot for its target and renews only the slot's own participant; the third key refuses a
participant who has another slot of the scope; and what became of it all is read back from the slot.

A row is never deleted, and never becomes somebody else's. What is counted in it is changed by reservations and
rollbacks alone, so that a participant whose grant has sent all it may cannot consent to more.

* `rosterStep_rows`: what every call does to the rows.
* `grantKeys_step`: the three keys.
* `insertDmGrant_some_iff`: an id is returned for the slot that the participant holds.
* `grant_table`: all of it, over every sequence of calls.
-/
import AgentDesk.RosterRevocation

namespace AgentDesk

/-! ### One consent -/

/-- The row is the slot of the call, held by its participant. -/
def InsertDmGrantArgs.Holds (a : InsertDmGrantArgs) (g : DmGrantRow) : Prop :=
  g.scopeId = a.scopeId ∧ g.slotLabel = a.slotLabel ∧ g.participantOpenId = a.participantOpenId

variable {grants : List DmGrantRow} {a : InsertDmGrantArgs} {g g' : DmGrantRow}

theorem getBySlot_spec {scopeId slotLabel : String} (h : getBySlot grants scopeId slotLabel = some g) :
    g ∈ grants ∧ g.scopeId = scopeId ∧ g.slotLabel = slotLabel := by
  have hfound := List.find?_some h
  simp only [Bool.and_eq_true, decide_eq_true_eq] at hfound
  exact ⟨List.mem_of_find?_eq_some h, hfound⟩

theorem getBySlot_none {scopeId slotLabel : String} (h : getBySlot grants scopeId slotLabel = none) :
    ∀ g ∈ grants, ¬ (g.scopeId = scopeId ∧ g.slotLabel = slotLabel) := by
  intro g hg hslot
  have hno := List.find?_eq_none.mp h g hg
  simp [hslot] at hno

/-- A consent with a new id is refused, and its participant does not hold the slot; or renews the grant that it
holds; or adds one, in a free slot, for a participant without one. -/
theorem insertDmGrant_spec (hfresh : ∀ g ∈ grants, g.id ≠ a.id) :
    (insertDmGrant grants a = (grants, none) ∧
      ((∃ g, getBySlot grants a.scopeId a.slotLabel = some g ∧ g.participantOpenId ≠ a.participantOpenId) ∨
        getBySlot grants a.scopeId a.slotLabel = none)) ∨
    (∃ g, getBySlot grants a.scopeId a.slotLabel = some g ∧ g.participantOpenId = a.participantOpenId ∧
      insertDmGrant grants a = (Table.update (·.id) grants g.id a.renew, some g.id)) ∨
    (getBySlot grants a.scopeId a.slotLabel = none ∧
      (∀ g ∈ grants, ¬ (g.scopeId = a.scopeId ∧ g.participantOpenId = a.participantOpenId)) ∧
      insertDmGrant grants a = (grants ++ [a.row], some a.id)) := by
  have hnew : (grants.any fun g => g.id = a.id) = false := by simpa using hfresh
  unfold insertDmGrant
  rw [hnew, if_neg Bool.false_ne_true]
  cases hslot : getBySlot grants a.scopeId a.slotLabel with
  | some g =>
    dsimp only
    by_cases hown : g.participantOpenId = a.participantOpenId
    · rw [if_pos hown]
      exact .inr (.inl ⟨g, rfl, hown, rfl⟩)
    · rw [if_neg hown]
      exact .inl ⟨rfl, .inl ⟨g, rfl, hown⟩⟩
  | none =>
    dsimp only
    by_cases hother : (grants.any fun g => g.scopeId = a.scopeId && g.participantOpenId = a.participantOpenId) = true
    · rw [if_pos hother]
      exact .inl ⟨rfl, .inr rfl⟩
    · rw [if_neg hother]
      refine .inr (.inr ⟨rfl, fun g hg hg' => hother ?_, rfl⟩)
      exact List.any_eq_true.mpr ⟨g, hg, by simpa using hg'⟩

/-! ### Rows and keys -/

/-- The same grant: of the same participant, with the same limit. -/
structure SameHolder (g g' : DmGrantRow) : Prop where
  id : g'.id = g.id
  scope : g'.scopeId = g.scopeId
  slot : g'.slotLabel = g.slotLabel
  participant : g'.participantOpenId = g.participantOpenId
  limit : g'.maxSends = g.maxSends

theorem SameHolder.refl (g : DmGrantRow) : SameHolder g g := ⟨rfl, rfl, rfl, rfl, rfl⟩

theorem SameHolder.trans {g'' : DmGrantRow} (h : SameHolder g g') (h' : SameHolder g' g'') : SameHolder g g'' :=
  ⟨h'.id.trans h.id, h'.scope.trans h.scope, h'.slot.trans h.slot, h'.participant.trans h.participant,
    h'.limit.trans h.limit⟩

/-- What a call does to a row: only a rollback counts back, and only a reservation counts on. -/
structure KeptBy (e : RosterEvent) (g g' : DmGrantRow) : Prop extends SameHolder g g' where
  counted : (∀ x, e ≠ .rollback x) → g.sendsUsed ≤ g'.sendsUsed
  untouched : (∀ x, e ≠ .rollback x) → (∀ x, e ≠ .reserve x) → g'.sendsUsed = g.sendsUsed

theorem KeptBy.same (e : RosterEvent) (g : DmGrantRow) : KeptBy e g g :=
  ⟨.refl g, fun _ => Int.le_refl _, fun _ _ => rfl⟩

/-- The keys of the table. -/
structure GrantKeys (st : RosterState) : Prop where
  ids : UniqueIds st
  slots : (st.db.grants.map fun g => (g.scopeId, g.slotLabel)).Nodup
  participants : (st.db.grants.map fun g => (g.scopeId, g.participantOpenId)).Nodup

/-- A row that is added has a new id, a free slot, and a participant without a slot in the scope. -/
structure NewRow (grants : List DmGrantRow) (g : DmGrantRow) : Prop where
  id : ∀ r ∈ grants, r.id ≠ g.id
  slot : ∀ r ∈ grants, ¬ (r.scopeId = g.scopeId ∧ r.slotLabel = g.slotLabel)
  participant : ∀ r ∈ grants, ¬ (r.scopeId = g.scopeId ∧ r.participantOpenId = g.participantOpenId)

variable {st st' : RosterState} {e : RosterEvent}

/-- **What a call does to the rows.** Each stays the grant it is; at most one is added. -/
theorem rosterStep_rows (hids : UniqueIds st) (h : rosterStep st e = some st') :
    ∃ (f : DmGrantRow → DmGrantRow) (new : List DmGrantRow), st'.db.grants = st.db.grants.map f ++ new ∧
      (∀ g ∈ st.db.grants, KeptBy e g (f g)) ∧ (new = [] ∨ ∃ g, new = [g] ∧ NewRow st.db.grants g) := by
  have hunchanged : st'.db.grants = st.db.grants → ∃ (f : DmGrantRow → DmGrantRow) (new : List DmGrantRow),
      st'.db.grants = st.db.grants.map f ++ new ∧ (∀ g ∈ st.db.grants, KeptBy e g (f g)) ∧
        (new = [] ∨ ∃ g, new = [g] ∧ NewRow st.db.grants g) := by
    intro hsame
    exact ⟨id, [], by simp [hsame], fun g _ => KeptBy.same e g, .inl rfl⟩
  cases e with
  | consent a =>
    simp only [rosterStep] at h
    obtain rfl := Option.some.inj h
    by_cases hfresh : ∀ g ∈ st.db.grants, g.id ≠ a.id
    · rcases insertDmGrant_spec hfresh with ⟨he, -⟩ | ⟨g₀, hslot, hown, he⟩ | ⟨hslot, hpart, he⟩
      · exact hunchanged (by rw [he])
      · refine ⟨fun g => if g.id = g₀.id then a.renew g else g, [], ?_, fun g hg => ?_, .inl rfl⟩
        · rw [he, List.append_nil]
          rfl
        · dsimp only
          by_cases hid : g.id = g₀.id
          · -- the renewed row is the slot's, and its participant the one who consents
            obtain rfl := hids.eq_of_id hg (getBySlot_spec hslot).1 hid
            rw [if_pos rfl]
            exact ⟨⟨rfl, rfl, rfl, hown.symm, rfl⟩, fun _ => Int.le_refl _, fun _ _ => rfl⟩
          · rw [if_neg hid]
            exact KeptBy.same _ g
      · refine ⟨id, [a.row], by rw [he, List.map_id], fun g _ => KeptBy.same _ g, .inr ⟨a.row, rfl, ?_⟩⟩
        exact ⟨hfresh, getBySlot_none hslot, hpart⟩
    · refine hunchanged ?_
      push Not at hfresh
      obtain ⟨g, hg, hid⟩ := hfresh
      unfold insertDmGrant
      rw [if_pos (List.any_eq_true.mpr ⟨g, hg, by simpa using hid⟩)]
  | reserve x =>
    rcases rosterStep_reserve h with rfl | ⟨-, ledger, -, rfl⟩
    · exact hunchanged rfl
    · refine ⟨fun g => if g.id = x.grantId && g.isOpen then g.charge x.now else g, [], by simp, fun g _ => ?_, .inl rfl⟩
      dsimp only
      split
      · refine ⟨⟨rfl, rfl, rfl, rfl, rfl⟩, fun _ => ?_, fun _ hno => absurd rfl (hno x)⟩
        show g.sendsUsed ≤ g.sendsUsed + 1
        omega
      · exact KeptBy.same _ g
  | rollback x =>
    rcases rosterStep_rollback h with ⟨rfl, -⟩ | ⟨-, ledger, -, rfl⟩
    · exact hunchanged rfl
    · refine ⟨fun g => if g.id = x.grantId then g.refund else g, [], by simp, fun g _ => ?_, .inl rfl⟩
      dsimp only
      split
      · exact ⟨⟨rfl, rfl, rfl, rfl, rfl⟩, fun hno => absurd rfl (hno x), fun hno => absurd rfl (hno x)⟩
      · exact KeptBy.same _ g
  | revoke rv now =>
    simp only [rosterStep] at h
    obtain rfl := Option.some.inj h
    refine ⟨fun g => if rv.covers g && g.revokedAt.isNone then { g with revokedAt := some now } else g, [], ?_,
      fun g _ => ?_, .inl rfl⟩
    · rw [List.append_nil]
      exact rv.apply_eq st.db.grants now
    · dsimp only
      split
      · exact ⟨⟨rfl, rfl, rfl, rfl, rfl⟩, fun _ => Int.le_refl _, fun _ _ => rfl⟩
      · exact KeptBy.same _ g

theorem keys_of_rows {κ : Type} {key : DmGrantRow → κ} {rows new : List DmGrantRow} {f : DmGrantRow → DmGrantRow}
    (hkeys : (rows.map key).Nodup) (hf : ∀ g ∈ rows, key (f g) = key g)
    (hnew : new = [] ∨ ∃ g, new = [g] ∧ ∀ r ∈ rows, key r ≠ key g) : ((rows.map f ++ new).map key).Nodup := by
  have hmap : (rows.map f).map key = rows.map key := by
    rw [List.map_map]
    exact List.map_congr_left hf
  rw [List.map_append, hmap]
  rcases hnew with rfl | ⟨g, rfl, hg⟩
  · simpa using hkeys
  · rw [List.map_singleton, ← List.concat_eq_append]
    refine hkeys.concat fun hmem => ?_
    obtain ⟨r, hr, he⟩ := List.mem_map.mp hmem
    exact hg r hr he

theorem grantKeys_step (st : RosterState) (e : RosterEvent) (st' : RosterState) (h : GrantKeys st)
    (hstep : rosterStep st e = some st') : GrantKeys st' := by
  obtain ⟨f, new, hrows, hkept, hnew⟩ := rosterStep_rows h.ids hstep
  refine ⟨uniqueIds_step st e st' h.ids hstep, ?_, ?_⟩
  · rw [hrows]
    refine keys_of_rows h.slots (fun g hg => ?_) (hnew.imp_right ?_)
    · rw [(hkept g hg).scope, (hkept g hg).slot]
    · rintro ⟨g, rfl, hg⟩
      exact ⟨g, rfl, fun r hr he => hg.slot r hr (Prod.mk.inj he)⟩
  · rw [hrows]
    refine keys_of_rows h.participants (fun g hg => ?_) (hnew.imp_right ?_)
    · rw [(hkept g hg).scope, (hkept g hg).participant]
    · rintro ⟨g, rfl, hg⟩
      exact ⟨g, rfl, fun r hr he => hg.participant r hr (Prod.mk.inj he)⟩

theorem grantKeys_empty : GrantKeys RosterState.empty :=
  ⟨List.nodup_nil, List.nodup_nil, List.nodup_nil⟩

/-! ### What a consent returns -/

/-- A consent returns the id of the row, exactly when its participant holds the slot afterwards. -/
theorem insertDmGrant_some_iff (h : GrantKeys st) (hfresh : ∀ g ∈ st.db.grants, g.id ≠ a.id) (id : String) :
    (insertDmGrant st.db.grants a).2 = some id ↔
      ∃ g ∈ (insertDmGrant st.db.grants a).1, g.id = id ∧ a.Holds g := by
  rcases insertDmGrant_spec hfresh with ⟨he, hno⟩ | ⟨g₀, hslot, hown, he⟩ | ⟨hslot, -, he⟩ <;> rw [he]
  · constructor
    · intro hid
      cases hid
    · rintro ⟨g, hg, -, hscope, hlabel, hpart⟩
      rcases hno with ⟨g₀, hslot, hother⟩ | hslot
      · obtain ⟨hg₀, hscope₀, hlabel₀⟩ := getBySlot_spec hslot
        have hplace : (g.scopeId, g.slotLabel) = (g₀.scopeId, g₀.slotLabel) := by
          rw [hscope, hlabel, hscope₀, hlabel₀]
        rw [List.inj_on_of_nodup_map h.slots hg hg₀ hplace] at hpart
        exact absurd hpart hother
      · exact absurd ⟨hscope, hlabel⟩ (getBySlot_none hslot g hg)
  · obtain ⟨hg₀, hscope₀, hlabel₀⟩ := getBySlot_spec hslot
    constructor
    · intro hid
      refine ⟨a.renew g₀, List.mem_map.mpr ⟨g₀, hg₀, if_pos rfl⟩, Option.some.inj hid, hscope₀, hlabel₀, rfl⟩
    · rintro ⟨g, hg, rfl, hscope, hlabel, -⟩
      obtain ⟨g₁, hg₁, rfl⟩ := List.mem_map.mp hg
      by_cases hid : g₁.id = g₀.id
      · rw [if_pos hid]
        exact congrArg some hid.symm
      · rw [if_neg hid] at hscope hlabel ⊢
        have hplace : (g₁.scopeId, g₁.slotLabel) = (g₀.scopeId, g₀.slotLabel) := by
          rw [hscope, hlabel, hscope₀, hlabel₀]
        rw [List.inj_on_of_nodup_map h.slots hg₁ hg₀ hplace]
  · constructor
    · intro hid
      exact ⟨a.row, List.mem_append_right _ (List.mem_singleton_self _), Option.some.inj hid, rfl, rfl, rfl⟩
    · rintro ⟨g, hg, rfl, hscope, hlabel, -⟩
      rcases List.mem_append.mp hg with hg | hg
      · exact absurd ⟨hscope, hlabel⟩ (getBySlot_none hslot g hg)
      · rw [List.mem_singleton.mp hg]
        rfl

/-! ### Over runs -/

theorem capped_refused {x : Send} (h : GrantKeys st) (hg : g ∈ st.db.grants) (hcap : g.capped = true)
    (hx : x.grantId = g.id) : (reserveRosterSend st.db x).2 ≠ some (.ok true) := by
  intro hok
  obtain ⟨-, ⟨g', hg', hid, hopen⟩, -⟩ := reserveRosterSend_fresh.mp hok
  rw [h.ids.eq_of_id hg' hg (hid.trans hx)] at hopen
  unfold DmGrantRow.isOpen at hopen
  unfold DmGrantRow.capped at hcap
  simp only [Bool.and_eq_true, Bool.or_eq_true, decide_eq_true_eq] at hopen hcap
  omega

theorem run_rows {es : List RosterEvent} (h : GrantKeys st) (hrun : Trans.run rosterStep st es = some st')
    (hg : g ∈ st.db.grants) : ∃ g' ∈ st'.db.grants, SameHolder g g' ∧
      ((∀ x, .rollback x ∉ es) → g.sendsUsed ≤ g'.sendsUsed ∧
        ((∀ x, .reserve x ∉ es) → g'.sendsUsed = g.sendsUsed)) := by
  induction es generalizing st g with
  | nil =>
    obtain rfl := Option.some.inj hrun
    exact ⟨g, hg, .refl g, fun _ => ⟨Int.le_refl _, fun _ => rfl⟩⟩
  | cons e es ih =>
    obtain ⟨st₁, hstep, hrest⟩ := Trans.run_cons.mp hrun
    obtain ⟨f, new, hrows, hkept, -⟩ := rosterStep_rows h.ids hstep
    have hg₁ : f g ∈ st₁.db.grants := by
      rw [hrows]
      exact List.mem_append_left _ (List.mem_map_of_mem hg)
    obtain ⟨g', hg', hsame, hcount⟩ := ih (grantKeys_step st e st₁ h hstep) hrest hg₁
    refine ⟨g', hg', (hkept g hg).toSameHolder.trans hsame, fun hback => ?_⟩
    have hback₁ : ∀ x, e ≠ .rollback x := fun x he => hback x (he ▸ .head _)
    obtain ⟨hle, heq⟩ := hcount fun x hx => hback x (.tail _ hx)
    refine ⟨Int.le_trans ((hkept g hg).counted hback₁) hle, fun hres => ?_⟩
    rw [heq fun x hx => hres x (.tail _ hx), (hkept g hg).untouched hback₁ fun x he => hres x (he ▸ .head _)]

/-- **The table of grants.** After any sequence of consents, reservations, rollbacks and revokes: the keys are
keys; a consent with a new id returns a row's id exactly when its participant holds the slot by that row; and
through whatever comes later every row stays, of the same participant and with the same limit. Consents and
revokes leave what it has sent, nothing but a rollback lowers it; and until a rollback, a grant that has sent all
it may is refused, and its participant has no other in the scope. -/
theorem grant_table {es : List RosterEvent} (hrun : Trans.run rosterStep RosterState.empty es = some st) :
    GrantKeys st ∧
      (∀ a : InsertDmGrantArgs, (∀ g ∈ st.db.grants, g.id ≠ a.id) → ∀ id,
        (insertDmGrant st.db.grants a).2 = some id ↔
          ∃ g ∈ (insertDmGrant st.db.grants a).1, g.id = id ∧ a.Holds g) ∧
      ∀ later st', Trans.run rosterStep st later = some st' → ∀ g ∈ st.db.grants,
        ∃ g' ∈ st'.db.grants, SameHolder g g' ∧
          ((∀ x, .rollback x ∉ later) → g.sendsUsed ≤ g'.sendsUsed ∧
            ((∀ x, .reserve x ∉ later) → g'.sendsUsed = g.sendsUsed) ∧
            (g.capped = true →
              (∀ x : Send, x.grantId = g.id → (reserveRosterSend st'.db x).2 ≠ some (.ok true)) ∧
                ∀ r ∈ st'.db.grants, r.scopeId = g.scopeId → r.participantOpenId = g.participantOpenId →
                  r.id = g.id)) := by
  have hkeys : GrantKeys st := Trans.run_inv grantKeys_step grantKeys_empty hrun
  refine ⟨hkeys, fun a hfresh id => insertDmGrant_some_iff hkeys hfresh id, fun later st' hlater g hg => ?_⟩
  have hkeys' : GrantKeys st' := Trans.run_inv grantKeys_step hkeys hlater
  obtain ⟨g', hg', hsame, hcount⟩ := run_rows hkeys hlater hg
  refine ⟨g', hg', hsame, fun hback => ?_⟩
  obtain ⟨hle, heq⟩ := hcount hback
  refine ⟨hle, heq, fun hcap => ⟨fun x hx => ?_, fun r hr hscope hpart => ?_⟩⟩
  · have hcap' : g'.capped = true := by
      unfold DmGrantRow.capped at hcap ⊢
      simp only [Bool.and_eq_true, decide_eq_true_eq] at hcap ⊢
      rw [hsame.limit]
      omega
    exact capped_refused hkeys' hg' hcap' (hx.trans hsame.id.symm)
  · have hkey : (r.scopeId, r.participantOpenId) = (g'.scopeId, g'.participantOpenId) := by
      rw [hscope, hpart, hsame.scope, hsame.participant]
    rw [List.inj_on_of_nodup_map hkeys'.participants hr hg' hkey, hsame.id]

/-- Ann holds a slot; Bob's consent to it is refused, and she stays its participant. -/
theorem grant_table_sample : ∃ st st' id,
    Trans.run rosterStep RosterState.empty [.consent sampleConsent] = some st ∧
      Trans.run rosterStep st [.consent { sampleConsent with id := "g2", participantOpenId := "ou_q" }] = some st' ∧
      (insertDmGrant st.db.grants { sampleConsent with id := "g3" }).2 = some id ∧
      (∀ g ∈ st.db.grants, ∃ g' ∈ st'.db.grants, SameHolder g g') ∧ st.db.grants ≠ [] := by
  have hrun : ∃ st, Trans.run rosterStep RosterState.empty [.consent sampleConsent] = some st := ⟨_, rfl⟩
  obtain ⟨st, hst⟩ := hrun
  obtain ⟨-, hreturned, hlater⟩ := grant_table hst
  have hrows : st.db.grants = [sampleConsent.row] := by
    rw [← Option.some.inj hst]
    rfl
  have hagain : ∃ st', Trans.run rosterStep st
      [.consent { sampleConsent with id := "g2", participantOpenId := "ou_q" }] = some st' := ⟨_, rfl⟩
  obtain ⟨st', hst'⟩ := hagain
  refine ⟨st, st', "g", hst, hst', ?_, fun g hg => ?_, by simp [hrows]⟩
  · refine (hreturned { sampleConsent with id := "g3" } ?_ "g").mpr ?_
    · rw [hrows]
      simp [sampleConsent, InsertDmGrantArgs.row]
    · rw [hrows]
      exact ⟨{ sampleConsent with id := "g3" }.renew sampleConsent.row, .head _, rfl, rfl, rfl, rfl⟩
  · obtain ⟨g', hg', hsame, -⟩ := hlater _ st' hst' g hg
    exact ⟨g', hg', hsame⟩

end AgentDesk
