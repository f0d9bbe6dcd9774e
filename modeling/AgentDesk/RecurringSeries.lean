/-
# A recurring series goes on

Of a recurring series one row is to carry on: a live one, or one that is
completed and still has its recurrence, so that the sweep's recurrence loop will
clone it. Two things take that away. The clone is an insert and then a separate
clear of the old row, so that a host that stops in between (or whose second
statement throws) leaves two rows, and each of them will have successors of its
own. And an occurrence whose container died too often is marked `failed`, a
status the loop never looks at: the series ends. An occurrence whose failure the
container itself reports is completed by `syncProcessingAcks`, and goes on.

* `series_forked`: a clone that is inserted and not followed by the clear.
* `series_goes_on_iff`: from the creation of a series with a recurrence on, along
  steps that neither cancel it nor take its recurrence, exactly one row carries
  it in every state, exactly when neither of the two happens.

A series is the rows with its id, of whatever kind. The cron parser's answer is
the event's: a recurrence it refuses is never cloned, and its row stays.
-/
import AgentDesk.TaskSeries

namespace AgentDesk

variable {c : Option ℤ} {s s' : SweepState} {e : SweepEvent} {S : String}

/-! ### The property and the condition -/

/-- The row is live, or waits to be cloned. -/
def QueueRow.carries (r : QueueRow) : Prop :=
  r.live = true ∨ (r.status = .completed ∧ r.recurrence.isSome = true)

/-- Exactly one row carries the series. -/
def OneCarrier (S : String) (s : SweepState) : Prop := ∃! r, r ∈ s.rows ∧ r.seriesId = S ∧ r.carries

/-- The event creates the series, with a recurrence. -/
def Creates (S : String) (s : SweepState) : SweepEvent → Prop
  | .insertTask t => t.id = S ∧ t.recurrence.isSome = true ∧ (insertTask s.rows s.sessionId t).isSome = true
  | .insertMessage m processAfter recurrence => m.id = S ∧ recurrence.isSome = true ∧
      (insertMessage s.rows s.sessionId m processAfter recurrence).isSome = true
  | _ => False

/-- The event cancels a live row of the series, or takes its recurrence. -/
def Ends (S : String) (s : SweepState) : SweepEvent → Prop
  | .cancelTask taskId => ∃ r ∈ s.rows, r.seriesId = S ∧ r.named taskId = true ∧ r.live = true
  | .updateTask taskId u => u.recurrence = some none ∧ (updateTask s.rows taskId u).isSome = true ∧
      ∃ r ∈ s.rows, r.seriesId = S ∧ r.named taskId = true ∧ r.live = true
  | _ => False

/-- The event does not give up a row of the series that has run out of tries, and does not insert a clone
without clearing its original. -/
def KeepsSeries (S : String) (s : SweepState) : SweepEvent → Prop
  | .reset => ∀ start messageId claims, s.sweep = .resetting start (messageId :: claims) → ∀ r ∈ s.rows,
      r.id = messageId → r.seriesId = S → r.status = .pending → r.rescheduled start = false → r.tries < maxTries
  | .recur (.next newId _ false) => ∀ msg queue, s.sweep = .recurring (msg :: queue) → msg.seriesId = S →
      ∃ r ∈ s.rows, r.id = newId
  | _ => True

/-- The rows in the recurrence loop recur. -/
def QueueRecurs (s : SweepState) : Prop :=
  ∀ queue, s.sweep = .recurring queue → ∀ msg ∈ queue, msg.recurrence.isSome = true

/-- One row carries the series and recurs; the others are completed and will not be cloned. -/
structure SeriesGoing (S : String) (s : SweepState) : Prop where
  inv : SweepInv s
  rooted : ∃ q ∈ s.rows, q.id = S
  queued : QueueRecurs s
  carrier : ∃ r ∈ s.rows, r.seriesId = S ∧ r.carries ∧ r.recurrence.isSome = true ∧
    ∀ r' ∈ s.rows, r'.seriesId = S → r' ≠ r → r'.status = .completed ∧ r'.recurrence = none

theorem not_carries_of_rest {r : QueueRow} (h : r.status = .completed ∧ r.recurrence = none) : ¬ r.carries := by
  rintro (hlive | ⟨-, hrec⟩)
  · simp [QueueRow.live, h.1] at hlive
  · rw [h.2] at hrec
    cases hrec

theorem SeriesGoing.oneCarrier (hJ : SeriesGoing S s) : OneCarrier S s := by
  obtain ⟨r, hr, hS, hc, -, hothers⟩ := hJ.carrier
  refine ⟨r, ⟨hr, hS, hc⟩, ?_⟩
  rintro r' ⟨hr', hS', hc'⟩
  by_contra hne
  exact not_carries_of_rest (hothers r' hr' hS' hne) hc'

/-! ### Rows -/

theorem RowMove.rests {r r' : QueueRow} (h : RowMove s e r r') (hrest : r.status = .completed ∧ r.recurrence = none) :
    r'.status = .completed ∧ r'.recurrence = none := by
  rcases h.of_completed hrest.1 with rfl | ⟨-, -, -, -, -, -, rfl⟩
  · exact hrest
  · exact ⟨hrest.1, rfl⟩

theorem RowMove.carried {r r' : QueueRow} (h : RowMove s e r r') (hr : r ∈ s.rows) (hS : r.seriesId = S)
    (hc : r.carries) (hrec : r.recurrence.isSome = true) (hkeeps : KeepsSeries S s e)
    (hcancel : ∀ taskId, e = .cancelTask taskId → ¬ (r.named taskId = true ∧ r.live = true))
    (hupdate : ∀ taskId u, e = .updateTask taskId u →
      u.recurrence ≠ some none ∨ ¬ (r.named taskId = true ∧ r.live = true))
    (hclear : ∀ msg queue newId nextRun, s.sweep = .recurring (msg :: queue) →
      e = .recur (.next newId nextRun true) → r.id ≠ msg.id) :
    r'.carries ∧ r'.recurrence.isSome = true := by
  cases h with
  | same => exact ⟨hc, hrec⟩
  | completed => exact ⟨.inr ⟨rfl, hrec⟩, hrec⟩
  | failed hphase hpending hdue htries =>
    have hlt := hkeeps _ _ _ hphase r hr rfl hS hpending hdue
    omega
  | retried _ hpending =>
    have hlive : r.live = true := by simp [QueueRow.live, hpending]
    exact ⟨.inl hlive, hrec⟩
  | requeued hfailed =>
    rcases hc with hlive | ⟨hdone, -⟩
    · simp [QueueRow.live, hfailed] at hlive
    · rw [hfailed] at hdone
      cases hdone
  | cancelled hnamed hlive => exact absurd ⟨hnamed, hlive⟩ (hcancel _ rfl)
  | paused => exact ⟨.inl rfl, hrec⟩
  | resumed => exact ⟨.inl rfl, hrec⟩
  | updated u hnamed hlive =>
    refine ⟨.inl hlive, ?_⟩
    change (u.recurrence.getD r.recurrence).isSome = true
    rcases hupdate _ _ rfl with hne | hno
    · rcases hu : u.recurrence with _ | _ | cron
      · exact hrec
      · exact absurd hu hne
      · rfl
    · exact absurd ⟨hnamed, hlive⟩ hno
  | cleared hphase hid => exact absurd hid (hclear _ _ _ _ hphase rfl)

theorem queueRecurs_step (hQ : QueueRecurs s) (h : sweepStep c s e = some s') : QueueRecurs s' := by
  intro queue hphase msg hmsg
  rcases sweepStep_recurring h hphase with ⟨rfl, -⟩ | ⟨msg₀, -, hbefore, -⟩ | ⟨hbefore, -⟩
  · exact (mem_getCompletedRecurring hmsg).2.2
  · exact hQ _ hbefore msg (.tail _ hmsg)
  · exact hQ _ hbefore msg hmsg

theorem root_step (hJ : SeriesGoing S s) (h : sweepStep c s e = some s') : ∃ q ∈ s'.rows, q.id = S := by
  obtain ⟨q, hq, hid⟩ := hJ.rooted
  obtain ⟨q', hq', hmove⟩ := sweepStep_persists hJ.inv h hq
  exact ⟨q', hq', hmove.id_eq.trans hid⟩

theorem SeriesGoing.eq_of_awaiting (hJ : SeriesGoing S s) {msg : QueueRow} {queue : List QueueRow}
    (hphase : s.sweep = .recurring (msg :: queue)) {r : QueueRow}
    (hothers : ∀ r' ∈ s.rows, r'.seriesId = S → r' ≠ r → r'.status = .completed ∧ r'.recurrence = none)
    (hS : msg.seriesId = S) : r.id = msg.id ∧ r.status = .completed := by
  obtain ⟨r₀, hr₀, hid, -, hseries, hdone, hrec⟩ := (hJ.inv.queued _ hphase).2 msg (.head _)
  by_cases heq : r₀ = r
  · rw [← heq]
    exact ⟨hid, hdone⟩
  · have hrest := hothers r₀ hr₀ (hseries.trans hS) heq
    rw [hrest.2] at hrec
    cases hrec

/-! ### Steps -/

/-- A clone's id is taken and nothing happens, or the next occurrence is inserted and, unless that
statement is not reached, the old row's recurrence cleared. -/
theorem clone_rows {msg : QueueRow} {queue : List QueueRow} {newId : String} {nextRun : Stamp} {cleared : Bool}
    (hphase : s.sweep = .recurring (msg :: queue))
    (h : sweepStep c s (.recur (.next newId nextRun cleared)) = some s') :
    ((∃ r ∈ s.rows, r.id = newId) ∧ s'.rows = s.rows) ∨
      ((∀ r ∈ s.rows, r.id ≠ newId) ∧ ∃ new : QueueRow, new.id = newId ∧ new.seriesId = msg.seriesId ∧
        new.status = .pending ∧ new.recurrence = msg.recurrence ∧
        s'.rows = if cleared then clearRecurrence (s.rows ++ [new]) msg.id else s.rows ++ [new]) := by
  simp only [sweepStep, hphase, Option.some.injEq] at h
  subst h
  simp only [recurRow]
  cases hi : insertRecurrence s.rows msg newId nextRun with
  | none =>
    refine .inl ⟨?_, rfl⟩
    unfold insertRecurrence insertRow at hi
    split at hi
    · rename_i htaken
      obtain ⟨r, hr⟩ := Option.isSome_iff_exists.mp htaken
      exact ⟨r, Table.find_spec hr⟩
    · cases hi
  | some rows' =>
    obtain ⟨hfree, seq, rfl⟩ := insertRow_spec hi
    exact .inr ⟨Table.find_none hfree, { msg.next newId nextRun with seq := seq }, rfl, rfl, rfl, rfl, rfl⟩

theorem SeriesGoing.cloned (hJ : SeriesGoing S s) {msg new : QueueRow} {queue : List QueueRow}
    (hphase : s.sweep = .recurring (msg :: queue)) (hS : msg.seriesId = S)
    (hfree : ∀ r ∈ s.rows, r.id ≠ new.id) (hseries : new.seriesId = msg.seriesId) (hpending : new.status = .pending)
    (hrec : new.recurrence = msg.recurrence) (hrows : s'.rows = clearRecurrence (s.rows ++ [new]) msg.id) :
    ∃ r ∈ s'.rows, r.seriesId = S ∧ r.carries ∧ r.recurrence.isSome = true ∧
      ∀ r' ∈ s'.rows, r'.seriesId = S → r' ≠ r → r'.status = .completed ∧ r'.recurrence = none := by
  obtain ⟨r, hr, -, -, -, hothers⟩ := hJ.carrier
  obtain ⟨hid, hdone⟩ := hJ.eq_of_awaiting hphase hothers hS
  have hmem : ∀ r', r' ∈ s'.rows ↔
      ∃ x ∈ s.rows ++ [new], (if x.id = msg.id then { x with recurrence := none } else x) = r' := by
    intro r'
    rw [hrows]
    exact List.mem_map
  -- the new row has an id of its own, so the clear passes it over
  have hne : new.id ≠ msg.id := fun heq => hfree r hr (hid.trans heq.symm)
  refine ⟨new, (hmem new).mpr ⟨new, by simp, if_neg hne⟩, hseries.trans hS, .inl (by simp [QueueRow.live, hpending]),
    ?_, ?_⟩
  · rw [hrec]
    exact hJ.queued _ hphase msg (.head _)
  · intro r' hr' hS' hne'
    obtain ⟨x, hx, rfl⟩ := (hmem r').mp hr'
    rcases List.mem_append.mp hx with hx | hx
    · by_cases hxid : x.id = msg.id
      · rw [if_pos hxid]
        obtain rfl : x = r := eq_of_id hJ.inv.unique hx hr (hxid.trans hid.symm)
        exact ⟨hdone, rfl⟩
      · rw [if_neg hxid] at hS' ⊢
        refine hothers x hx hS' ?_
        rintro rfl
        exact hxid hid
    · rw [List.mem_singleton.mp hx, if_neg hne] at hne'
      exact absurd rfl hne'

theorem SeriesGoing.moved (hJ : SeriesGoing S s) (h : sweepStep c s e = some s')
    (hborn : ∀ r', Born s e r' → r'.seriesId ≠ S)
    (hcarried : ∀ r r', r ∈ s.rows → RowMove s e r r' → r.seriesId = S → r.carries → r.recurrence.isSome = true →
      r'.carries ∧ r'.recurrence.isSome = true) :
    ∃ r ∈ s'.rows, r.seriesId = S ∧ r.carries ∧ r.recurrence.isSome = true ∧
      ∀ r' ∈ s'.rows, r'.seriesId = S → r' ≠ r → r'.status = .completed ∧ r'.recurrence = none := by
  obtain ⟨r, hr, hS, hc, hrec, hothers⟩ := hJ.carrier
  obtain ⟨r₁, hr₁, hmove⟩ := sweepStep_persists hJ.inv h hr
  obtain ⟨hc₁, hrec₁⟩ := hcarried r r₁ hr hmove hS hc hrec
  refine ⟨r₁, hr₁, hmove.seriesId_eq.trans hS, hc₁, hrec₁, ?_⟩
  intro r' hr' hS' hne
  rcases sweepStep_row hJ.inv h hr' with ⟨r₀, hr₀, hmove₀⟩ | ⟨hb, -⟩
  · refine hmove₀.rests (hothers r₀ hr₀ (hmove₀.seriesId_eq.symm.trans hS') ?_)
    rintro rfl
    have hids : r'.id = r₁.id := hmove₀.id_eq.trans hmove.id_eq.symm
    exact hne (eq_of_id (sweepInv_step s e s' hJ.inv h).unique hr' hr₁ hids)
  · exact absurd hS' (hborn r' hb)

/-- **One step.** A series that goes on, and is not ended, goes on after a step that keeps it. -/
theorem seriesGoing_step (hJ : SeriesGoing S s) (h : sweepStep c s e = some s') (hgo : ¬ Ends S s e)
    (hkeeps : KeepsSeries S s e) : SeriesGoing S s' := by
  refine ⟨sweepInv_step s e s' hJ.inv h, root_step hJ h, queueRecurs_step hJ.queued h, ?_⟩
  by_cases hsame : s'.rows = s.rows
  · rw [hsame]
    exact hJ.carrier
  by_cases hclone : ∃ msg queue newId nextRun cleared, s.sweep = .recurring (msg :: queue) ∧
      e = .recur (.next newId nextRun cleared) ∧ msg.seriesId = S
  · obtain ⟨msg, queue, newId, nextRun, cleared, hphase, rfl, hS⟩ := hclone
    rcases clone_rows hphase h with ⟨-, heq⟩ | ⟨hfree, new, rfl, hseries, hpending, hrec, hrows⟩
    · exact absurd heq hsame
    · cases cleared with
      | false =>
        obtain ⟨r, hr, hid⟩ := hkeeps msg queue hphase hS
        exact absurd hid (hfree r hr)
      | true => exact hJ.cloned hphase hS hfree hseries hpending hrec hrows
  · refine hJ.moved h ?_ ?_
    · intro r' hb hS'
      obtain ⟨q, hq, hqid⟩ := hJ.rooted
      have hfresh : ∀ new : QueueRow, new.seriesId = new.id → new.seriesId = S →
          ∀ rows, insertRow s.rows new = some rows → False := by
        intro new hown hnew rows hi
        exact Table.find_none (insertRow_spec hi).1 q hq (hqid.trans (hnew.symm.trans hown))
      cases hb with
      | message m processAfter recurrence seq =>
        cases hi : insertMessage s.rows s.sessionId m processAfter recurrence with
        | none =>
          simp only [sweepStep, hi, Option.some.injEq] at h
          exact hsame (by rw [← h]; rfl)
        | some rows => exact hfresh _ rfl hS' rows hi
      | task t seq =>
        cases hi : insertTask s.rows s.sessionId t with
        | none =>
          simp only [sweepStep, hi, Option.some.injEq] at h
          exact hsame (by rw [← h]; rfl)
        | some rows => exact hfresh _ rfl hS' rows hi
      | next hphase newId nextRun cleared seq => exact hclone ⟨_, _, _, _, _, hphase, rfl, hS'⟩
    · intro r r' hr hmove hS hc hrec
      refine hmove.carried hr hS hc hrec hkeeps ?_ ?_ ?_
      · rintro taskId rfl ⟨hnamed, hlive⟩
        exact hgo ⟨r, hr, hS, hnamed, hlive⟩
      · rintro taskId u rfl
        by_contra hno
        rw [not_or, not_not, not_not] at hno
        refine hgo ⟨hno.1, ?_, r, hr, hS, hno.2⟩
        cases hu : updateTask s.rows taskId u with
        | none =>
          simp only [sweepStep, hu, Option.some.injEq] at h
          exact absurd (by rw [← h]; rfl) hsame
        | some _ => rfl
      · intro msg queue newId nextRun hphase he hid
        obtain ⟨r₀, hr₀, hid₀, -, hseries, -⟩ := (hJ.inv.queued _ hphase).2 msg (.head _)
        obtain rfl : r₀ = r := eq_of_id hJ.inv.unique hr₀ hr (hid₀.trans hid.symm)
        exact hclone ⟨msg, queue, newId, nextRun, true, hphase, he, hseries.symm.trans hS⟩

/-- After a step that does not keep the series, no row carries it, or two do. -/
theorem keepsSeries_of_oneCarrier (hJ : SeriesGoing S s) (h : sweepStep c s e = some s') (hone : OneCarrier S s') :
    KeepsSeries S s e := by
  obtain ⟨r, hr, hS, hc, hrec, hothers⟩ := hJ.carrier
  obtain ⟨r', ⟨hr', hS', hc'⟩, hunique⟩ := hone
  cases e with
  | reset =>
    intro start messageId claims hphase r₁ hr₁ hid hS₁ hpending hdue
    by_contra htries
    -- the row that carries the series is the pending one, and it has just been given up
    obtain rfl : r₁ = r := by
      by_contra hne
      have hrest := hothers r₁ hr₁ hS₁ hne
      rw [hpending] at hrest
      cases hrest.1
    rcases sweepStep_row hJ.inv h hr' with ⟨r₀, hr₀, hmove⟩ | ⟨hb, -⟩
    · by_cases heq : r₀ = r₁
      · subst heq
        have hrows : s'.rows = markMessageFailed s.rows r₀.id := by
          simp only [sweepStep, hphase, Option.some.injEq] at h
          rw [← h]
          have hfind : Table.find (·.id) s.rows messageId = some r₀ := by
            rw [← hid]
            exact Table.find_of_nodup hJ.inv.unique hr₀
          have hretry : getMessageForRetry s.rows messageId .pending = some r₀ := by
            simp [getMessageForRetry, hfind, Option.filter, hpending]
          simp [resetRow, hretry, hdue, not_lt.mp htries]
        rw [hrows] at hr'
        obtain ⟨x, hx, rfl⟩ := List.mem_map.mp hr'
        have hxid : x.id = r₀.id := by
          have := hmove.id_eq
          split at this <;> exact this
        rw [if_pos hxid] at hc'
        rcases hc' with hlive | ⟨hdone, -⟩
        · cases hlive
        · cases hdone
      · have hrest := hothers r₀ hr₀ (hmove.seriesId_eq.symm.trans hS') heq
        exact not_carries_of_rest (hmove.rests hrest) hc'
    · cases hb
  | recur outcome =>
    rcases outcome with _ | ⟨newId, nextRun, _ | _⟩
    · trivial
    · intro msg queue hphase hmsg
      rcases clone_rows hphase h with ⟨htaken, -⟩ | ⟨hfree, new, rfl, hseries, hpending, -, hrows⟩
      · exact htaken
      -- the original and the clone both carry the series
      have hrows' : s'.rows = s.rows ++ [new] := hrows
      have hr₁ := hunique r ⟨by rw [hrows']; exact List.mem_append_left _ hr, hS, hc⟩
      have hnew := hunique new ⟨by rw [hrows']; simp, hseries.trans hmsg, .inl (by simp [QueueRow.live, hpending])⟩
      exact absurd (congrArg (fun r : QueueRow => r.id) (hr₁.trans hnew.symm)) (hfree r hr)
    · trivial
  | _ => trivial

/-! ### Runs -/

theorem seriesGoing_created (hI : SweepInv s) (hR : Rooted s) (hcreated : Creates S s e)
    (hqueued : QueueRecurs s) (h : sweepStep c s e = some s') : SeriesGoing S s' := by
  have hnew : ∀ new : QueueRow, new.id = S → new.seriesId = S → new.status = .pending →
      new.recurrence.isSome = true → ∀ rows', insertRow s.rows new = some rows' → s'.rows = rows' →
      s'.sweep = s.sweep → SeriesGoing S s' := by
    intro new hid hseries hpending hrec rows' hi hrows hsweep
    obtain ⟨hfree, seq, rfl⟩ := insertRow_spec hi
    have hmem : { new with seq := seq } ∈ s'.rows := by
      rw [hrows]
      exact List.mem_append_right _ (List.mem_singleton_self _)
    refine ⟨sweepInv_step s e s' hI h, ⟨_, hmem, hid⟩, ?_, _, hmem, hseries, .inl ?_, hrec, ?_⟩
    · intro queue hphase
      exact hqueued queue (hsweep.symm.trans hphase)
    · simp [QueueRow.live, hpending]
    · intro r' hr' hS' hne
      rw [hrows] at hr'
      rcases List.mem_append.mp hr' with hold | hlast
      · -- an older row of the series would have its root, whose id is the new row's
        obtain ⟨q, hq, hqid⟩ := hR r' hold
        exact absurd (hqid.trans (hS'.trans hid.symm)) (Table.find_none hfree q hq)
      · exact absurd (List.mem_singleton.mp hlast) hne
  cases e with
  | insertTask t =>
    obtain ⟨hid, hrec, hok⟩ := hcreated
    obtain ⟨rows', hi⟩ := Option.isSome_iff_exists.mp hok
    simp only [sweepStep, hi, Option.some.injEq] at h
    exact hnew _ hid hid rfl hrec rows' hi (by rw [← h]; rfl) (by rw [← h])
  | insertMessage m processAfter recurrence =>
    obtain ⟨hid, hrec, hok⟩ := hcreated
    obtain ⟨rows', hi⟩ := Option.isSome_iff_exists.mp hok
    simp only [sweepStep, hi, Option.some.injEq] at h
    exact hnew _ hid hid rfl hrec rows' hi (by rw [← h]; rfl) (by rw [← h])
  | _ => exact hcreated.elim

theorem run_queueRecurs {sessionId : String} {es : List SweepEvent}
    (hrun : Trans.run (sweepStep c) (SweepState.fresh sessionId) es = some s) : QueueRecurs s := by
  refine Trans.run_inv (fun s e s' hQ h => queueRecurs_step hQ h) ?_ hrun
  intro queue hphase
  cases hphase

/-- **A recurring series goes on.** In every state after its creation, along steps that do not end it,
exactly one row carries the series, exactly when no step gives up a row of it that is out of tries, and
none inserts a clone without clearing the original. -/
theorem series_goes_on_iff {sessionId : String} {es₀ es : List SweepEvent} {s₀ s₁ s₂ : SweepState}
    (hrun : Trans.run (sweepStep c) (SweepState.fresh sessionId) es₀ = some s₀) (hcreated : Creates S s₀ e)
    (hstep : sweepStep c s₀ e = some s₁) (hrest : Trans.run (sweepStep c) s₁ es = some s₂)
    (hgo : Trans.Along (sweepStep c) (fun s e => ¬ Ends S s e) s₁ es) :
    Trans.Always (sweepStep c) (OneCarrier S) s₁ es ↔ Trans.Along (sweepStep c) (KeepsSeries S) s₁ es := by
  obtain ⟨hI, hR⟩ := run_rooted hrun
  have hJ : SeriesGoing S s₁ := seriesGoing_created hI hR hcreated (run_queueRecurs hrun) hstep
  refine Trans.always_iff_along_given (fun s hs => hs.oneCarrier) ?_ ?_ hJ hrest hgo
  · intro s e s' hs h hends hkeeps
    exact seriesGoing_step hs h hends hkeeps
  · intro s e s' hs h _ hone
    exact keepsSeries_of_oneCarrier hs h hone

/-- The sweep after the creation: the occurrence runs, is acknowledged, and cloned with `outcome`. -/
def sampleRounds (outcome : RecurOutcome) : List SweepEvent := sampleOccurrence.tail ++ [.recur outcome]

/-- An occurrence runs and is cloned, and the next one is pending. -/
theorem series_goes_on_iff_sample :
    ∃ s₂, sweepStep none (SweepState.fresh "s") (.insertTask sampleTask) = some (sampleScheduled id) ∧
      Trans.run (sweepStep none) (sampleScheduled id) (sampleRounds sampleNext) = some s₂ ∧
      (Trans.Always (sweepStep none) (OneCarrier "t") (sampleScheduled id) (sampleRounds sampleNext) ↔
        Trans.Along (sweepStep none) (KeepsSeries "t") (sampleScheduled id) (sampleRounds sampleNext)) := by
  have hstep : sweepStep none (SweepState.fresh "s") (.insertTask sampleTask) = some (sampleScheduled id) := rfl
  have hrest : (Trans.run (sweepStep none) (sampleScheduled id) (sampleRounds sampleNext)).isSome = true := rfl
  obtain ⟨s₂, hrest⟩ := Option.isSome_iff_exists.mp hrest
  have hcreated : Creates "t" (SweepState.fresh "s") (.insertTask sampleTask) := ⟨rfl, rfl, rfl⟩
  have hfresh : Trans.run (sweepStep none) (SweepState.fresh "s") [] = some (SweepState.fresh "s") := rfl
  refine ⟨s₂, hstep, hrest, series_goes_on_iff hfresh hcreated hstep hrest ?_⟩
  refine Trans.along_of_forall fun e he s => ?_
  simp only [sampleRounds, sampleOccurrence, List.tail_cons, List.cons_append, List.nil_append, List.mem_cons,
    List.not_mem_nil, or_false] at he
  rcases he with rfl | rfl | rfl | rfl | rfl | rfl | rfl | rfl <;> exact id

/-- The clone is inserted, and the host stops before the clear: the original will be cloned again. -/
theorem series_forked :
    Creates "t" (SweepState.fresh "s") (.insertTask sampleTask) ∧
      sweepStep none (SweepState.fresh "s") (.insertTask sampleTask) = some (sampleScheduled id) ∧
      ∃ s₂, Trans.run (sweepStep none) (sampleScheduled id)
          (sampleRounds (.next "task-2" (.ofSeconds 86400) false) ++ [.crash]) = some s₂ ∧
        ¬ OneCarrier "t" s₂ := by
  refine ⟨⟨rfl, rfl, rfl⟩, rfl, ?_⟩
  have hrows : ((Trans.run (sweepStep none) (sampleScheduled id)
      (sampleRounds (.next "task-2" (.ofSeconds 86400) false) ++ [.crash])).map (·.rows)) =
      some [{ sampleTaskRow with status := .completed },
        { sampleTaskRow.next "task-2" (.ofSeconds 86400) with seq := 4 }] := rfl
  obtain ⟨s₂, hrun, hrows⟩ := Option.map_eq_some_iff.mp hrows
  refine ⟨s₂, hrun, ?_⟩
  rintro ⟨r, -, hunique⟩
  rw [hrows] at hunique
  have hold := hunique _ ⟨.head _, rfl, .inr ⟨rfl, rfl⟩⟩
  have hnew := hunique _ ⟨.tail _ (.head _), rfl, .inl rfl⟩
  have hids : "t" = "task-2" := congrArg (fun r : QueueRow => r.id) (hold.trans hnew.symm)
  exact absurd hids (by decide)

end AgentDesk
