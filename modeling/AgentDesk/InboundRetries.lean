/-
# Retries of inbound rows

A row's retry state is split over two databases: its tries, its status and the
time of its next retry are in the host's `messages_in`, the claim that a dead
container left behind is in the container's `processing_ack`. The sweep reads
both and may come at any moment of the container's life.

Whatever the container writes, whenever it dies and whatever the operator
requeues, a row that is no task

* is tried at most `maxTries` times, and is given up only then;
* has the waiting time of one retry behind it before the next is counted
  (`Waits`: the time the first retry wrote is over, or still stands in the row);
* stays completed once it is.

A task's waiting time may be changed by `update_task`, which is why tasks are
left out of the second.
-/
import AgentDesk.HostSweep

namespace AgentDesk

variable {c : Option ℤ} {s s' : SweepState} {e : SweepEvent} {r r' : QueueRow}

/-! ### How often -/

/-- No row is over the limit, and a row that was given up has reached it. -/
def TriesInv (s : SweepState) : Prop :=
  ∀ r ∈ s.rows, r.tries ≤ maxTries ∧ (r.status = .failed → r.tries = maxTries)

theorem RowMove.tries_le (h : RowMove s e r r') (hle : r.tries ≤ maxTries) : r'.tries ≤ maxTries := by
  cases h with
  | retried _ _ _ htries => exact htries
  | requeued => exact Nat.zero_le _
  | same | completed | failed | cancelled | paused | resumed | updated | cleared => exact hle

theorem RowMove.of_failed (h : RowMove s e r r') (hne : r.status ≠ .failed) (hf : r'.status = .failed) :
    maxTries ≤ r.tries := by
  cases h with
  | failed _ _ _ htries => exact htries
  | same | retried | updated | cleared => exact absurd hf hne
  | completed | requeued | cancelled | paused | resumed => cases hf

theorem RowMove.tries_of_failed (h : RowMove s e r r') (hf : r'.status = .failed) : r'.tries = r.tries := by
  cases h with
  | retried _ hpending => exact absurd (hpending.symm.trans hf) RowStatus.noConfusion
  | requeued => cases hf
  | same | completed | failed | cancelled | paused | resumed | updated | cleared => rfl

theorem Born.new (h : Born s e r') : r'.tries = 0 ∧ r'.status = .pending := by
  cases h <;> exact ⟨rfl, rfl⟩

theorem triesInv_step (hI : SweepInv s) (hT : TriesInv s) (h : sweepStep c s e = some s') : TriesInv s' := by
  intro r' hr'
  rcases sweepStep_row hI h hr' with ⟨r, hr, hmove⟩ | ⟨hborn, -⟩
  · obtain ⟨hle, hfull⟩ := hT r hr
    refine ⟨hmove.tries_le hle, fun hf => ?_⟩
    rw [hmove.tries_of_failed hf]
    by_cases hfailed : r.status = .failed
    · exact hfull hfailed
    · exact le_antisymm hle (hmove.of_failed hfailed hf)
  · rw [hborn.new.1, hborn.new.2]
    exact ⟨Nat.zero_le _, RowStatus.noConfusion⟩

/-! ### How soon -/

/-- The time is over, or the row still waits for it. -/
def Waits (retryAt now : ℕ) (r : QueueRow) : Prop :=
  1000 * retryAt ≤ now ∨ (r.processAfter = some (.ofSeconds retryAt) ∧ r.status ≠ .failed)

theorem RowMove.of_tries (h : RowMove s e r r') (hlt : r.tries < r'.tries) :
    ∃ start claims, s.sweep = .resetting start (r.id :: claims) ∧ r.status = .pending ∧
      r.rescheduled start = false ∧
      r' = { r with tries := r.tries + 1
                    processAfter := some (.ofSeconds (s.now / 1000 + backoffSecAfter r.tries)) } := by
  cases h with
  | retried hphase hpending hdue _ => exact ⟨_, _, hphase, hpending, hdue, rfl⟩
  | requeued => exact absurd hlt (Nat.not_lt_zero _)
  | same | completed | failed | cancelled | paused | resumed | updated | cleared => exact absurd hlt (lt_irrefl _)

theorem Waits.over {retryAt : ℕ} (h : Waits retryAt s.now r) (hI : SweepInv s) {start : ℕ} {claims : List String}
    (hphase : s.sweep = .resetting start claims) (hdue : r.rescheduled start = false) :
    1000 * retryAt ≤ s.now := by
  rcases h with hover | ⟨hpa, -⟩
  · exact hover
  · have hstart := hI.resetting start claims hphase
    have hle : ¬ ((start : ℤ) < 1000 * (retryAt : ℤ)) := by
      simpa [QueueRow.rescheduled, hpa, Stamp.ofSeconds] using hdue
    omega

/-- A row that is no task waits on through every step: it is given up, requeued or tried again only
when the time is over. -/
theorem RowMove.waits {retryAt : ℕ} (h : RowMove s e r r') (hI : SweepInv s) (htask : r.kind ≠ .task)
    (hw : Waits retryAt s.now r) : Waits retryAt s.now r' := by
  have hnamed : ∀ taskId, r.named taskId = false := by
    intro taskId
    simp [QueueRow.named, htask]
  cases h with
  | same | cleared => exact hw
  | completed =>
    rcases hw with hover | ⟨hpa, -⟩
    · exact .inl hover
    · exact .inr ⟨hpa, RowStatus.noConfusion⟩
  | failed hphase _ hdue _ | retried hphase _ hdue _ => exact .inl (hw.over hI hphase hdue)
  | requeued hfailed =>
    rcases hw with hover | ⟨-, hne⟩
    · exact .inl hover
    · exact absurd hfailed hne
  | cancelled hn | paused hn | resumed hn | updated _ hn =>
    rw [hnamed] at hn
    cases hn

/-- The session has the row, and it waits. -/
def StillWaits (id : String) (retryAt : ℕ) (s : SweepState) : Prop :=
  SweepInv s ∧ ∃ r ∈ s.rows, r.id = id ∧ r.kind ≠ .task ∧ Waits retryAt s.now r

theorem stillWaits_step {id : String} {retryAt : ℕ} (s : SweepState) (e : SweepEvent) (s' : SweepState)
    (h : StillWaits id retryAt s) (hs : sweepStep c s e = some s') : StillWaits id retryAt s' := by
  obtain ⟨hI, r, hr, hid, htask, hw⟩ := h
  obtain ⟨r', hr', hmove⟩ := sweepStep_persists hI hs hr
  refine ⟨sweepInv_step s e s' hI hs, r', hr', hmove.id_eq.trans hid, by rwa [hmove.kind_eq], ?_⟩
  have hnow := sweepStep_now hs
  rcases hmove.waits hI htask hw with hover | hstands
  · exact .inl (hover.trans hnow)
  · exact .inr hstands

/-! ### The machine -/

theorem sweepInv_run {sessionId : String} {es : List SweepEvent}
    (hrun : Trans.run (sweepStep c) (SweepState.fresh sessionId) es = some s) : SweepInv s :=
  Trans.run_inv (fun s e s' => sweepInv_step s e s') (sweepInv_fresh sessionId) hrun

theorem triesInv_run {sessionId : String} {es : List SweepEvent}
    (hrun : Trans.run (sweepStep c) (SweepState.fresh sessionId) es = some s) : TriesInv s := by
  have hboth : SweepInv s ∧ TriesInv s := by
    refine Trans.run_inv (I := fun s => SweepInv s ∧ TriesInv s) ?_ ⟨sweepInv_fresh sessionId, ?_⟩ hrun
    · rintro s e s' ⟨hI, hT⟩ h
      exact ⟨sweepInv_step s e s' hI h, triesInv_step hI hT h⟩
    · intro r hr
      exact absurd hr List.not_mem_nil
  exact hboth.2

theorem completed_run {es : List SweepEvent} (hI : SweepInv s)
    (hrun : Trans.run (sweepStep c) s es = some s') (hr : r ∈ s.rows) (hdone : r.status = .completed)
    (hr' : r' ∈ s'.rows) (hid : r'.id = r.id) : r'.status = .completed := by
  have hstays : SweepInv s' ∧ ∃ q ∈ s'.rows, q.id = r.id ∧ q.status = .completed := by
    refine Trans.run_inv (I := fun s => SweepInv s ∧ ∃ q ∈ s.rows, q.id = r.id ∧ q.status = .completed) ?_
      ⟨hI, r, hr, rfl, hdone⟩ hrun
    rintro s e s' ⟨hI, q, hq, hqid, hqdone⟩ h
    obtain ⟨q', hq', hmove⟩ := sweepStep_persists hI h hq
    refine ⟨sweepInv_step s e s' hI h, q', hq', hmove.id_eq.trans hqid, ?_⟩
    rcases hmove.of_completed hqdone with rfl | ⟨_, _, _, _, _, _, rfl⟩
    · exact hqdone
    · exact hqdone
  obtain ⟨hI', q, hq, hqid, hqdone⟩ := hstays
  obtain rfl := eq_of_id hI'.unique hr' hq (hid.trans hqid.symm)
  exact hqdone

theorem second_try_waits {s₁ s₂ s₃ : SweepState} {e₁ e₂ : SweepEvent} {es : List SweepEvent} (hI : SweepInv s)
    (h₁ : sweepStep c s e₁ = some s₁) (hrun : Trans.run (sweepStep c) s₁ es = some s₂)
    (h₂ : sweepStep c s₂ e₂ = some s₃) {r₁ r₂ r₃ : QueueRow} (hr : r ∈ s.rows) (hr₁ : r₁ ∈ s₁.rows)
    (hr₂ : r₂ ∈ s₂.rows) (hr₃ : r₃ ∈ s₃.rows) (hid₁ : r₁.id = r.id) (hid₂ : r₂.id = r.id) (hid₃ : r₃.id = r.id)
    (htask : r.kind ≠ .task) (hfirst : r.tries < r₁.tries) (hsecond : r₂.tries < r₃.tries) :
    ∃ retryAt, retryAt = s.now / 1000 + backoffSecAfter r.tries ∧ r₁.processAfter = some (.ofSeconds retryAt) ∧
      1000 * retryAt ≤ s₂.now := by
  have hmove₁ := sweepStep_row_of_id hI h₁ hr hr₁ hid₁
  obtain ⟨start, claims, -, hpending, -, heq⟩ := hmove₁.of_tries hfirst
  have hpa : r₁.processAfter = some (.ofSeconds (s.now / 1000 + backoffSecAfter r.tries)) := by rw [heq]
  have hstatus : r₁.status = .pending := by
    rw [heq]
    exact hpending
  -- from the first try on, the row waits
  have hwaits : StillWaits r.id (s.now / 1000 + backoffSecAfter r.tries) s₁ := by
    refine ⟨sweepInv_step s e₁ s₁ hI h₁, r₁, hr₁, hid₁, by rwa [hmove₁.kind_eq], .inr ⟨hpa, ?_⟩⟩
    rw [hstatus]
    exact RowStatus.noConfusion
  obtain ⟨hI₂, q, hq, hqid, -, hw⟩ := Trans.run_inv (fun s e s' => stillWaits_step s e s') hwaits hrun
  obtain rfl := eq_of_id hI₂.unique hq hr₂ (hqid.trans hid₂.symm)
  -- and the second try finds the time over
  obtain ⟨start₂, claims₂, hphase, -, hdue, -⟩ :=
    (sweepStep_row_of_id hI₂ h₂ hr₂ hr₃ (hid₃.trans hid₂.symm)).of_tries hsecond
  exact ⟨_, rfl, hpa, hw.over hI₂ hphase hdue⟩

/-- **The retry machine.** After every run of the container, the sweep, the operator and the clock, a
row that is no task has been tried at most `maxTries` times; a next step gives it up only when it has had
that many; of any two later tries the second is counted only when the waiting time that the first wrote
is over; and if it is completed, it is so after every further run. -/
theorem inbound_retries {sessionId : String} {es : List SweepEvent}
    (hrun : Trans.run (sweepStep c) (SweepState.fresh sessionId) es = some s) :
    (∀ r ∈ s.rows, r.kind ≠ .task → r.tries ≤ maxTries) ∧
    (∀ e s', sweepStep c s e = some s' → ∀ r ∈ s.rows, ∀ r' ∈ s'.rows, r'.id = r.id → r.kind ≠ .task →
      r.status ≠ .failed → r'.status = .failed → r.tries = maxTries) ∧
    (∀ e₁ s₁ es₂ s₂ e₂ s₃, sweepStep c s e₁ = some s₁ → Trans.run (sweepStep c) s₁ es₂ = some s₂ →
      sweepStep c s₂ e₂ = some s₃ →
      ∀ r ∈ s.rows, ∀ r₁ ∈ s₁.rows, ∀ r₂ ∈ s₂.rows, ∀ r₃ ∈ s₃.rows,
        r₁.id = r.id → r₂.id = r.id → r₃.id = r.id → r.kind ≠ .task → r.tries < r₁.tries → r₂.tries < r₃.tries →
        ∃ retryAt, retryAt = s.now / 1000 + backoffSecAfter r.tries ∧ r₁.processAfter = some (.ofSeconds retryAt) ∧
          1000 * retryAt ≤ s₂.now) ∧
    (∀ es' s', Trans.run (sweepStep c) s es' = some s' → ∀ r ∈ s.rows, r.kind ≠ .task → r.status = .completed →
      ∀ r' ∈ s'.rows, r'.id = r.id → r'.status = .completed) := by
  have hI := sweepInv_run hrun
  have hT := triesInv_run hrun
  refine ⟨fun r hr _ => (hT r hr).1, ?_, ?_, ?_⟩
  · intro e s' h r hr r' hr' hid _ hne hf
    have hmax := (sweepStep_row_of_id hI h hr hr' hid).of_failed hne hf
    exact le_antisymm (hT r hr).1 hmax
  · intro e₁ s₁ es₂ s₂ e₂ s₃ h₁ hrun₂ h₂ r hr r₁ hr₁ r₂ hr₂ r₃ hr₃ hid₁ hid₂ hid₃ htask hfirst hsecond
    exact second_try_waits hI h₁ hrun₂ h₂ hr hr₁ hr₂ hr₃ hid₁ hid₂ hid₃ htask hfirst hsecond
  · intro es' s' hrun' r hr _ hdone r' hr' hid
    exact completed_run hI hrun' hr hdone hr' hid

/-- A message whose container dies with it: claimed, found by a sweep that cannot wake another, and
counted once. -/
def sampleRetries : List SweepEvent :=
  [.insertMessage ⟨"m", .chat, none, none, none, none, true, none, none, none⟩ none none,
    .outbound [⟨"m", .processing, some 0⟩] none, .tick 5000, .sync true, .count, .woken, .judge false, .reset]

theorem inbound_retries_sample :
    ∃ s, Trans.run (sweepStep none) (SweepState.fresh "s") sampleRetries = some s ∧
      s.rows.map (fun r => (r.tries, r.processAfter)) = [(1, some (.ofSeconds 10))] ∧
      ∀ r ∈ s.rows, r.kind ≠ .task → r.tries ≤ maxTries :=
  ⟨_, rfl, rfl, (inbound_retries (rfl : Trans.run (sweepStep none) (SweepState.fresh "s") sampleRetries = _)).1⟩

end AgentDesk
