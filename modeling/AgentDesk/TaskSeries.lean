/-
# Cancelling and pausing a series

A recurring task has a row for each occurrence, all with the series id of the
first. `cancelTask` completes the pending and paused rows of a series and takes
their recurrence; `pauseTask` turns the pending ones to paused. Both pass over a
row that has been completed and still has its recurrence: the recurrence loop of
the sweep will clone it, or is about to, and the clone is pending.

A series is off (`SeriesOff`) if it has no row in an awake status (pending and
paused after a cancel, pending after a pause), no completed row with a recurrence,
and no row but the known ones. A step keeps it off unless it completes a row that
still has its recurrence, or brings back a row that has failed (`StaysOff`), or
resumes it.

* `cancel_final`: after a cancel that finds no completed row with a recurrence,
  the series stays off along such steps.
* `pause_holds`: so it does after a pause, until it is resumed.
-/
import AgentDesk.HostSweep

namespace AgentDesk

variable {c : Option ℤ} {s s' : SweepState} {e : SweepEvent} {S : String} {awake : RowStatus → Bool}
variable {ids : List String}

/-! ### Series -/

/-- A row of the task series. -/
def InSeries (S : String) (r : QueueRow) : Prop := r.kind = .task ∧ r.seriesId = S

/-- Every series has the row it is named after, so its id is taken. -/
def Rooted (s : SweepState) : Prop := ∀ r ∈ s.rows, ∃ q ∈ s.rows, q.id = r.seriesId

/-- The rows of the series that are in an awake status, that may be cloned, or that are new: none. -/
structure SeriesOff (awake : RowStatus → Bool) (S : String) (ids : List String) (s : SweepState) : Prop where
  inv : SweepInv s
  rooted : ∃ q ∈ s.rows, q.id = S
  rows : ∀ r ∈ s.rows, InSeries S r →
    awake r.status = false ∧ (r.status = .completed → r.recurrence = none) ∧ r.id ∈ ids

/-- The step completes no row of the series that still has its recurrence, and requeues no failed one. -/
def StaysOff (S : String) (s : SweepState) : SweepEvent → Prop
  | .sync true => ∀ a ∈ s.acks, a.done = true → ∀ r ∈ s.rows, r.id = a.messageId → InSeries S r →
      r.status ≠ .completed → r.recurrence = none
  | .requeue messageId => ∀ r ∈ s.rows, r.id = messageId → InSeries S r → r.status ≠ .failed
  | _ => True

/-- The step does not resume the series, by its own id or by a row's. -/
def NotResumed (S : String) (s : SweepState) : SweepEvent → Prop
  | .resumeTask taskId => ∀ r ∈ s.rows, InSeries S r → r.named taskId = false
  | _ => True

theorem rooted_step (hI : SweepInv s) (hR : Rooted s) (h : sweepStep c s e = some s') : Rooted s' := by
  have hkeep : ∀ id, (∃ q ∈ s.rows, q.id = id) → ∃ q ∈ s'.rows, q.id = id := by
    rintro id ⟨q, hq, rfl⟩
    obtain ⟨q', hq', hmove⟩ := sweepStep_persists hI h hq
    exact ⟨q', hq', hmove.id_eq⟩
  intro r' hr'
  rcases sweepStep_row hI h hr' with ⟨r, hr, hmove⟩ | ⟨hborn, -⟩
  · rw [hmove.seriesId_eq]
    exact hkeep _ (hR r hr)
  · cases hborn with
    | message | task => exact ⟨_, hr', rfl⟩
    | @next msg queue hphase =>
      obtain ⟨r, hr, -, -, hseries, -⟩ := (hI.queued _ hphase).2 msg (.head _)
      have hroot := hkeep _ (hR r hr)
      rwa [hseries] at hroot

theorem RowMove.off {r r' : QueueRow} (h : RowMove s e r r') (hr : r ∈ s.rows) (hpend : awake .pending = true)
    (hdone : awake .completed = false) (hoff : SeriesOff awake S ids s) (hS : InSeries S r)
    (hstays : StaysOff S s e) (hresume : awake .paused = true ∨ NotResumed S s e) :
    awake r'.status = false ∧ (r'.status = .completed → r'.recurrence = none) := by
  obtain ⟨hasleep, hrec, -⟩ := hoff.rows r hr hS
  have hpending : r.status ≠ .pending := by
    intro hp
    rw [hp, hpend] at hasleep
    cases hasleep
  cases h with
  | same => exact ⟨hasleep, hrec⟩
  | completed ha hdone' hid hopen => exact ⟨hdone, fun _ => hstays _ ha hdone' r hr hid.symm hS hopen⟩
  | failed _ hp | retried _ hp | paused _ hp => exact absurd hp hpending
  | requeued hfailed => exact absurd hfailed (hstays r hr rfl hS)
  | cancelled => exact ⟨hdone, fun _ => rfl⟩
  | resumed hnamed hpaused =>
    rcases hresume with hawake | hno
    · rw [hpaused, hawake] at hasleep
      cases hasleep
    · rw [hno r hr hS] at hnamed
      cases hnamed
  | updated u _ hlive =>
    -- a live row that is asleep is paused, and not completed
    refine ⟨hasleep, fun hcompleted => ?_⟩
    have hst : r.status = .completed := hcompleted
    simp [QueueRow.live, hst] at hlive
  | cleared => exact ⟨hasleep, fun _ => rfl⟩

theorem SeriesOff.not_born {r' : QueueRow} (hoff : SeriesOff awake S ids s) (hborn : Born s e r')
    (hfree : ∀ r ∈ s.rows, r.id ≠ r'.id) : ¬ InSeries S r' := by
  rintro ⟨hkind, hseries⟩
  obtain ⟨q, hq, hqid⟩ := hoff.rooted
  cases hborn with
  | message m processAfter recurrence seq => exact hfree q hq (hqid.trans hseries.symm)
  | task t seq => exact hfree q hq (hqid.trans hseries.symm)
  | @next msg queue hphase newId nextRun cleared seq =>
    obtain ⟨r, hr, -, hrk, hrs, hdone, hrec⟩ := (hoff.inv.queued _ hphase).2 msg (.head _)
    have hnone := (hoff.rows r hr ⟨hrk.trans hkind, hrs.trans hseries⟩).2.1 hdone
    rw [hnone] at hrec
    cases hrec

theorem seriesOff_step (hpend : awake .pending = true) (hdone : awake .completed = false)
    (hoff : SeriesOff awake S ids s) (h : sweepStep c s e = some s') (hstays : StaysOff S s e)
    (hresume : awake .paused = true ∨ NotResumed S s e) : SeriesOff awake S ids s' := by
  refine ⟨sweepInv_step s e s' hoff.inv h, ?_, ?_⟩
  · obtain ⟨q, hq, hqid⟩ := hoff.rooted
    obtain ⟨q', hq', hmove⟩ := sweepStep_persists hoff.inv h hq
    exact ⟨q', hq', hmove.id_eq.trans hqid⟩
  · intro r' hr' hS'
    rcases sweepStep_row hoff.inv h hr' with ⟨r, hr, hmove⟩ | ⟨hborn, hfree⟩
    · have hS : InSeries S r := ⟨hmove.kind_eq.symm.trans hS'.1, hmove.seriesId_eq.symm.trans hS'.2⟩
      obtain ⟨hasleep, hrec⟩ := hmove.off hr hpend hdone hoff hS hstays hresume
      refine ⟨hasleep, hrec, ?_⟩
      rw [hmove.id_eq]
      exact (hoff.rows r hr hS).2.2
    · exact absurd hS' (hoff.not_born hborn hfree)

/-! ### Cancel and pause -/

theorem run_rooted {sessionId : String} {es : List SweepEvent}
    (hrun : Trans.run (sweepStep c) (SweepState.fresh sessionId) es = some s) : SweepInv s ∧ Rooted s := by
  refine Trans.run_inv (I := fun s => SweepInv s ∧ Rooted s) ?_ ⟨sweepInv_fresh sessionId, ?_⟩ hrun
  · rintro s e s' ⟨hI, hR⟩ h
    exact ⟨sweepInv_step s e s' hI h, rooted_step hI hR h⟩
  · intro r hr
    exact absurd hr List.not_mem_nil

theorem seriesOff_of_update (hI : SweepInv s) (hR : Rooted s) (hseries : ∃ r ∈ s.rows, InSeries S r)
    (hclear : ∀ r ∈ s.rows, InSeries S r → r.status = .completed → r.recurrence = none)
    (h : sweepStep c s e = some s') {p : QueueRow → Bool} {f : QueueRow → QueueRow}
    (hrows : s'.rows = Table.updateWhere p f s.rows)
    (hsleep : ∀ r, InSeries S r → p r = false → awake r.status = false)
    (hf : ∀ r, p r = true → awake (f r).status = false ∧ ((f r).status = .completed → (f r).recurrence = none)) :
    SeriesOff awake S (s'.rows.map (·.id)) s' := by
  refine ⟨sweepInv_step s e s' hI h, ?_, ?_⟩
  · obtain ⟨r, hr, hS⟩ := hseries
    obtain ⟨q, hq, hqid⟩ := hR r hr
    obtain ⟨q', hq', hmove⟩ := sweepStep_persists hI h hq
    exact ⟨q', hq', hmove.id_eq.trans (hqid.trans hS.2)⟩
  · intro r' hr' hS'
    have hmem : r'.id ∈ s'.rows.map (·.id) := List.mem_map.mpr ⟨r', hr', rfl⟩
    rw [hrows] at hr'
    obtain ⟨r, hr, rfl⟩ := List.mem_map.mp hr'
    by_cases hp : p r = true
    · rw [if_pos hp] at hmem ⊢
      exact ⟨(hf r hp).1, (hf r hp).2, hmem⟩
    · rw [if_neg hp] at hmem hS' ⊢
      exact ⟨hsleep r hS' (by simpa using hp), hclear r hr hS', hmem⟩

theorem InSeries.named {r : QueueRow} (h : InSeries S r) : r.named S = true := by
  simp [QueueRow.named, h.1, h.2]

/-- **Cancel is final** where it finds no completed row with a recurrence: in every later state of a run
whose steps complete no row of the series with a recurrence and requeue none, no row of the series is
pending or paused, and none is new. -/
theorem cancel_final {sessionId : String} {es₀ es : List SweepEvent} {s₀ s₁ : SweepState}
    (hrun : Trans.run (sweepStep c) (SweepState.fresh sessionId) es₀ = some s₀)
    (hseries : ∃ r ∈ s₀.rows, InSeries S r)
    (hclear : ∀ r ∈ s₀.rows, InSeries S r → r.status = .completed → r.recurrence = none)
    (hcancel : sweepStep c s₀ (.cancelTask S) = some s₁)
    (halong : Trans.Along (sweepStep c) (StaysOff S) s₁ es) :
    Trans.Always (sweepStep c) (fun s => ∀ r ∈ s.rows, InSeries S r →
      r.status ≠ .pending ∧ r.status ≠ .paused ∧ ∃ r₁ ∈ s₁.rows, r₁.id = r.id) s₁ es := by
  obtain ⟨hI, hR⟩ := run_rooted hrun
  let awake : RowStatus → Bool := fun st => st = .pending || st = .paused
  have hoff : SeriesOff awake S (s₁.rows.map (·.id)) s₁ := by
    have hrows : s₁.rows = cancelTask s₀.rows S := (congrArg SweepState.rows (Option.some.inj hcancel)).symm
    refine seriesOff_of_update hI hR hseries hclear hcancel hrows ?_ fun _ _ => ⟨rfl, fun _ => rfl⟩
    intro r hS hp
    rw [hS.named, Bool.true_and] at hp
    exact hp
  refine Trans.always_of_along (J := SeriesOff awake S (s₁.rows.map (·.id))) ?_ ?_ hoff halong
  · intro s hs r hr hS
    obtain ⟨hasleep, -, hmem⟩ := hs.rows r hr hS
    have hst : r.status ≠ .pending ∧ r.status ≠ .paused := by simpa [awake] using hasleep
    obtain ⟨r₁, hr₁, hid⟩ := List.mem_map.mp hmem
    exact ⟨hst.1, hst.2, r₁, hr₁, hid⟩
  · intro s e s' hs h hstays
    exact seriesOff_step rfl rfl hs h hstays (.inl rfl)

/-! A task for nine o'clock, its row, and its next occurrence. -/

def sampleTask : NewTask := ⟨"t", .ofSeconds 0, some "0 9 * * *", none, none, none, none⟩

def sampleTaskRow : QueueRow := { sampleTask.queued "s" with seq := 2 }

def sampleNext : RecurOutcome := .next "task-2" (.ofSeconds 86400) true

/-- The occurrence has run, is acknowledged, and has been read by the recurrence loop. -/
def sampleOccurrence : List SweepEvent :=
  [.insertTask sampleTask, .spawn, .outbound [⟨"t", .processing, some 0⟩] none,
    .outbound [⟨"t", .completed, some 0⟩] none, .sync true, .count, .judge false, .readRecurring]

/-- Cancelled between the reading and the clone, the series goes on. -/
theorem cloned_after_cancel :
    ∃ s₀ s₁ s₂, Trans.run (sweepStep none) (SweepState.fresh "s") sampleOccurrence = some s₀ ∧
      (∃ r ∈ s₀.rows, InSeries "t" r) ∧ sweepStep none s₀ (.cancelTask "t") = some s₁ ∧
      Trans.run (sweepStep none) s₁ [.recur sampleNext] = some s₂ ∧
      ∃ r ∈ s₂.rows, InSeries "t" r ∧ r.status = .pending ∧ ∀ r₁ ∈ s₁.rows, r₁.id ≠ r.id := by
  refine ⟨_, _, _, rfl, ⟨_, .head _, rfl, rfl⟩, rfl, rfl, _, .tail _ (.head _), ⟨rfl, rfl⟩, rfl, ?_⟩
  decide

/-- The task scheduled, and the session after `f` has changed its row. -/
def sampleScheduled (f : QueueRow → QueueRow) : SweepState :=
  ⟨"s", 0, [f sampleTaskRow], [], none, 0, false, .idle⟩

/-- A cancel of a task that has run: its acknowledgement comes later and changes nothing. -/
theorem cancel_final_sample :
    Trans.run (sweepStep none) (SweepState.fresh "s") [.insertTask sampleTask] = some (sampleScheduled id) ∧
      ∃ s₁, sweepStep none (sampleScheduled id) (.cancelTask "t") = some s₁ ∧
        Trans.Always (sweepStep none) (fun s => ∀ r ∈ s.rows, InSeries "t" r →
          r.status ≠ .pending ∧ r.status ≠ .paused ∧ ∃ r₁ ∈ s₁.rows, r₁.id = r.id) s₁
          [.outbound [⟨"t", .completed, some 0⟩] none, .sync true] := by
  have hrun : Trans.run (sweepStep none) (SweepState.fresh "s") [.insertTask sampleTask] =
      some (sampleScheduled id) := rfl
  have hcancel : sweepStep none (sampleScheduled id) (.cancelTask "t") =
      some (sampleScheduled fun r => { r with status := .completed, recurrence := none }) := rfl
  refine ⟨hrun, _, hcancel, cancel_final hrun ⟨_, .head _, rfl, rfl⟩ ?_ hcancel ⟨trivial, ?_⟩⟩
  · intro r hr _ hdone
    rw [List.mem_singleton.mp hr] at hdone
    cases hdone
  · rintro s' hs'
    obtain rfl := Option.some.inj hs'
    refine ⟨fun a _ _ r hr _ _ hopen => ?_, fun _ _ => trivial⟩
    rw [List.mem_singleton.mp hr] at hopen
    exact absurd rfl hopen

/-- **Pause holds until resume** where it finds no completed row with a recurrence: in every later state
of a run whose steps do not resume the series, complete no row of it with a recurrence and requeue none,
no row of the series is pending. -/
theorem pause_holds {sessionId : String} {es₀ es : List SweepEvent} {s₀ s₁ : SweepState}
    (hrun : Trans.run (sweepStep c) (SweepState.fresh sessionId) es₀ = some s₀)
    (hseries : ∃ r ∈ s₀.rows, InSeries S r ∧ r.status = .pending)
    (hclear : ∀ r ∈ s₀.rows, InSeries S r → r.status = .completed → r.recurrence = none)
    (hpause : sweepStep c s₀ (.pauseTask S) = some s₁)
    (halong : Trans.Along (sweepStep c) (fun s e => NotResumed S s e ∧ StaysOff S s e) s₁ es) :
    Trans.Always (sweepStep c) (fun s => ∀ r ∈ s.rows, InSeries S r → r.status ≠ .pending) s₁ es := by
  obtain ⟨hI, hR⟩ := run_rooted hrun
  obtain ⟨r₀, hr₀, hS₀, -⟩ := hseries
  let awake : RowStatus → Bool := fun st => st = .pending
  have hoff : SeriesOff awake S (s₁.rows.map (·.id)) s₁ := by
    have hrows : s₁.rows = pauseTask s₀.rows S := (congrArg SweepState.rows (Option.some.inj hpause)).symm
    refine seriesOff_of_update hI hR ⟨r₀, hr₀, hS₀⟩ hclear hpause hrows ?_ fun _ _ => ⟨rfl, fun hst => nomatch hst⟩
    intro r hS hp
    rw [hS.named, Bool.true_and] at hp
    exact hp
  refine Trans.always_of_along (J := SeriesOff awake S (s₁.rows.map (·.id))) ?_ ?_ hoff halong
  · intro s hs r hr hS
    simpa [awake] using (hs.rows r hr hS).1
  · intro s e s' hs h hC
    exact seriesOff_step rfl rfl hs h hC.2 (.inr hC.1)

/-- A task is paused while its occurrence runs; the container acknowledges it, and the next one is
pending. -/
theorem cloned_while_paused :
    ∃ s₀ s₁ s₂, Trans.run (sweepStep none) (SweepState.fresh "s")
        [.insertTask sampleTask, .spawn, .outbound [⟨"t", .processing, some 0⟩] none] = some s₀ ∧
      (∃ r ∈ s₀.rows, InSeries "t" r ∧ r.status = .pending) ∧ sweepStep none s₀ (.pauseTask "t") = some s₁ ∧
      Trans.run (sweepStep none) s₁ [.outbound [⟨"t", .completed, some 0⟩] none, .sync true, .count, .judge false,
        .readRecurring, .recur sampleNext] = some s₂ ∧
      ∃ r ∈ s₂.rows, InSeries "t" r ∧ r.status = .pending :=
  ⟨_, _, _, rfl, ⟨_, .head _, ⟨rfl, rfl⟩, rfl⟩, rfl, rfl, _, .tail _ (.head _), ⟨rfl, rfl⟩, rfl⟩

/-- A pause through a sweep that has nothing of it to copy. -/
theorem pause_holds_sample :
    Trans.run (sweepStep none) (SweepState.fresh "s") [.insertTask sampleTask] = some (sampleScheduled id) ∧
      ∃ s₁, sweepStep none (sampleScheduled id) (.pauseTask "t") = some s₁ ∧
        Trans.Always (sweepStep none) (fun s => ∀ r ∈ s.rows, InSeries "t" r → r.status ≠ .pending) s₁
          [.outbound [⟨"t", .processing, some 0⟩] none, .sync true] := by
  have hrun : Trans.run (sweepStep none) (SweepState.fresh "s") [.insertTask sampleTask] =
      some (sampleScheduled id) := rfl
  have hpause : sweepStep none (sampleScheduled id) (.pauseTask "t") =
      some (sampleScheduled fun r => { r with status := .paused }) := rfl
  refine ⟨hrun, _, hpause, pause_holds hrun ⟨_, .head _, ⟨rfl, rfl⟩, rfl⟩ ?_ hpause ⟨⟨trivial, trivial⟩, ?_⟩⟩
  · intro r hr _ hdone
    rw [List.mem_singleton.mp hr] at hdone
    cases hdone
  · rintro s' hs'
    obtain rfl := Option.some.inj hs'
    refine ⟨⟨trivial, fun a ha hdone => ?_⟩, fun _ _ => trivial⟩
    rw [List.mem_singleton.mp ha] at hdone
    cases hdone

end AgentDesk
