/-
# Containers woken by a sweep

A sweep wakes a container for work that is due and, in the same stretch, judges
the container it finds running. A container that died left its claims in
`processing_ack`; the one that was just spawned clears them when it starts, but
the host does not wait for that, and the spawn has removed the heartbeat file. So
`decideStuckAction` sees the dead container's claims, their age, and no sign of
life.

* `woken_spared_iff`: the container is spared exactly if it was quick enough to
  touch its heartbeat, or no claim that is still there is older than the tolerance.

No time passes for the host between the spawn and the judgement; the new
container may already write.
-/
import AgentDesk.HostSweep

namespace AgentDesk

variable {c : Option ℤ} {s s' : SweepState} {e : SweepEvent}

/-- What the new container can do before the host looks at it. -/
def SweepEvent.early : SweepEvent → Bool
  | .outbound _ _ | .beat => true
  | _ => false

/-- A claim older than the tolerance (one dated before 1970 is not looked at). -/
def StaleClaim (s : SweepState) (a : ProcessingAck) : Prop :=
  a.status = .processing ∧ ∃ claimedAt, a.statusChanged = some claimedAt ∧ 0 ≤ claimedAt ∧
    claimTolerance s.containerState < s.now - claimedAt

/-- Right after a spawn: the container runs, the heartbeat file is gone or new. -/
structure JustSpawned (now : ℕ) (phase : SweepPhase) (s : SweepState) : Prop where
  clock : s.now = now
  sweep : s.sweep = phase
  running : s.running = true
  heartbeat : s.heartbeat = 0 ∨ s.heartbeat = now

theorem justSpawned_step {now : ℕ} {phase : SweepPhase} (h : JustSpawned now phase s) (he : e.early = true)
    (hs : sweepStep c s e = some s') : JustSpawned now phase s' := by
  cases e with
  | outbound acks state =>
    obtain rfl := Option.some.inj hs
    exact ⟨h.clock, h.sweep, h.running, h.heartbeat⟩
  | beat =>
    obtain rfl := Option.some.inj hs
    exact ⟨h.clock, h.sweep, h.running, .inr h.clock⟩
  | _ => cases he

theorem early_run {now : ℕ} {phase : SweepPhase} : ∀ {es : List SweepEvent} {s s' : SweepState},
    JustSpawned now phase s → (∀ e ∈ es, e.early = true) → Trans.run (sweepStep c) s es = some s' →
      JustSpawned now phase s'
  | [], s, s', h, _, hrun => by
    obtain rfl : s = s' := by simpa [Trans.run] using hrun
    exact h
  | e :: es, s, s', h, hearly, hrun => by
    obtain ⟨s₁, hs, hrest⟩ := Trans.run_cons.mp hrun
    have h₁ := justSpawned_step h (hearly e (.head _)) hs
    exact early_run h₁ (fun e' he' => hearly e' (.tail _ he')) hrest

theorem JustSpawned.spared_iff {now : ℕ} {phase : SweepPhase} (h : JustSpawned now phase s) :
    s.stuck c = .ok ↔ s.heartbeat ≠ 0 ∨ ∀ a ∈ s.acks, ¬ StaleClaim s a := by
  unfold SweepState.stuck
  rw [decideStuckAction_ok_iff]
  by_cases hnone : s.heartbeat = 0
  · rw [hnone]
    constructor
    · rintro ⟨-, hall⟩
      refine .inr fun a ha => ?_
      rintro ⟨hproc, claimedAt, hat, hnonneg, hold⟩
      have hmem : a ∈ getProcessingClaims s.acks := List.mem_filter.mpr ⟨ha, by simpa using hproc⟩
      rcases hall a hmem claimedAt hat with hyoung | hbefore
      · omega
      · omega
    · rintro (h0 | hall)
      · exact absurd rfl h0
      · refine ⟨.inl rfl, fun a ha claimedAt hat => ?_⟩
        obtain ⟨hmem, hproc⟩ := List.mem_filter.mp ha
        by_cases hneg : claimedAt < 0
        · exact .inr hneg
        · refine .inl (not_lt.mp fun hold => ?_)
          exact hall a hmem ⟨by simpa using hproc, claimedAt, hat, not_lt.mp hneg, hold⟩
  · -- the heartbeat is as new as the judgement: the file is fresh, and newer than any stale claim
    have hbeat : s.heartbeat = now := h.heartbeat.resolve_left hnone
    have hpos : 0 < claimTolerance s.containerState := lt_of_lt_of_le (by decide) (le_max_left claimStuckMs _)
    have hceiling : (0 : ℤ) ≤ max (absoluteCeilingMs c) ((bashTimeoutMs s.containerState).getD 0) :=
      le_trans (by decide) (le_trans (le_max_left 60000 _) (le_max_left _ _))
    refine ⟨fun _ => .inl hnone, fun _ => ⟨.inr ?_, fun a _ claimedAt _ => ?_⟩⟩
    · rw [hbeat, h.clock]
      omega
    · rw [hbeat, h.clock]
      by_cases hyoung : (now : ℤ) - claimedAt ≤ claimTolerance s.containerState
      · exact .inl hyoung
      · exact .inr (by omega)

/-- **A container woken by a sweep.** In whatever state a dead container left the session, the container
that the sweep has spawned is not killed by it exactly if the sweep cannot read the container's database,
or the container has touched its heartbeat file by the time it is judged, or no claim that is still in the
table then is stale. -/
theorem woken_spared_iff {s₀ s₁ s₂ s₃ s₄ : SweepState} {es : List SweepEvent} {outDb : Bool}
    (hphase : s₀.sweep = .waking outDb) (hspawn : sweepStep c s₀ .spawn = some s₁)
    (hearly : ∀ e ∈ es, e.early = true) (hrun : Trans.run (sweepStep c) s₁ es = some s₂)
    (hwoken : sweepStep c s₂ .woken = some s₃) (hjudge : sweepStep c s₃ (.judge false) = some s₄) :
    s₄.sweep ≠ .killing ↔ outDb = false ∨ s₂.heartbeat ≠ 0 ∨ ∀ a ∈ s₂.acks, ¬ StaleClaim s₂ a := by
  have hspawned : JustSpawned s₀.now (.waking outDb) s₁ := by
    simp only [sweepStep] at hspawn
    split at hspawn
    · cases hspawn
    · obtain rfl := Option.some.inj hspawn
      exact ⟨rfl, hphase, rfl, .inl rfl⟩
  have h₂ := early_run hspawned hearly hrun
  have hs₃ : s₃ = { s₂ with sweep := .judging outDb } := by
    simp only [sweepStep, h₂.sweep] at hwoken
    exact (Option.some.inj hwoken).symm
  have hs₄ : s₄.sweep = s₃.judged c outDb false := by
    rw [hs₃] at hjudge ⊢
    simp only [sweepStep] at hjudge
    rw [← Option.some.inj hjudge]
  have hstuck : s₃.stuck c = s₂.stuck c := by
    rw [hs₃]
    rfl
  have hrunning : s₃.running = true := by
    rw [hs₃]
    exact h₂.running
  rw [hs₄, ← h₂.spared_iff (c := c), ← hstuck]
  unfold SweepState.judged
  cases outDb with
  | false => simp
  | true =>
    by_cases hok : s₃.stuck c = .ok
    · simp [hrunning, hok]
    · simp [hrunning, hok]

/-- A message of a chat. -/
def claimedMessage : NewMessage := ⟨"m", .chat, none, none, none, none, true, none, none, none⟩

/-- It is claimed, the container dies, and a sweep two minutes later has a container to wake. -/
def sampleWake : List SweepEvent :=
  [.insertMessage claimedMessage none none, .spawn, .tick 1000, .outbound [⟨"m", .processing, some 1000⟩] none,
    .exit, .tick 120000, .sync true, .count]

/-- The session then. -/
def sampleDead : SweepState :=
  ⟨"s", 121000, [{ claimedMessage.queued "s" none none with seq := 2 }], [⟨"m", .processing, some 1000⟩], none, 0,
    false, .waking true⟩

/-- The container that the sweep spawns is killed for the claim that the dead one left. -/
theorem stale_claim_kills :
    Trans.run (sweepStep none) (SweepState.fresh "s") sampleWake = some sampleDead ∧
      (Trans.run (sweepStep none) sampleDead [.spawn, .woken, .judge false]).map (·.sweep) = some .killing :=
  ⟨rfl, rfl⟩

/-- The same with a claim half a minute old. -/
def sampleWaking : SweepState := { sampleDead with now := 31000 }

theorem woken_spared_iff_sample :
    ∃ s₄, Trans.run (sweepStep none) sampleWaking [.spawn, .woken, .judge false] = some s₄ ∧
      s₄.sweep ≠ .killing := by
  have hyoung : ∀ a ∈ sampleWaking.acks,
      ¬ StaleClaim { sampleWaking with heartbeat := 0, running := true } a := by
    rintro a ha ⟨-, claimedAt, hat, -, hold⟩
    rw [List.mem_singleton.mp ha] at hat
    obtain rfl := Option.some.inj hat
    exact absurd hold (by decide)
  have hspawn : sweepStep none sampleWaking .spawn =
      some { sampleWaking with heartbeat := 0, running := true } := rfl
  have hno : ∀ e ∈ ([] : List SweepEvent), e.early = true := by simp
  refine ⟨_, rfl, (woken_spared_iff rfl hspawn hno rfl rfl rfl).mpr (.inr (.inr hyoung))⟩

end AgentDesk
