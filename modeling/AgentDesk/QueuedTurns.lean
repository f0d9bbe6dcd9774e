/-
# A queued user turn and the running stream

While a provider stream is open the timer looks for a chat trigger. If there is one it is left for the
outer loop: the timer latches, and does nothing more for this stream. It asks the provider to end the
stream only if a routing gate is installed. A provider that waits for input until somebody calls `end`
is then never told, and the outer loop never comes round to the message.

* `stream_move`: what a step can do to the flags of the stream.
* `queued_turn_ends_iff`: in every run, a latched stream has been asked to end exactly when every tick
  that latches does so under a gate.
* `latched_stays`: latched without a gate, and with a provider that ends only on request, the stream
  stays open and the loop never polls again.
-/
import AgentDesk.DueTriggers
import AgentDesk.Trans

namespace AgentDesk

/-- A tick now would find a queued user turn and latch. -/
def Loop.latches (c : LoopConfig) (l : Loop) : Bool :=
  match l.phase with
  | .streaming _ q =>
    !(q.pollInFlight || q.endedForCommand || q.hasPendingUserTurn) &&
      (getPendingMessages l.inbound l.acks c.maxMessagesPerPrompt l.now).any fun m => m.kind.isChat && m.trigger
  | _ => false

/-- A latched stream has been asked to end. -/
def QueuedTurnEnds (l : Loop) : Prop :=
  ∀ t q, l.phase = .streaming t q → q.hasPendingUserTurn = true → q.endRequested = true

/-- A tick that latches does so under a routing gate. -/
def LatchesUnderGate (c : LoopConfig) (l : Loop) (e : LoopEvent) : Prop :=
  e = .tick → l.latches c = true → l.routingGate = true

/-! ### The flags of a stream -/

/-- In phase `p` the stream had the same latch, and since then at most has been asked to end, for a command
or for another user's row. -/
def Follows (p : LoopPhase) (t' : Turn) (q' : Query) : Prop :=
  ∃ q, p = .streaming t' q ∧ q'.hasPendingUserTurn = q.hasPendingUserTurn ∧
    ((q'.endRequested = q.endRequested ∧ q'.endedForCommand = q.endedForCommand) ∨
      (q'.endRequested = true ∧ q'.endedForCommand = true))

/-- The stream after a step: it is new, it follows the one before, or the tick has latched. -/
inductive StreamMove (c : LoopConfig) (l : Loop) (e : LoopEvent) (t' : Turn) (q' : Query) : Prop
  | opened (hlatch : q'.hasPendingUserTurn = false) (hend : q'.endRequested = false)
  | follows (h : Follows l.phase t' q')
  | latched {q : Query} (h : l.phase = .streaming t' q) (he : e = .tick) (hnow : l.latches c = true)
      (hlatch : q'.hasPendingUserTurn = true) (hend : q'.endRequested = (q.endRequested || l.routingGate))

variable {c : LoopConfig} {l l' : Loop} {e : LoopEvent} {t t' : Turn} {q q' : Query}

theorem Follows.refl {p : LoopPhase} (h : p = .streaming t' q') : Follows p t' q' :=
  ⟨q', h, rfl, .inl ⟨rfl, rfl⟩⟩

theorem Follows.trans {p : LoopPhase} (h : Follows p t q) (h' : Follows (.streaming t q) t' q') : Follows p t' q' := by
  obtain ⟨q₀, hp, hlatch, hflags⟩ := h
  obtain ⟨q₁, hp', hlatch', hflags'⟩ := h'
  obtain ⟨rfl, rfl⟩ := LoopPhase.streaming.inj hp'
  refine ⟨q₀, hp, hlatch'.trans hlatch, ?_⟩
  rcases hflags' with ⟨hend, hcommand⟩ | hboth
  · rw [hend, hcommand]
    exact hflags
  · exact .inr hboth

theorem poll_phase (h : (l.poll c).phase = .streaming t' q') : l.phase = .streaming t' q' := by
  unfold Loop.poll at h
  dsimp only at h
  split at h
  · cases h
  split at h
  · exact h
  split at h
  · exact h
  · unfold Loop.answerCommands at h
    dsimp only at h
    split at h
    · cases h
    split at h <;> cases h

theorem finishTurn_phase : (l.finishTurn t).phase ≠ .streaming t' q' := by
  unfold Loop.finishTurn
  dsimp only
  split <;> exact LoopPhase.noConfusion

theorem startQuery_flags (h : (l.startQuery t).phase = .streaming t' q') :
    q'.hasPendingUserTurn = false ∧ q'.endRequested = false := by
  obtain ⟨rfl, rfl⟩ := LoopPhase.streaming.inj h
  exact ⟨rfl, rfl⟩

theorem afterScripts_flags {turnMessages keep : List InboundRow} {skipped : List String}
    (h : (l.afterScripts c turnMessages keep skipped).phase = .streaming t' q') :
    q'.hasPendingUserTurn = false ∧ q'.endRequested = false := by
  unfold Loop.afterScripts at h
  dsimp only at h
  split at h
  · cases h
  split at h
  · cases h
  · exact startQuery_flags h

theorem tick_move (hp : l.phase = .streaming t q) (h : (l.tick c t q).phase = .streaming t' q') :
    StreamMove c l .tick t' q' := by
  unfold Loop.tick at h
  dsimp only at h
  split at h
  · exact .follows (.refl h)
  rename_i hfree
  split at h
  · rename_i hchat
    obtain ⟨rfl, rfl⟩ := LoopPhase.streaming.inj h
    have hnow : l.latches c = true := by
      unfold Loop.latches
      rw [hp]
      dsimp only
      rw [hchat, Bool.and_true]
      simpa using hfree
    exact .latched hp rfl hnow rfl rfl
  split at h
  · split at h
    · exact .follows (.refl h)
    · obtain ⟨rfl, rfl⟩ := LoopPhase.streaming.inj h
      exact .follows ⟨q, hp, rfl, .inr ⟨rfl, rfl⟩⟩
  · split at h
    · exact .follows (.refl h)
    · obtain ⟨rfl, rfl⟩ := LoopPhase.streaming.inj h
      exact .follows ⟨q, hp, rfl, .inl ⟨rfl, rfl⟩⟩

theorem settled_follows {tick : Tick} (h : (Loop.tickScripts.settled tick l).phase = .streaming t' q') :
    Follows l.phase t' q' := by
  unfold Loop.tickScripts.settled at h
  split at h
  · rename_i t q hp
    split at h
    · obtain ⟨rfl, rfl⟩ := LoopPhase.streaming.inj h
      exact ⟨q, hp, rfl, .inl ⟨rfl, rfl⟩⟩
    · exact .refl h
  · exact .refl h

theorem push_follows {keep : List InboundRow} (hp : l.phase = .streaming t q)
    (h : (l.push t q keep).phase = .streaming t' q') : Follows l.phase t' q' := by
  unfold Loop.push at h
  dsimp only at h
  split at h
  · exact .refl h
  split at h
  · obtain ⟨rfl, rfl⟩ := LoopPhase.streaming.inj h
    exact ⟨q, hp, rfl, .inr ⟨rfl, rfl⟩⟩
  split at h
  · exact .refl h
  · obtain ⟨rfl, rfl⟩ := LoopPhase.streaming.inj h
    exact ⟨q, hp, rfl, .inl ⟨rfl, rfl⟩⟩

theorem tickScripts_follows {tick : Tick} {wakeAgent : String → Bool}
    (h : (l.tickScripts tick wakeAgent).phase = .streaming t' q') : Follows l.phase t' q' := by
  unfold Loop.tickScripts at h
  split at h
  · exact settled_follows h
  rename_i keep skipped _
  have hsettled : ∀ {t q}, (Loop.tickScripts.settled tick (l.complete .preTask skipped)).phase = .streaming t q →
      Follows l.phase t q := fun hp => settled_follows (l := l.complete .preTask skipped) hp
  dsimp only at h
  split at h
  · exact hsettled h
  split at h
  · rename_i t q hp
    split at h
    · have hpush : Follows (.streaming t q) t' q' := hp ▸ push_follows hp h
      exact (hsettled hp).trans hpush
    · exact hsettled h
  · exact hsettled h

/-- What a step can do to the stream. -/
theorem stream_move (hs : loopStep c l e = some l') (h : l'.phase = .streaming t' q') : StreamMove c l e t' q' := by
  cases loopStep_move hs with
  | host | clock | abort | other => exact .follows (.refl h)
  | kill | start | scriptsThrow | delegate => cases h
  | poll => exact .follows (.refl (poll_phase h))
  | scripts =>
    obtain ⟨hlatch, hend⟩ := afterScripts_flags h
    exact .opened hlatch hend
  | execute | retry =>
    obtain ⟨hlatch, hend⟩ := startQuery_flags h
    exact .opened hlatch hend
  | routeThrows | streamThrow =>
    unfold Loop.failTurn at h
    exact absurd h finishTurn_phase
  | @result t q text answered hp =>
    obtain ⟨rfl, rfl⟩ := LoopPhase.streaming.inj h
    exact .follows ⟨q, hp, rfl, .inl ⟨rfl, rfl⟩⟩
  | streamEnd => exact absurd h finishTurn_phase
  | tick hp => exact tick_move hp h
  | @tickScripts tick i wakeAgent =>
    have hf : Follows ({ l with ticks := l.ticks.eraseIdx i } : Loop).phase t' q' := tickScripts_follows h
    exact .follows hf

/-! ### Every run -/

/-- A stream is asked to end for a reason. -/
def EndHasReason (l : Loop) : Prop :=
  ∀ t q, l.phase = .streaming t q → q.endRequested = true → q.endedForCommand = true ∨ q.hasPendingUserTurn = true

theorem endHasReason_step (c : LoopConfig) (l : Loop) (e : LoopEvent) (l' : Loop) (hi : EndHasReason l)
    (hs : loopStep c l e = some l') : EndHasReason l' := by
  intro t' q' hp hreq
  cases stream_move hs hp with
  | opened _ hend => simp [hend] at hreq
  | follows h =>
    obtain ⟨q, hq, hlatch, ⟨hend, hcommand⟩ | ⟨-, hcommand⟩⟩ := h
    · rw [hlatch, hcommand]
      exact hi t' q hq (hend ▸ hreq)
    · exact .inl hcommand
  | latched _ _ _ hlatch => exact .inr hlatch

theorem not_requested_of_latches (hi : EndHasReason l) (hnow : l.latches c = true) (hp : l.phase = .streaming t q) :
    q.endRequested = false := by
  unfold Loop.latches at hnow
  rw [hp] at hnow
  simp only [Bool.and_eq_true, Bool.not_eq_true', Bool.or_eq_false_iff] at hnow
  by_contra hreq
  rcases hi t q hp (by simpa using hreq) with hcommand | hlatch
  · simp [hnow.1.1.2] at hcommand
  · simp [hnow.1.2] at hlatch

theorem tick_latches (hnow : l.latches c = true) : ∃ t q l', l.phase = .streaming t q ∧
    loopStep c l .tick = some l' ∧ l'.phase = .streaming t { q with
      hasPendingUserTurn := true, endRequested := q.endRequested || l.routingGate } := by
  unfold Loop.latches at hnow
  split at hnow
  · rename_i t q hp
    refine ⟨t, q, l.tick c t q, hp, ?_, ?_⟩
    · simp [loopStep, hp]
    · simp only [Bool.and_eq_true, Bool.not_eq_true'] at hnow
      unfold Loop.tick
      dsimp only
      rw [if_neg (by simp [hnow.1]), if_pos hnow.2]
      rfl
  · cases hnow

theorem queuedTurnEnds_step_iff (c : LoopConfig) (l : Loop) (e : LoopEvent) (l' : Loop) (hi : EndHasReason l)
    (h : QueuedTurnEnds l) (hs : loopStep c l e = some l') : QueuedTurnEnds l' ↔ LatchesUnderGate c l e := by
  constructor
  · intro hends he hnow
    subst he
    obtain ⟨t, q, l₁, hp, hs₁, hp₁⟩ := tick_latches hnow
    obtain rfl : l₁ = l' := Option.some.inj (hs₁.symm.trans hs)
    have hreq := hends t _ hp₁ rfl
    rw [not_requested_of_latches hi hnow hp] at hreq
    simpa using hreq
  · intro hgate t' q' hp hlatch
    cases stream_move hs hp with
    | opened hl => simp [hl] at hlatch
    | follows hf =>
      obtain ⟨q, hq, hl, ⟨hend, -⟩ | ⟨hend, -⟩⟩ := hf
      · rw [hend]
        exact h t' q hq (hl ▸ hlatch)
      · exact hend
    | latched _ he hnow _ hend => simp [hend, hgate he hnow]

/-- **A queued turn ends the running stream exactly under a gate.** In every run of a container over any
databases, with any provider: in every state, a latched stream has been asked to end, if and only if every
tick of the run that latches does so while a routing gate is installed. -/
theorem queued_turn_ends_iff {c : LoopConfig} {inbound : List InboundRow} {acks : List AckRow} {now : ℕ}
    {es : List LoopEvent} {l : Loop} (hr : Trans.run (loopStep c) (Loop.fresh inbound acks now) es = some l) :
    Trans.Always (loopStep c) QueuedTurnEnds (Loop.fresh inbound acks now) es ↔
      Trans.Along (loopStep c) (LatchesUnderGate c) (Loop.fresh inbound acks now) es :=
  Trans.always_iff_along (endHasReason_step c) (queuedTurnEnds_step_iff c)
    (fun _ _ hp => nomatch hp) (fun _ _ hp => nomatch hp) hr

/-- One message is being answered when the next arrives. -/
def secondMessage (routing : Bool) : List LoopEvent :=
  [.start, .poll, .scripts fun _ => true] ++ (if routing then [.routed .execute] else []) ++
    [.provider (.result (some "done") 1), .host [groupMessage 2 true, groupMessage 4 true], .tick]

/-- Under a gate the stream is asked to end. -/
theorem queued_turn_ends_routed :
    ∃ l, Trans.run (loopStep ⟨10, true⟩) (Loop.fresh [groupMessage 2 true] [] 0) (secondMessage true) = some l ∧
      (∃ t q, l.phase = .streaming t q ∧ q.hasPendingUserTurn = true ∧ q.endRequested = true) ∧
      (Trans.Always (loopStep ⟨10, true⟩) QueuedTurnEnds (Loop.fresh [groupMessage 2 true] [] 0) (secondMessage true) ↔
        Trans.Along (loopStep ⟨10, true⟩) (LatchesUnderGate ⟨10, true⟩) (Loop.fresh [groupMessage 2 true] [] 0)
          (secondMessage true)) := by
  have hrun : Trans.run (loopStep ⟨10, true⟩) (Loop.fresh [groupMessage 2 true] [] 0) (secondMessage true) =
      some _ := rfl
  exact ⟨_, hrun, ⟨_, _, rfl, rfl, rfl⟩, queued_turn_ends_iff hrun⟩

/-! ### A provider that waits -/

/-- The provider ends its stream only after `end` or `abort`. -/
def EndsOnRequest (l : Loop) (e : LoopEvent) : Prop :=
  e = .streamEnd → l.aborted = true ∨ ∀ t q, l.phase = .streaming t q → q.endRequested = true

/-- Nothing stops the container, and the provider does not fail. -/
def Undisturbed (_ : Loop) (e : LoopEvent) : Prop :=
  e ≠ .abort ∧ e ≠ .kill ∧ ∀ sessionInvalid, e ≠ .streamThrow sessionInvalid

/-- The stream is open, latched and not asked to end, and no tick of it is under way. -/
def Stranded (l : Loop) : Prop :=
  l.aborted = false ∧ ∃ t q, l.phase = .streaming t q ∧ q.hasPendingUserTurn = true ∧ q.endRequested = false ∧
    ∀ tick ∈ l.ticks, tick.query ≠ q.number

theorem settled_other {tick : Tick} (hp : l.phase = .streaming t q) (hne : tick.query ≠ q.number) :
    Loop.tickScripts.settled tick l = l := by
  unfold Loop.tickScripts.settled
  rw [hp]
  exact if_neg hne.symm

theorem tickScripts_other {tick : Tick} {wakeAgent : String → Bool} (hp : l.phase = .streaming t q)
    (hne : tick.query ≠ q.number) :
    (l.tickScripts tick wakeAgent).phase = .streaming t q ∧ (l.tickScripts tick wakeAgent).ticks = l.ticks ∧
      (l.tickScripts tick wakeAgent).aborted = l.aborted := by
  unfold Loop.tickScripts
  split
  · rw [settled_other hp hne]
    exact ⟨hp, rfl, rfl⟩
  rename_i keep skipped _
  have hp' : (l.complete .preTask skipped).phase = .streaming t q := hp
  rw [settled_other hp' hne]
  dsimp only
  split
  · exact ⟨hp, rfl, rfl⟩
  · rw [hp']
    dsimp only
    rw [if_neg hne.symm]
    exact ⟨hp, rfl, rfl⟩

theorem stranded_step (hl : Stranded l) (hs : loopStep c l e = some l') (hreq : EndsOnRequest l e)
    (hcalm : Undisturbed l e) : Stranded l' := by
  obtain ⟨hrun, t, q, hp, hlatch, hend, hticks⟩ := hl
  cases loopStep_move hs with
  | host | clock | other => exact ⟨hrun, t, q, hp, hlatch, hend, hticks⟩
  | abort => exact absurd rfl hcalm.1
  | kill => exact absurd rfl hcalm.2.1
  | start h | poll h | scriptsThrow _ h | scripts _ h | delegate h | execute h | routeThrows h =>
    rw [hp] at h
    cases h
  | retry => exact absurd rfl (hcalm.2.2 true)
  | streamThrow sessionInvalid => exact absurd rfl (hcalm.2.2 sessionInvalid)
  | @result t' q' text answered h =>
    obtain ⟨rfl, rfl⟩ := LoopPhase.streaming.inj (hp.symm.trans h)
    exact ⟨hrun, t, _, rfl, hlatch, hend, hticks⟩
  | streamEnd =>
    rcases hreq rfl with haborted | hended
    · simp [hrun] at haborted
    · simp [hended t q hp] at hend
  | @tick t' q' h =>
    obtain ⟨rfl, rfl⟩ := LoopPhase.streaming.inj (hp.symm.trans h)
    have hidle : l.tick c t q = l := by
      unfold Loop.tick
      dsimp only
      rw [if_pos (by simp [hlatch])]
    rw [hidle]
    exact ⟨hrun, t, q, hp, hlatch, hend, hticks⟩
  | @tickScripts tick i wakeAgent h =>
    have hne : tick.query ≠ q.number := hticks tick (List.mem_of_getElem? h)
    obtain ⟨hp', hticks', hrun'⟩ :=
      @tickScripts_other { l with ticks := l.ticks.eraseIdx i } t q tick wakeAgent hp hne
    refine ⟨hrun'.trans hrun, t, q, hp', hlatch, hend, ?_⟩
    rw [hticks']
    exact fun tick' htick => hticks tick' (List.mem_of_mem_eraseIdx htick)

/-- From there on the loop never polls, however long the provider waits. -/
theorem latched_stays {es : List LoopEvent} (hl : Stranded l)
    (h : Trans.Along (loopStep c) (fun l e => EndsOnRequest l e ∧ Undisturbed l e) l es) :
    Trans.Always (loopStep c) (fun l => ∃ t q, l.phase = .streaming t q) l es :=
  Trans.always_of_along (fun _ hl => hl.2.imp fun _ => Exists.imp fun _ => And.left)
    (fun _ _ _ hl hs h => stranded_step hl hs h.1 h.2) hl h

/-- Without a gate the stream is left open, and the second message is never reached. -/
theorem second_message_waits :
    ∃ l, Trans.run (loopStep ⟨10, false⟩) (Loop.fresh [groupMessage 2 true] [] 0) (secondMessage false) = some l ∧
      ¬ QueuedTurnEnds l ∧ (∃ m ∈ l.inbound, m.waits l.acks l.now = true) ∧
      ∀ es, Trans.Along (loopStep ⟨10, false⟩) (fun l e => EndsOnRequest l e ∧ Undisturbed l e) l es →
        Trans.Always (loopStep ⟨10, false⟩) (fun l => ∃ t q, l.phase = .streaming t q) l es := by
  have hrun : Trans.run (loopStep ⟨10, false⟩) (Loop.fresh [groupMessage 2 true] [] 0) (secondMessage false) =
      some _ := rfl
  refine ⟨_, hrun, ?_, ⟨groupMessage 4 true, .tail _ (.head _), rfl⟩, fun es => latched_stays ?_⟩
  · intro h
    exact absurd (h _ _ rfl rfl) (by decide)
  · exact ⟨rfl, _, _, rfl, rfl, rfl, fun tick htick => absurd htick List.not_mem_nil⟩

end AgentDesk
