/-
# Attempts over every run

Whatever the pollers, the adapters, the clock and the operator do: a row once
recorded as delivered stays so; no attempt starts for a row that is delivered,
parked or inside its back-off; and between two requeues of a row at most
`deliveryMaxAttempts` attempts are made for it (`delivery_attempts`).

The outcome of a row is read once, when its drain starts, and the attempt may
come much later. What makes the answer still true is that nobody else writes
to the rows of a drain (`DrainInv`): one drain at a time per session, each row
once, and an operator's requeue only makes a row more deliverable.

Key theorems: `attemptInv_run`, `delivery_attempts`.
-/
import AgentDesk.Drain

namespace AgentDesk

variable {h h' : Host} {i : ℕ}

/-! ### `delivered` is for ever -/

theorem isDelivered_update {h : Host} {sid sid' id : String} {t : List DeliveredRow}
    (hd : IsDelivered (h.outcomes sid) id) (ht : sid = sid' → IsDelivered t id) :
    IsDelivered (Function.update h.outcomes sid' t sid) id := by
  by_cases he : sid = sid'
  · subst he
    rw [Function.update_self]
    exact ht rfl
  · rw [Function.update_of_ne he]
    exact hd

theorem isDelivered_step (sid id : String) (h : Host) (e : HostEvent) (h' : Host)
    (hd : IsDelivered (h.outcomes sid) id) (hs : hostStep h e = some h') :
    IsDelivered (h'.outcomes sid) id := by
  cases e with
  | tick n =>
    obtain rfl := Option.some.inj hs
    exact hd
  | poll i session t =>
    rcases hostStep_poll hs with ⟨-, rfl⟩ | ⟨-, -, rfl⟩ <;> exact hd
  | «begin» i env =>
    obtain ⟨session, m, queue, -, ⟨-, rfl⟩ | ⟨-, rfl⟩⟩ := hostStep_begin hs
    · exact isDelivered_update hd fun he => markDelivered_keeps (he ▸ hd) _ _ _
    · exact hd
  | resolve i pid =>
    obtain ⟨session, m, queue, plan, -, -, rfl⟩ := hostStep_resolve hs
    exact isDelivered_update hd fun he => markDelivered_keeps (he ▸ hd) _ _ _
  | advance i =>
    obtain ⟨session, m, queue, -, rfl⟩ := hostStep_advance hs
    exact hd
  | reject i =>
    obtain ⟨session, m, queue, permanent, rfl, -⟩ := hostStep_reject hs
    exact hd
  | record i env =>
    obtain ⟨session, m, queue, attempts, permanent, -, rfl⟩ := hostStep_record hs
    exact isDelivered_update hd fun he => markDeliveryFailed_keeps (he ▸ hd) _ _ _ _
  | finish i =>
    obtain ⟨d, -, -, rfl⟩ := hostStep_finish hs
    exact hd
  | requeue sid' id' =>
    obtain rfl := Option.some.inj hs
    exact isDelivered_update hd fun he => requeue_keeps (he ▸ hd) _ _

/-! ### The rows of a drain are its own -/

/-- The rows a drain may still try. -/
def Drain.pending (d : Drain) : List OutboundMessage :=
  match d.phase with
  | .ready | .attempting _ => d.queue
  | .posted => d.queue.tail
  | .failing _ _ | .closing => []

/-- One drain at a time for a session, each of its rows once, and every row it may still try is one
that may be tried. -/
structure DrainInv (h : Host) : Prop where
  guard : ∀ i d, h.drains i = some d → h.inflightDeliveries d.session.id = true
  one : ∀ i j d d', h.drains i = some d → h.drains j = some d' → d.session.id = d'.session.id → i = j
  nodup : ∀ i d, h.drains i = some d → (d.queue.map (·.id)).Nodup
  due : ∀ i d, h.drains i = some d → ∀ m ∈ d.pending, Due (outcomeOf (h.outcomes d.session.id) m.id) h.now
  posted : ∀ i session m queue, h.drains i = some ⟨session, m :: queue, .posted⟩ →
    IsDelivered (h.outcomes session.id) m.id

theorem drainInv_empty : DrainInv Host.empty := by
  refine ⟨?_, ?_, ?_, ?_, ?_⟩ <;> simp [Host.empty]

/-- A step of drain `i` that writes to its own session's outcomes and drops or keeps its rows. -/
theorem DrainInv.upd (hI : DrainInv h) {d d' : Drain} (hd : h.drains i = some d) {t : List DeliveredRow}
    (hnow : h'.now = h.now) (hin : h'.inflightDeliveries = h.inflightDeliveries)
    (hdr : h'.drains = Function.update h.drains i (some d'))
    (hout : h'.outcomes = Function.update h.outcomes d.session.id t)
    (hsess : d'.session = d.session) (hq : (d'.queue.map (·.id)).Nodup)
    (hdue : ∀ m ∈ d'.pending, Due (outcomeOf t m.id) h.now)
    (hposted : ∀ m queue, d' = ⟨d.session, m :: queue, .posted⟩ → IsDelivered t m.id) : DrainInv h' := by
  -- every other drain has another session, whose outcomes are as before
  have hother : ∀ j e, j ≠ i → h.drains j = some e → h'.outcomes e.session.id = h.outcomes e.session.id := by
    intro j e hj he
    rw [hout, Function.update_of_ne]
    exact fun hs => hj (hI.one j i e d he hd hs)
  have hown : h'.outcomes d.session.id = t := by rw [hout, Function.update_self]
  have hcases : ∀ j e, h'.drains j = some e → (j = i ∧ e = d') ∨ (j ≠ i ∧ h.drains j = some e) := by
    intro j e he
    rw [hdr] at he
    rcases Table.eq_of_update he with ⟨hj, hd'⟩ | hother
    · exact .inl ⟨hj, (Option.some.inj hd').symm⟩
    · exact .inr hother
  refine ⟨fun j e he => ?_, fun j k e f he hf hs => ?_, fun j e he => ?_, fun j e he m hm => ?_,
    fun j session m queue he => ?_⟩
  · rw [hin]
    rcases hcases j e he with ⟨-, rfl⟩ | ⟨-, he⟩
    · rw [hsess]
      exact hI.guard i d hd
    · exact hI.guard j e he
  · rcases hcases j e he with ⟨rfl, rfl⟩ | ⟨hj, he⟩ <;> rcases hcases k f hf with ⟨hk, rfl⟩ | ⟨hk, hf⟩
    · exact hk.symm
    · exact hI.one j k d f hd hf (hsess ▸ hs)
    · rw [hk]
      exact hI.one j i e d he hd (hsess ▸ hs)
    · exact hI.one j k e f he hf hs
  · rcases hcases j e he with ⟨-, rfl⟩ | ⟨-, he⟩
    · exact hq
    · exact hI.nodup j e he
  · rcases hcases j e he with ⟨-, rfl⟩ | ⟨hj, he⟩
    · rw [hsess, hown, hnow]
      exact hdue m hm
    · rw [hother j e hj he, hnow]
      exact hI.due j e he m hm
  · rcases hcases j _ he with ⟨-, hd'⟩ | ⟨hj, he⟩
    · rw [← hd'] at hsess
      simp only at hsess
      subst hsess
      rw [hown]
      exact hposted m queue hd'.symm
    · have := hother j _ hj he
      simp only at this
      rw [this]
      exact hI.posted j session m queue he

/-- The first row's outcome changed: the rows after it, which have other ids, may still be tried. -/
theorem DrainInv.due_tail (hI : DrainInv h) {d : Drain} (hd : h.drains i = some d) {m : OutboundMessage}
    {queue : List OutboundMessage} (hq : d.queue = m :: queue) (hp : ∀ m' ∈ queue, m' ∈ d.pending)
    {t : List DeliveredRow}
    (ht : ∀ id, id ≠ m.id → outcomeOf t id = outcomeOf (h.outcomes d.session.id) id) :
    ∀ m' ∈ queue, Due (outcomeOf t m'.id) h.now := by
  intro m' hm'
  have hnd := hI.nodup i d hd
  rw [hq, List.map_cons, List.nodup_cons] at hnd
  have hne : m'.id ≠ m.id := fun he => hnd.1 (he ▸ List.mem_map_of_mem hm')
  rw [ht m'.id hne]
  exact hI.due i d hd m' (hp m' hm')

theorem DrainInv.nodup_tail (hI : DrainInv h) {d : Drain} (hd : h.drains i = some d) {m : OutboundMessage}
    {queue : List OutboundMessage} (hq : d.queue = m :: queue) : (queue.map (·.id)).Nodup := by
  have hnd := hI.nodup i d hd
  rw [hq, List.map_cons, List.nodup_cons] at hnd
  exact hnd.2

theorem markDelivered_other (t : List DeliveredRow) (id : String) (pid : Option String) (now : ℕ) :
    ∀ id', id' ≠ id → outcomeOf (markDelivered t id pid now) id' = outcomeOf t id' := by
  intro id' hne
  rw [find_markDelivered, if_neg hne]

theorem recordFailure_other (p : Bool) (n : ℕ) (t : List DeliveredRow) (m : OutboundMessage) (now : ℕ) :
    ∀ id', id' ≠ m.id → outcomeOf (recordFailure p n t m now) id' = outcomeOf t id' := by
  intro id' hne
  rw [recordFailure, find_markDeliveryFailed, if_neg hne]

/-- A requeued row may be tried: its attempts are zero and its time is now. -/
theorem due_requeue {t : List DeliveredRow} {id id' : String} {now : ℕ} (hd : Due (outcomeOf t id') now) :
    Due (outcomeOf (requeueFailedDelivery t id now).1 id') now := by
  rw [find_requeue]
  split
  · rename_i he
    subst he
    intro row hrow
    obtain ⟨r, hr, rfl⟩ := Option.map_eq_some_iff.mp hrow
    have hf := (undeliverable_false_iff.mp (hd r hr)).1
    rw [if_pos hf]
    exact undeliverable_false_iff.mpr ⟨hf, by simp [deliveryMaxAttempts], now, rfl, le_rfl⟩
  · exact hd

theorem mem_undelivered_due {t : MessagesOut} {outcomes : List DeliveredRow} {now : ℕ} {m : OutboundMessage}
    (hm : m ∈ undelivered t outcomes now) : Due (outcomeOf outcomes m.id) now := by
  obtain ⟨-, hm⟩ := List.mem_filter.mp hm
  exact due_of_not_mem (by simpa using hm)

theorem undelivered_nodup (t : MessagesOut) (outcomes : List DeliveredRow) (now : ℕ) :
    ((undelivered t outcomes now).map (·.id)).Nodup := by
  have hsort : ((getDueOutboundMessages t now).map (·.id)).Nodup := by
    refine ((List.perm_insertionSort _ _).map _).nodup_iff.mpr ?_
    exact t.unique.sublist (List.filter_sublist.map _)
  exact hsort.sublist (List.filter_sublist.map _)

/-- A session without a drain gets one, over the rows that may be tried. -/
theorem DrainInv.poll (hI : DrainInv h) {session : Session} (hin : h.inflightDeliveries session.id = false)
    (t : MessagesOut) :
    DrainInv ({ h with inflightDeliveries := Function.update h.inflightDeliveries session.id true }.setDrain i
      (some ⟨session, undelivered t (h.outcomes session.id) h.now, .ready⟩)) := by
  -- a drain of the session would have it in the set
  have hfree : ∀ j d, h.drains j = some d → d.session.id ≠ session.id := by
    intro j d hd he
    have hguard := hI.guard j d hd
    rw [he, hin] at hguard
    cases hguard
  refine ⟨fun j e he => ?_, fun j k e f he hf hs => ?_, fun j e he => ?_, fun j e he m hm => ?_,
    fun j s m queue he => ?_⟩
  · simp only [Host.setDrain]
    rcases Table.eq_of_update he with ⟨-, ⟨⟩⟩ | ⟨-, he⟩
    · rw [Function.update_self]
    · rw [Function.update_of_ne (hfree j e he)]
      exact hI.guard j e he
  · rcases Table.eq_of_update he with ⟨hj, ⟨⟩⟩ | ⟨-, he⟩ <;>
      rcases Table.eq_of_update hf with ⟨hk, ⟨⟩⟩ | ⟨-, hf⟩
    · rw [hj, hk]
    · exact (hfree k f hf hs.symm).elim
    · exact (hfree j e he hs).elim
    · exact hI.one j k e f he hf hs
  · rcases Table.eq_of_update he with ⟨-, ⟨⟩⟩ | ⟨-, he⟩
    · exact undelivered_nodup t _ _
    · exact hI.nodup j e he
  · rcases Table.eq_of_update he with ⟨-, ⟨⟩⟩ | ⟨-, he⟩
    · exact mem_undelivered_due hm
    · exact hI.due j e he m hm
  · rcases Table.eq_of_update he with ⟨-, hd⟩ | ⟨-, he⟩
    · cases congrArg Drain.phase (Option.some.inj hd)
    · exact hI.posted j s m queue he

theorem DrainInv.finish (hI : DrainInv h) {d : Drain} (hd : h.drains i = some d) :
    DrainInv ({ h with inflightDeliveries := Function.update h.inflightDeliveries d.session.id false }.setDrain i
      none) := by
  have hrest : ∀ j e, Function.update h.drains i none j = some e → j ≠ i ∧ h.drains j = some e := by
    intro j e he
    rcases Table.eq_of_update he with ⟨-, he⟩ | he
    · cases he
    · exact he
  refine ⟨fun j e he => ?_, fun j k e f he hf hs => ?_, fun j e he => ?_, fun j e he m hm => ?_,
    fun j s m queue he => ?_⟩
  · obtain ⟨hj, he⟩ := hrest j e he
    simp only [Host.setDrain]
    rw [Function.update_of_ne fun hs => hj (hI.one j i e d he hd hs)]
    exact hI.guard j e he
  · exact hI.one j k e f (hrest j e he).2 (hrest k f hf).2 hs
  · exact hI.nodup j e (hrest j e he).2
  · exact hI.due j e (hrest j e he).2 m hm
  · exact hI.posted j s m queue (hrest j _ he).2

theorem DrainInv.requeue (hI : DrainInv h) (sid id : String) (hist : List Happening) :
    DrainInv { h.setOutcomes sid (requeueFailedDelivery (h.outcomes sid) id h.now).1 with history := hist } := by
  refine ⟨hI.guard, hI.one, hI.nodup, fun i d hd m hm => ?_, fun i session m queue hd => ?_⟩
  · simp only [Host.setOutcomes]
    by_cases he : d.session.id = sid
    · rw [he, Function.update_self]
      exact due_requeue (he ▸ hI.due i d hd m hm)
    · rw [Function.update_of_ne he]
      exact hI.due i d hd m hm
  · exact isDelivered_update (hI.posted i session m queue hd) fun he =>
      requeue_keeps (he ▸ hI.posted i session m queue hd) _ _

theorem drainInv_step (h : Host) (e : HostEvent) (h' : Host) (hI : DrainInv h)
    (hs : hostStep h e = some h') : DrainInv h' := by
  cases e with
  | tick n =>
    obtain rfl := Option.some.inj hs
    exact ⟨hI.guard, hI.one, hI.nodup, fun i d hd m hm => (hI.due i d hd m hm).mono (Nat.le_add_right _ _),
      hI.posted⟩
  | poll i session t =>
    rcases hostStep_poll hs with ⟨-, rfl⟩ | ⟨-, hin, rfl⟩
    · exact hI
    · exact hI.poll hin t
  | «begin» i env =>
    obtain ⟨session, m, queue, hd, ⟨-, rfl⟩ | ⟨-, rfl⟩⟩ := hostStep_begin hs
    · exact hI.upd hd rfl rfl rfl rfl rfl (hI.nodup_tail hd rfl)
        (hI.due_tail hd rfl (fun m' hm' => List.mem_cons_of_mem _ hm') (markDelivered_other _ _ _ _))
        (fun m' q hq => by cases hq)
    · have hnd := hI.nodup i _ hd
      exact hI.upd hd rfl rfl rfl (Function.update_eq_self _ _).symm rfl hnd
        (fun m' hm' => hI.due i _ hd m' hm') (fun m' q hq => by cases hq)
  | resolve i pid =>
    obtain ⟨session, m, queue, plan, hd, -, rfl⟩ := hostStep_resolve hs
    have hnd := hI.nodup i _ hd
    refine hI.upd hd rfl rfl rfl rfl rfl hnd
      (hI.due_tail hd rfl (fun m' hm' => List.mem_cons_of_mem _ hm') (markDelivered_other _ _ _ _)) ?_
    intro m' q hq
    cases hq
    exact isDelivered_markDelivered _ _ _ _
  | advance i =>
    obtain ⟨session, m, queue, hd, rfl⟩ := hostStep_advance hs
    exact hI.upd hd rfl rfl rfl (Function.update_eq_self _ _).symm rfl (hI.nodup_tail hd rfl)
      (fun m' hm' => hI.due i _ hd m' hm') (fun m' q hq => by cases hq)
  | reject i =>
    obtain ⟨session, m, queue, permanent, rfl, hwas⟩ := hostStep_reject hs
    obtain ⟨phase, hd⟩ : ∃ phase, h.drains i = some ⟨session, m :: queue, phase⟩ := by
      rcases hwas with ⟨plan, hd, -⟩ | ⟨hd, -⟩
      · exact ⟨_, hd⟩
      · exact ⟨_, hd⟩
    have hnd := hI.nodup i _ hd
    exact hI.upd hd rfl rfl rfl (Function.update_eq_self _ _).symm rfl hnd
      (fun m' hm' => by cases hm') (fun m' q hq => by cases hq)
  | record i env =>
    obtain ⟨session, m, queue, attempts, permanent, hd, rfl⟩ := hostStep_record hs
    have hnd := hI.nodup i _ hd
    exact hI.upd hd rfl rfl rfl rfl rfl hnd (fun m' hm' => by cases hm') (fun m' q hq => by cases hq)
  | finish i =>
    obtain ⟨d, hd, -, rfl⟩ := hostStep_finish hs
    exact hI.finish hd
  | requeue sid id =>
    obtain rfl := Option.some.inj hs
    exact hI.requeue sid id _

/-! ### Counting attempts -/

/-- The attempts made for a row since its last requeue, at the end of a history. -/
def sinceRequeue (sid id : String) (hist : List Happening) : ℕ :=
  hist.foldl (fun n x => if x = .attempt sid id then n + 1 else if x = .requeue sid id then 0 else n) 0

theorem sinceRequeue_snoc (sid id : String) (hist : List Happening) (x : Happening) :
    sinceRequeue sid id (hist ++ [x]) =
      if x = .attempt sid id then sinceRequeue sid id hist + 1
      else if x = .requeue sid id then 0 else sinceRequeue sid id hist := by
  simp [sinceRequeue, List.foldl_append]

theorem count_le_sinceRequeue {sid id : String} (pre : List Happening) : ∀ (mid : List Happening),
    Happening.requeue sid id ∉ mid → mid.count (.attempt sid id) ≤ sinceRequeue sid id (pre ++ mid) := by
  intro mid
  induction mid using List.reverseRecOn with
  | nil => simp
  | append_singleton mid x ih =>
    intro hno
    simp only [List.mem_append, List.mem_singleton, not_or] at hno
    have hle := ih hno.1
    rw [← List.append_assoc, sinceRequeue_snoc, List.count_append, List.count_singleton]
    by_cases hx : x = .attempt sid id
    · simp only [hx, if_true, beq_self_eq_true]
      omega
    · simp only [hx, if_false, beq_iff_eq]
      rw [if_neg fun he => hno.2 he.symm]
      omega

/-- An attempt of the phase is not in the table yet: it is on its way, or its failure is being handled. -/
def Phase.flying : Phase → Bool
  | .attempting _ | .failing _ _ => true
  | _ => false

/-- An attempt for the row is on its way. -/
def Host.Flying (h : Host) (sid id : String) : Prop :=
  ∃ i session m queue phase, h.drains i = some ⟨session, m :: queue, phase⟩ ∧ phase.flying = true ∧
    session.id = sid ∧ m.id = id

/-- A failure handler of the row is about to record the `n`-th failure. -/
def Host.Recording (h : Host) (sid id : String) (n : ℕ) : Prop :=
  ∃ i session m queue permanent, h.drains i = some ⟨session, m :: queue, .failing n permanent⟩ ∧
    session.id = sid ∧ m.id = id

/-- Of a row not delivered, the attempts since its last requeue are those recorded and at most the
one on its way, and no more than its failure handler is about to record. -/
def Host.Counted (h : Host) (sid id : String) : Prop :=
  ¬ IsDelivered (h.outcomes sid) id →
    sinceRequeue sid id h.history ≤ getDeliveryAttempts (h.outcomes sid) id + 1 ∧
    (¬ h.Flying sid id → sinceRequeue sid id h.history ≤ getDeliveryAttempts (h.outcomes sid) id) ∧
    ∀ n, h.Recording sid id n → sinceRequeue sid id h.history ≤ n

/-- Every row is counted, and no point of the history has more than the maximum. -/
structure AttemptInv (h : Host) : Prop where
  drains : DrainInv h
  count : ∀ sid id, h.Counted sid id
  bound : ∀ sid id p, p <+: h.history → sinceRequeue sid id p ≤ deliveryMaxAttempts

theorem attemptInv_empty : AttemptInv Host.empty := by
  refine ⟨drainInv_empty, fun sid id _ => ?_, fun sid id p hp => ?_⟩
  · simp [Host.empty, sinceRequeue]
  · obtain rfl := List.prefix_nil.mp hp
    simp [sinceRequeue]

/-- A row the step neither records, counts, lets go nor starts to record stays counted. -/
theorem Host.Counted.keep {sid id : String} (hc : h.Counted sid id)
    (hout : outcomeOf (h'.outcomes sid) id = outcomeOf (h.outcomes sid) id)
    (hist : sinceRequeue sid id h'.history = sinceRequeue sid id h.history)
    (hfly : h.Flying sid id → h'.Flying sid id)
    (hrec : ∀ n, h'.Recording sid id n → h.Recording sid id n) : h'.Counted sid id := by
  intro hnd
  have hd : ¬ IsDelivered (h.outcomes sid) id := by
    unfold IsDelivered at hnd ⊢
    rw [← hout]
    exact hnd
  have ha : getDeliveryAttempts (h'.outcomes sid) id = getDeliveryAttempts (h.outcomes sid) id := by
    unfold getDeliveryAttempts
    rw [hout]
  obtain ⟨hle, hfree, hread⟩ := hc hd
  rw [hist, ha]
  exact ⟨hle, fun hf => hfree fun hf' => hf (hfly hf'), fun n hn => hread n (hrec n hn)⟩

/-- Attempts on their way in other drains stay so. -/
theorem Host.Flying.other {sid id : String} (hf : h.Flying sid id) {d : Option Drain}
    (hdr : h'.drains = Function.update h.drains i d)
    (hi : ∀ session m queue phase, h.drains i = some ⟨session, m :: queue, phase⟩ → phase.flying = true →
      ¬ (session.id = sid ∧ m.id = id)) : h'.Flying sid id := by
  obtain ⟨j, session, m, queue, phase, hj, hp, hs, hm⟩ := hf
  refine ⟨j, session, m, queue, phase, ?_, hp, hs, hm⟩
  rw [hdr, Function.update_of_ne, hj]
  rintro rfl
  exact hi session m queue phase hj hp ⟨hs, hm⟩

theorem Host.Recording.other {sid id : String} {n : ℕ} (hr : h'.Recording sid id n) {d : Option Drain}
    (hdr : h'.drains = Function.update h.drains i d)
    (hi : ∀ session m queue permanent, d = some ⟨session, m :: queue, .failing n permanent⟩ →
      ¬ (session.id = sid ∧ m.id = id)) : h.Recording sid id n := by
  obtain ⟨j, session, m, queue, permanent, hj, hs, hm⟩ := hr
  rw [hdr] at hj
  rcases Table.eq_of_update hj with ⟨-, hd⟩ | ⟨-, hj⟩
  · exact (hi session m queue permanent hd ⟨hs, hm⟩).elim
  · exact ⟨j, session, m, queue, permanent, hj, hs, hm⟩

/-- Outcomes other than the one written are as before. -/
theorem outcome_update_other {s mid sid id : String} {t : List DeliveredRow}
    (ht : ∀ id, id ≠ mid → outcomeOf t id = outcomeOf (h.outcomes s) id) (hne : ¬ (s = sid ∧ mid = id)) :
    outcomeOf (Function.update h.outcomes s t sid) id = outcomeOf (h.outcomes sid) id := by
  by_cases hs : sid = s
  · subst hs
    rw [Function.update_self]
    exact ht id fun hid => hne ⟨rfl, hid.symm⟩
  · rw [Function.update_of_ne hs]

/-- A step of the drain of the row `m` that adds nothing to the history: every other row stays
counted. -/
theorem AttemptInv.upd (hI : AttemptInv h) (hD : DrainInv h') (hist : h'.history = h.history)
    {session : Session} {m : OutboundMessage} {queue queue' : List OutboundMessage} {phase phase' : Phase}
    (hd : h.drains i = some ⟨session, m :: queue, phase⟩)
    (hdr : h'.drains = Function.update h.drains i (some ⟨session, queue', phase'⟩))
    (hqueue : phase'.flying = true → queue' = m :: queue)
    (hout : ∀ sid id, ¬ (session.id = sid ∧ m.id = id) →
      outcomeOf (h'.outcomes sid) id = outcomeOf (h.outcomes sid) id)
    (hrow : h'.Counted session.id m.id) : AttemptInv h' := by
  refine ⟨hD, fun sid id => ?_, fun sid id p hp => hI.bound sid id p (hist ▸ hp)⟩
  by_cases hne : session.id = sid ∧ m.id = id
  · obtain ⟨rfl, rfl⟩ := hne
    exact hrow
  · refine (hI.count sid id).keep (hout sid id hne) (by rw [hist]) (fun hf => hf.other hdr ?_)
      fun n hn => hn.other hdr ?_
    · intro s m' q p hj _
      rw [hd] at hj
      cases hj
      exact hne
    · intro s m' q permanent he
      cases he
      cases hqueue rfl
      exact hne

/-- The row whose drain stands at another phase than its failure is not about to be recorded. -/
theorem DrainInv.not_recording (hI : DrainInv h) {d : Drain} (hd : h.drains i = some d)
    (hp : ∀ n permanent, d.phase ≠ .failing n permanent) (id : String) (n : ℕ) :
    ¬ h.Recording d.session.id id n := by
  rintro ⟨j, s, m, q, permanent, hj, hs, -⟩
  obtain rfl := hI.one j i _ _ hj hd hs
  rw [hd] at hj
  cases hj
  exact hp n permanent rfl

theorem Due.not_delivered {t : List DeliveredRow} {id : String} {now : ℕ} (hd : Due (outcomeOf t id) now) :
    ¬ IsDelivered t id := by
  rintro ⟨r, hr, hs⟩
  have hf := (undeliverable_false_iff.mp (hd r hr)).1
  rw [hs] at hf
  cases hf

theorem getDeliveryAttempts_recordFailure {t : List DeliveredRow} {m : OutboundMessage} {p : Bool} {n now : ℕ}
    (hd : ¬ IsDelivered (recordFailure p n t m now) m.id) :
    getDeliveryAttempts (recordFailure p n t m now) m.id = n := by
  have hfind := find_markDeliveryFailed t m.id m.id n (if deadLetters p n then none else some (backoffSec n)) now
  rw [if_pos rfl] at hfind
  unfold IsDelivered at hd
  unfold getDeliveryAttempts
  simp only [recordFailure, hfind] at hd ⊢
  cases hr : outcomeOf t m.id with
  | none => simp
  | some r =>
    cases hs : r.status with
    | failed => simp [hs]
    | delivered => simp [hr, hs] at hd

/-- An attempt starts: the row was free, so its attempts so far are those recorded. -/
theorem AttemptInv.begin (hI : AttemptInv h) {env : HostEnv} {session : Session} {m : OutboundMessage}
    {queue : List OutboundMessage} (hd : h.drains i = some ⟨session, m :: queue, .ready⟩)
    (hD : DrainInv { h.setDrain i (some ⟨session, m :: queue, .attempting (deliverMessage env session m)⟩) with
      calls := h.calls ++ (deliverMessage env session m).call env session
      history := h.history ++ [.attempt session.id m.id] }) :
    AttemptInv { h.setDrain i (some ⟨session, m :: queue, .attempting (deliverMessage env session m)⟩) with
      calls := h.calls ++ (deliverMessage env session m).call env session
      history := h.history ++ [.attempt session.id m.id] } := by
  have hdue := hI.drains.due i _ hd m (List.mem_cons_self ..)
  have hlt : getDeliveryAttempts (h.outcomes session.id) m.id < deliveryMaxAttempts := hdue.attempts_lt
  have hfree : ¬ h.Flying session.id m.id := by
    rintro ⟨j, s, m', q, phase, hj, hp, hs, -⟩
    obtain rfl := hI.drains.one j i _ _ hj hd hs
    rw [hd] at hj
    cases hj
    cases hp
  have hc := (hI.count session.id m.id hdue.not_delivered).2.1 hfree
  refine ⟨hD, fun sid id => ?_, fun sid id p hp => ?_⟩
  · by_cases hrow : session.id = sid ∧ m.id = id
    · obtain ⟨rfl, rfl⟩ := hrow
      intro _
      simp only [sinceRequeue_snoc, if_true]
      refine ⟨Nat.succ_le_succ hc, fun hnf => (hnf ?_).elim, fun n hn => ?_⟩
      · refine ⟨i, session, m, queue, .attempting (deliverMessage env session m), ?_, rfl, rfl, rfl⟩
        simp [Host.setDrain]
      · refine (hD.not_recording (i := i) (d := ⟨session, m :: queue, .attempting (deliverMessage env session m)⟩) ?_
          (by simp) m.id n hn).elim
        simp [Host.setDrain]
    · refine (hI.count sid id).keep rfl ?_ (fun hf => hf.other rfl ?_) fun n hn => hn.other rfl ?_
      · simp only [sinceRequeue_snoc, Happening.attempt.injEq, hrow, if_false, reduceCtorEq]
      · intro s m' q phase hj hp
        rw [hd] at hj
        cases hj
        cases hp
      · intro s m' q permanent he
        cases he
  · rcases List.prefix_concat_iff.mp hp with rfl | hp
    · rw [sinceRequeue_snoc]
      by_cases hrow : session.id = sid ∧ m.id = id
      · obtain ⟨rfl, rfl⟩ := hrow
        simp only [if_true]
        omega
      · simp only [Happening.attempt.injEq, hrow, if_false, reduceCtorEq]
        exact hI.bound sid id _ List.prefix_rfl
    · exact hI.bound sid id p hp

/-- A requeue that finds no failed row leaves every outcome as it was. -/
theorem requeue_unchanged {t : List DeliveredRow} {id : String} {now : ℕ}
    (hr : (requeueFailedDelivery t id now).2 = false) (id' : String) :
    outcomeOf (requeueFailedDelivery t id now).1 id' = outcomeOf t id' := by
  rw [find_requeue]
  split
  · rename_i he
    subst he
    cases ho : outcomeOf t id' with
    | none => rfl
    | some r =>
      have hs : r.status ≠ .failed := by simpa [requeueFailedDelivery, ho] using hr
      simp [hs]
  · rfl

/-- A requeue that resets a row starts its count again; one that does not changes nothing. -/
theorem AttemptInv.requeue (hI : AttemptInv h) {sid id : String} {t : List DeliveredRow} {reset : Bool}
    (hr : requeueFailedDelivery (h.outcomes sid) id h.now = (t, reset))
    (hD : DrainInv { h.setOutcomes sid t with
      history := h.history ++ if reset then [.requeue sid id] else [] }) :
    AttemptInv { h.setOutcomes sid t with
      history := h.history ++ if reset then [.requeue sid id] else [] } := by
  obtain rfl : (requeueFailedDelivery (h.outcomes sid) id h.now).1 = t := by rw [hr]
  have hreset : (requeueFailedDelivery (h.outcomes sid) id h.now).2 = reset := by rw [hr]
  cases reset with
  | false =>
    refine ⟨hD, fun sid' id' => ?_, fun sid' id' p hp => hI.bound sid' id' p (by simpa using hp)⟩
    refine (hI.count sid' id').keep ?_ (by simp) (fun hf => hf) fun n hn => hn
    simp only [Host.setOutcomes]
    by_cases hs : sid' = sid
    · subst hs
      rw [Function.update_self]
      exact requeue_unchanged hreset id'
    · rw [Function.update_of_ne hs]
  | true =>
    have hother : ∀ id', id' ≠ id →
        outcomeOf (requeueFailedDelivery (h.outcomes sid) id h.now).1 id' = outcomeOf (h.outcomes sid) id' := by
      intro id' hne
      rw [find_requeue, if_neg hne]
    refine ⟨hD, fun sid' id' => ?_, fun sid' id' p hp => ?_⟩
    · by_cases hrow : sid = sid' ∧ id = id'
      · obtain ⟨rfl, rfl⟩ := hrow
        intro _
        simp [sinceRequeue_snoc]
      · refine (hI.count sid' id').keep (outcome_update_other hother hrow) ?_ (fun hf => hf) fun n hn => hn
        simp only [if_true, sinceRequeue_snoc, Happening.requeue.injEq, hrow, if_false, reduceCtorEq]
    · simp only [if_true] at hp
      rcases List.prefix_concat_iff.mp hp with rfl | hp
      · have hb := hI.bound sid' id' _ List.prefix_rfl
        rw [sinceRequeue_snoc, if_neg (by simp)]
        split
        · exact Nat.zero_le _
        · exact hb
      · exact hI.bound sid' id' p hp

/-- The drain's row becomes delivered, and nothing else changes. -/
theorem AttemptInv.delivered (hI : AttemptInv h) (hD : DrainInv h') (hist : h'.history = h.history)
    {session : Session} {m : OutboundMessage} {queue queue' : List OutboundMessage} {phase phase' : Phase}
    (hd : h.drains i = some ⟨session, m :: queue, phase⟩)
    (hdr : h'.drains = Function.update h.drains i (some ⟨session, queue', phase'⟩))
    (hp : phase'.flying = false) {pid : Option String}
    (hout : h'.outcomes =
      Function.update h.outcomes session.id (markDelivered (h.outcomes session.id) m.id pid h.now)) :
    AttemptInv h' := by
  refine hI.upd hD hist hd hdr (fun hf => by rw [hp] at hf; cases hf) (fun sid id hne => ?_) fun hnd => ?_
  · rw [hout]
    exact outcome_update_other (markDelivered_other _ _ _ _) hne
  · refine (hnd ?_).elim
    rw [hout, Function.update_self]
    exact isDelivered_markDelivered _ _ _ _

/-- The failure handler reads the attempts recorded: one less, at most, than were made. -/
theorem AttemptInv.fail (hI : AttemptInv h) {session : Session} {m : OutboundMessage}
    {queue : List OutboundMessage} {phase : Phase} (hd : h.drains i = some ⟨session, m :: queue, phase⟩)
    {permanent : Bool} (hD : DrainInv (h.fail i session m queue permanent)) :
    AttemptInv (h.fail i session m queue permanent) := by
  refine hI.upd hD rfl hd rfl (fun _ => rfl) (fun sid id _ => rfl) fun hnd => ?_
  obtain ⟨hle, -, -⟩ := hI.count session.id m.id hnd
  refine ⟨hle, fun hnf => (hnf ?_).elim, fun n hn => ?_⟩
  · exact ⟨i, session, m, queue, _, Function.update_self .., rfl, rfl, rfl⟩
  · -- the session has one drain, and it reads what is recorded
    obtain ⟨j, s, m', q, p, hj, hs, hm⟩ := hn
    rcases Table.eq_of_update hj with ⟨-, he⟩ | ⟨hji, hj⟩
    · cases he
      exact hle
    · exact (hji (hI.drains.one j i _ _ hj hd hs)).elim

/-- The failure handler records its count, whatever a requeue did to the row since it read. -/
theorem AttemptInv.record (hI : AttemptInv h) {session : Session} {m : OutboundMessage}
    {queue : List OutboundMessage} {n : ℕ} {permanent : Bool}
    (hd : h.drains i = some ⟨session, m :: queue, .failing n permanent⟩) {env : HostEnv}
    (hD : DrainInv (h.record i session m queue env n permanent)) :
    AttemptInv (h.record i session m queue env n permanent) := by
  refine hI.upd hD rfl hd rfl (fun hf => by cases hf)
    (fun sid id hne => outcome_update_other (recordFailure_other _ _ _ _ _) hne) fun hnd => ?_
  have hwas : ¬ IsDelivered (h.outcomes session.id) m.id := fun hdel =>
    hnd (isDelivered_update hdel fun _ => markDeliveryFailed_keeps hdel _ _ _ _)
  have hle := (hI.count session.id m.id hwas).2.2 n ⟨i, session, m, queue, permanent, hd, rfl, rfl⟩
  have ha : getDeliveryAttempts ((h.record i session m queue env n permanent).outcomes session.id) m.id = n := by
    simp only [Host.record, Host.setDrain, Host.setOutcomes, Function.update_self] at hnd ⊢
    exact getDeliveryAttempts_recordFailure hnd
  rw [ha]
  refine ⟨Nat.le_succ_of_le hle, fun _ => hle, fun k hk => ?_⟩
  refine (hD.not_recording (i := i) (d := ⟨session, m :: queue, .closing⟩) ?_ (by simp) m.id k hk).elim
  simp [Host.record, Host.setDrain]

theorem attemptInv_step (h : Host) (e : HostEvent) (h' : Host) (hI : AttemptInv h)
    (hs : hostStep h e = some h') : AttemptInv h' := by
  have hD := drainInv_step h e h' hI.drains hs
  cases e with
  | tick n =>
    obtain rfl := Option.some.inj hs
    exact ⟨hD, fun sid id => (hI.count sid id).keep rfl rfl (fun hf => hf) fun n hn => hn, hI.bound⟩
  | poll i session t =>
    rcases hostStep_poll hs with ⟨-, rfl⟩ | ⟨hnone, -, rfl⟩
    · exact hI
    · refine ⟨hD, fun sid id => ?_, hI.bound⟩
      refine (hI.count sid id).keep rfl rfl (fun hf => hf.other rfl ?_) fun n hn => hn.other rfl ?_
      · intro s m q phase hj
        rw [hnone] at hj
        cases hj
      · intro s m q permanent he
        cases congrArg (Option.map Drain.phase) he
  | «begin» i env =>
    obtain ⟨session, m, queue, hd, ⟨-, rfl⟩ | ⟨-, rfl⟩⟩ := hostStep_begin hs
    · exact hI.delivered hD rfl hd rfl rfl rfl
    · exact hI.begin hd hD
  | resolve i pid =>
    obtain ⟨session, m, queue, plan, hd, -, rfl⟩ := hostStep_resolve hs
    exact hI.delivered hD rfl hd rfl rfl rfl
  | advance i =>
    obtain ⟨session, m, queue, hd, rfl⟩ := hostStep_advance hs
    refine hI.upd hD rfl hd rfl (fun hf => by cases hf) (fun sid id _ => rfl) fun hnd => ?_
    exact (hnd (hI.drains.posted i session m queue hd)).elim
  | reject i =>
    obtain ⟨session, m, queue, permanent, rfl, ⟨plan, hd, -⟩ | ⟨hd, -⟩⟩ := hostStep_reject hs
    · exact hI.fail hd hD
    · exact hI.fail hd hD
  | record i env =>
    obtain ⟨session, m, queue, n, permanent, hd, rfl⟩ := hostStep_record hs
    exact hI.record hd hD
  | finish i =>
    obtain ⟨d, hd, hph, rfl⟩ := hostStep_finish hs
    refine ⟨hD, fun sid id => ?_, hI.bound⟩
    refine (hI.count sid id).keep rfl rfl (fun hf => hf.other rfl ?_) fun n hn => hn.other rfl ?_
    · intro s m q phase hj hp
      rw [hd] at hj
      cases hj
      rcases hph with rfl | rfl <;> cases hp
    · intro s m q permanent he
      cases he
  | requeue sid id =>
    obtain rfl := Option.some.inj hs
    exact hI.requeue rfl hD

theorem attemptInv_run {es : List HostEvent} (hr : Trans.run hostStep Host.empty es = some h) : AttemptInv h :=
  Trans.run_inv attemptInv_step attemptInv_empty hr

/-- Only a drain that takes a row adds an attempt. -/
theorem attempt_due (hI : DrainInv h) {e : HostEvent} {sid id : String} (hs : hostStep h e = some h')
    (hist : h'.history = h.history ++ [.attempt sid id]) : Due (outcomeOf (h.outcomes sid) id) h.now := by
  have hsame : h'.history ≠ h.history := by
    intro he
    rw [he] at hist
    simp at hist
  cases e with
  | tick n =>
    obtain rfl := Option.some.inj hs
    exact (hsame rfl).elim
  | poll i session t =>
    rcases hostStep_poll hs with ⟨-, rfl⟩ | ⟨-, -, rfl⟩ <;> exact (hsame rfl).elim
  | «begin» i env =>
    obtain ⟨session, m, queue, hd, ⟨-, rfl⟩ | ⟨-, rfl⟩⟩ := hostStep_begin hs
    · exact (hsame rfl).elim
    · have hrow := List.append_cancel_left hist
      simp only [List.cons.injEq, Happening.attempt.injEq, and_true] at hrow
      obtain ⟨rfl, rfl⟩ := hrow
      exact hI.due i _ hd m (List.mem_cons_self ..)
  | resolve i pid =>
    obtain ⟨session, m, queue, plan, -, -, rfl⟩ := hostStep_resolve hs
    exact (hsame rfl).elim
  | advance i =>
    obtain ⟨session, m, queue, -, rfl⟩ := hostStep_advance hs
    exact (hsame rfl).elim
  | reject i =>
    obtain ⟨session, m, queue, permanent, rfl, -⟩ := hostStep_reject hs
    exact (hsame rfl).elim
  | record i env =>
    obtain ⟨session, m, queue, n, permanent, -, rfl⟩ := hostStep_record hs
    exact (hsame rfl).elim
  | finish i =>
    obtain ⟨d, -, -, rfl⟩ := hostStep_finish hs
    exact (hsame rfl).elim
  | requeue sid' id' =>
    obtain rfl := Option.some.inj hs
    have hrow := List.append_cancel_left hist
    split at hrow <;> simp at hrow

/-- **The delivered table.** After any polls, outcomes, clock steps and requeues:

* a row recorded as delivered stays so whatever follows, a failure reported for it included;
* a step that starts an attempt finds no outcome of the row, or a failed one with attempts left whose
  retry time has come: not a delivered, parked or exhausted row, nor one inside its back-off;
* a stretch of the history without a requeue of the row has at most the maximum of attempts for it. -/
theorem delivery_attempts {es : List HostEvent} (hrun : Trans.run hostStep Host.empty es = some h) :
    (∀ sid id, IsDelivered (h.outcomes sid) id → ∀ es' h', Trans.run hostStep h es' = some h' →
      IsDelivered (h'.outcomes sid) id) ∧
    (∀ e h' sid id, hostStep h e = some h' → h'.history = h.history ++ [.attempt sid id] →
      ∀ row, outcomeOf (h.outcomes sid) id = some row →
        row.status = .failed ∧ row.attempts < deliveryMaxAttempts ∧
          ∃ t, row.nextRetryAt = some t ∧ t ≤ h.now) ∧
    (∀ sid id pre mid post, h.history = pre ++ mid ++ post → Happening.requeue sid id ∉ mid →
      mid.count (.attempt sid id) ≤ deliveryMaxAttempts) := by
  have hI := attemptInv_run hrun
  refine ⟨fun sid id hd es' h' hr => ?_, fun e h' sid id hs hist row hrow => ?_,
    fun sid id pre mid post hh hno => ?_⟩
  · exact Trans.run_inv (isDelivered_step sid id) hd hr
  · exact undeliverable_false_iff.mp (attempt_due hI.drains hs hist row hrow)
  · exact (count_le_sinceRequeue pre mid hno).trans (hI.bound sid id _ ⟨post, hh.symm⟩)

/-- One row: the first attempt fails, the second, a minute later, succeeds. -/
theorem delivery_attempts_sample :
    ∃ h, Trans.run hostStep Host.empty
        [.poll 0 sampleSession (sampleOut sampleReply), .begin 0 sampleEnv, .reject 0,
         .record 0 sampleEnv, .finish 0, .poll 1 sampleSession (sampleOut sampleReply), .finish 1, .tick 60,
         .poll 2 sampleSession (sampleOut sampleReply), .begin 2 sampleEnv, .resolve 2 none] = some h ∧
      h.history = [.attempt "s" "m", .attempt "s" "m"] ∧ IsDelivered (h.outcomes "s") "m" ∧
      ((∀ sid id, IsDelivered (h.outcomes sid) id → ∀ es' h', Trans.run hostStep h es' = some h' →
          IsDelivered (h'.outcomes sid) id) ∧
        (∀ e h' sid id, hostStep h e = some h' → h'.history = h.history ++ [.attempt sid id] →
          ∀ row, outcomeOf (h.outcomes sid) id = some row →
            row.status = .failed ∧ row.attempts < deliveryMaxAttempts ∧
              ∃ t, row.nextRetryAt = some t ∧ t ≤ h.now) ∧
        ∀ sid id pre mid post, h.history = pre ++ mid ++ post → Happening.requeue sid id ∉ mid →
          mid.count (.attempt sid id) ≤ deliveryMaxAttempts) := by
  have hrun : Trans.run hostStep Host.empty
      [.poll 0 sampleSession (sampleOut sampleReply), .begin 0 sampleEnv, .reject 0,
       .record 0 sampleEnv, .finish 0, .poll 1 sampleSession (sampleOut sampleReply), .finish 1, .tick 60,
       .poll 2 sampleSession (sampleOut sampleReply), .begin 2 sampleEnv, .resolve 2 none] = some _ := rfl
  exact ⟨_, hrun, rfl, ⟨_, rfl, rfl⟩, delivery_attempts hrun⟩

end AgentDesk
