/-
# Rows that are marked delivered

`drainSession` (`src/delivery.ts`) takes every return of `deliverMessage` for a success. Some returns come before
anything was done: no delivery adapter is set, the row has no routing fields, its system action is refused or
nobody handles it. And the adapter that is set (`src/index.ts`) is a switch on the channel type, whose `deliver`
returns as well where no channel adapter serves the type.

Here the machine of the drains keeps, beside each drain, what its attempt was begun with, and writes down each row
that a drain marks, with what had been done for it (`Work`). The host's own state is as before.

* `marked_actionable_iff`: over any run, every row that was marked had something done for it, exactly when every
  attempt that returned was for a row that can be acted on (`Actionable`).
* `unrouted_marked`: a row without routing fields is recorded as delivered, and no adapter was called.
-/
import AgentDesk.DeliveryAttempts

namespace AgentDesk

open Js

/-! ### What an attempt does -/

/-- The maps a call looks its channel type or its action up in. -/
structure Registries where
  activeAdapters : List String
  actionHandlers : List String

/-- What was done for a row. -/
inductive Work where
  /-- An `llm-usage` row: there is nothing to do. -/
  | usage
  | action (name : String)
  | route
  /-- The `deliver` of a channel adapter. -/
  | deliver (target : Target)
  deriving DecidableEq, Repr

/-- `handleSystemAction`: the action whose handler is called. -/
def handledAction (reg : Registries) (content : List (String × Json)) : Option String :=
  match fieldOf content "action" with
  | some (.str action) =>
    if 128 < (action.toList.map codeUnits).sum then none
    else if action ∈ reg.actionHandlers then some action
    else none
  | _ => none

/-- What an attempt has done when it returns. -/
def Plan.work (reg : Registries) : Plan → Option Work
  | .system content => (handledAction reg content).map .action
  | .agent => some .route
  -- the host's adapter returns where no channel adapter serves the type
  | .send target _ => if target.channelType ∈ reg.activeAdapters then some (.deliver target) else none
  | .drop | .violation _ | .throws _ | .unrouted => none

/-- A row marked delivered by a drain of the session, and what had been done for it. -/
structure Marking where
  session : Session
  msg : OutboundMessage
  work : Option Work

/-- The host, what the attempt of each drain was begun with, and the rows marked so far. -/
structure DeliveryDesk where
  host : Host
  begun : ℕ → Option (HostEnv × Registries)
  marked : List Marking

def DeliveryDesk.empty : DeliveryDesk := ⟨Host.empty, fun _ => none, []⟩

/-- The row an event marks delivered. -/
def DeliveryDesk.marking (st : DeliveryDesk) : HostEvent → Option Marking
  | .begin i _ => match st.host.drains i with
    | some ⟨session, m :: _, .ready⟩ => if m.kind = .llmUsage then some ⟨session, m, some .usage⟩ else none
    | _ => none
  | .resolve i _ => match st.host.drains i, st.begun i with
    | some ⟨session, m :: _, .attempting plan⟩, some (_, reg) => some ⟨session, m, plan.work reg⟩
    | _, _ => none
  | _ => none

/-- The attempts after an event. -/
def DeliveryDesk.attempts (st : DeliveryDesk) (reg : Registries) : HostEvent → ℕ → Option (HostEnv × Registries)
  | .begin i env => Function.update st.begun i (some (env, reg))
  | _ => st.begun

/-- A step of the host; the registries are the ones of its moment. -/
def deliveryDeskStep (st : DeliveryDesk) (e : HostEvent × Registries) : Option DeliveryDesk :=
  (hostStep st.host e.1).map fun host =>
    ⟨host, st.attempts e.2 e.1, st.marked ++ (st.marking e.1).toList⟩

/-- Something had been done for every row that was marked. -/
def WorkDone (st : DeliveryDesk) : Prop := ∀ r ∈ st.marked, r.work ≠ none

/-- The row can be acted on: a delivery adapter is set; its system action is handled; or, unless it goes to an agent,
it has a chat, whose channel type is served. -/
def Actionable (env : HostEnv) (reg : Registries) (m : OutboundMessage) : Prop :=
  env.adapter = true ∧
    if m.kind = .system then
      ∃ content, parseOutboundContent m.content = .ok content ∧ (handledAction reg content).isSome = true
    else if m.channelType = some "agent" then True
    else if m.kind = .roster then "feishu" ∈ reg.activeAdapters
    else ∃ channelType ∈ reg.activeAdapters, m.channelType = some channelType ∧ channelType ≠ "" ∧
      truthy m.platformId = true

/-- An attempt that returns was for a row that could be acted on when it began. -/
def ReturnsActionable (st : DeliveryDesk) (e : HostEvent × Registries) : Prop :=
  ∀ i pid session m queue plan env reg, e.1 = .resolve i pid →
    st.host.drains i = some ⟨session, m :: queue, .attempting plan⟩ → st.begun i = some (env, reg) →
      Actionable env reg m

/-! ### A call that returns -/

theorem send_work {reg : Registries} {target : Target} {threadId : Option String} :
    (Plan.send target threadId).work reg ≠ none ↔ target.channelType ∈ reg.activeAdapters := by
  simp [Plan.work]

theorem work_isSome_iff {env : HostEnv} {reg : Registries} {session : Session} {m : OutboundMessage}
    (hreturns : (deliverMessage env session m).mayReturn = true) :
    (deliverMessage env session m).work reg ≠ none ↔ Actionable env reg m := by
  unfold Actionable
  revert hreturns
  unfold deliverMessage
  cases env.adapter with
  | false => simp [Plan.work]
  | true =>
    rw [Bool.not_true, if_neg Bool.false_ne_true]
    simp only [true_and]
    split
    · exact fun h => (nomatch h)
    rename_i content hcontent
    split
    · -- a system action
      intro _
      simp [Plan.work, hcontent, Option.isSome_iff_ne_none]
    split
    · -- another agent
      exact fun _ => ⟨fun _ => trivial, fun _ h => (nomatch h)⟩
    split
    · -- a roster row that has a target has a Feishu chat
      split
      · exact fun h => (nomatch h)
      rename_i target htarget
      obtain ⟨grant, hpasses⟩ := deliverRosterMessage_ok.mp htarget
      intro _
      rw [send_work, hpasses.feishu]
    split
    · exact fun h => (nomatch h)
    split
    · -- a chat row
      rename_i hrouted
      obtain ⟨⟨channelType, hct, hne⟩, hpid⟩ : (∃ x, m.channelType = some x ∧ x ≠ "") ∧ truthy m.platformId = true := by
        rw [Bool.and_eq_true, truthy_iff] at hrouted
        exact hrouted
      split
      · exact fun h => (nomatch h)
      split
      · exact fun h => (nomatch h)
      split
      · exact fun h => (nomatch h)
      intro _
      rw [send_work, hct, Option.getD_some]
      constructor
      · exact fun hmem => ⟨channelType, hmem, rfl, hne, hpid⟩
      · rintro ⟨ct, hmem, he, -, -⟩
        rwa [Option.some.inj he]
    · -- no chat
      rename_i hrouted
      split
      · exact fun h => (nomatch h)
      refine fun _ => ⟨fun h => (h rfl).elim, ?_⟩
      rintro ⟨channelType, -, hct, hne, hpid⟩
      rw [Bool.and_eq_true, truthy_iff] at hrouted
      exact (hrouted ⟨⟨channelType, hct, hne⟩, hpid⟩).elim

/-! ### What a step can do -/

variable {st st' : DeliveryDesk} {e : HostEvent × Registries}

theorem deliveryDeskStep_some (hs : deliveryDeskStep st e = some st') :
    hostStep st.host e.1 = some st'.host ∧ st'.begun = st.attempts e.2 e.1 ∧
      st'.marked = st.marked ++ (st.marking e.1).toList := by
  obtain ⟨host, hhost, rfl⟩ := Option.map_eq_some_iff.mp hs
  exact ⟨hhost, rfl, rfl⟩

/-- An attempt on its way was begun, with the plan `deliverMessage` made of its row. -/
def AttemptsBegun (st : DeliveryDesk) : Prop :=
  ∀ i session m queue plan, st.host.drains i = some ⟨session, m :: queue, .attempting plan⟩ →
    ∃ env reg, st.begun i = some (env, reg) ∧ plan = deliverMessage env session m

theorem hostStep_attempting {h h' : Host} {e : HostEvent} (hs : hostStep h e = some h') {i : ℕ} {session : Session}
    {m : OutboundMessage} {queue : List OutboundMessage} {plan : Plan}
    (hd : h'.drains i = some ⟨session, m :: queue, .attempting plan⟩) :
    (h.drains i = some ⟨session, m :: queue, .attempting plan⟩ ∧ ∀ env, e ≠ .begin i env) ∨
      ∃ env, e = .begin i env ∧ plan = deliverMessage env session m ∧ h'.calls = h.calls ++ plan.call env session := by
  cases e with
  | tick seconds =>
    obtain rfl := Option.some.inj hs
    exact .inl ⟨hd, fun _ he => (nomatch he)⟩
  | poll j session' t =>
    rcases hostStep_poll hs with ⟨-, rfl⟩ | ⟨-, -, rfl⟩
    · exact .inl ⟨hd, fun _ he => (nomatch he)⟩
    · rcases Table.eq_of_update hd with ⟨-, hnew⟩ | ⟨-, hold⟩
      · simp at hnew
      · exact .inl ⟨hold, fun _ he => (nomatch he)⟩
  | begin j env =>
    obtain ⟨session', m', queue', hready, ⟨-, rfl⟩ | ⟨-, rfl⟩⟩ := hostStep_begin hs <;>
      rcases Table.eq_of_update hd with ⟨rfl, hnew⟩ | ⟨hne, hold⟩
    · cases hnew
    · exact .inl ⟨hold, fun _ he => by cases he; exact hne rfl⟩
    · cases hnew
      exact .inr ⟨env, rfl, rfl, rfl⟩
    · exact .inl ⟨hold, fun _ he => by cases he; exact hne rfl⟩
  | resolve j pid =>
    obtain ⟨session', m', queue', plan', -, -, rfl⟩ := hostStep_resolve hs
    rcases Table.eq_of_update hd with ⟨-, hnew⟩ | ⟨-, hold⟩
    · cases hnew
    · exact .inl ⟨hold, fun _ he => (nomatch he)⟩
  | advance j =>
    obtain ⟨session', m', queue', -, rfl⟩ := hostStep_advance hs
    rcases Table.eq_of_update hd with ⟨-, hnew⟩ | ⟨-, hold⟩
    · cases hnew
    · exact .inl ⟨hold, fun _ he => (nomatch he)⟩
  | reject j =>
    obtain ⟨session', m', queue', permanent, rfl, -⟩ := hostStep_reject hs
    rcases Table.eq_of_update hd with ⟨-, hnew⟩ | ⟨-, hold⟩
    · cases hnew
    · exact .inl ⟨hold, fun _ he => (nomatch he)⟩
  | record j env =>
    obtain ⟨session', m', queue', attempts, permanent, -, rfl⟩ := hostStep_record hs
    rcases Table.eq_of_update hd with ⟨-, hnew⟩ | ⟨-, hold⟩
    · cases hnew
    · exact .inl ⟨hold, fun _ he => (nomatch he)⟩
  | finish j =>
    obtain ⟨d, -, -, rfl⟩ := hostStep_finish hs
    rcases Table.eq_of_update hd with ⟨-, hnew⟩ | ⟨-, hold⟩
    · cases hnew
    · exact .inl ⟨hold, fun _ he => (nomatch he)⟩
  | requeue sessionId messageOutId =>
    obtain rfl := Option.some.inj hs
    exact .inl ⟨hd, fun _ he => (nomatch he)⟩

theorem attemptsBegun_step (st : DeliveryDesk) (e : HostEvent × Registries) (st' : DeliveryDesk) (h : AttemptsBegun st)
    (hs : deliveryDeskStep st e = some st') : AttemptsBegun st' := by
  obtain ⟨hhost, hbegun, -⟩ := deliveryDeskStep_some hs
  intro i session m queue plan hd
  rw [hbegun]
  rcases hostStep_attempting hhost hd with ⟨hold, hother⟩ | ⟨env, he, rfl, -⟩
  · obtain ⟨env, reg, hat, rfl⟩ := h i session m queue plan hold
    refine ⟨env, reg, ?_, rfl⟩
    obtain ⟨e, reg'⟩ := e
    cases e with
    | begin j env' =>
      have hne : i ≠ j := fun hij => hother env' (by rw [hij])
      rw [DeliveryDesk.attempts, Function.update_of_ne hne]
      exact hat
    | tick _ | poll _ _ _ | resolve _ _ | advance _ | reject _ | record _ _ | finish _ | requeue _ _ => exact hat
  · exact ⟨env, e.2, by rw [he, DeliveryDesk.attempts, Function.update_self], rfl⟩

theorem calls_kept {h h' : Host} {e : HostEvent} (hs : hostStep h e = some h') {c : Call} (hc : c ∈ h.calls) :
    c ∈ h'.calls := by
  cases e with
  | tick seconds =>
    obtain rfl := Option.some.inj hs
    exact hc
  | poll j session t =>
    rcases hostStep_poll hs with ⟨-, rfl⟩ | ⟨-, -, rfl⟩ <;> exact hc
  | begin j env =>
    obtain ⟨session, m, queue, -, ⟨-, rfl⟩ | ⟨-, rfl⟩⟩ := hostStep_begin hs
    · exact hc
    · exact List.mem_append_left _ hc
  | resolve j pid =>
    obtain ⟨session, m, queue, plan, -, -, rfl⟩ := hostStep_resolve hs
    exact hc
  | advance j =>
    obtain ⟨session, m, queue, -, rfl⟩ := hostStep_advance hs
    exact hc
  | reject j =>
    obtain ⟨session, m, queue, permanent, rfl, -⟩ := hostStep_reject hs
    exact hc
  | record j env =>
    obtain ⟨session, m, queue, attempts, permanent, -, rfl⟩ := hostStep_record hs
    exact List.mem_append_left _ hc
  | finish j =>
    obtain ⟨d, -, -, rfl⟩ := hostStep_finish hs
    exact hc
  | requeue sessionId messageOutId =>
    obtain rfl := Option.some.inj hs
    exact hc

theorem isDelivered_setOutcomes {h : Host} {sid k id : String} {t : List DeliveredRow}
    (hd : IsDelivered ((h.setOutcomes k t).outcomes sid) id) :
    (sid = k ∧ IsDelivered t id) ∨ IsDelivered (h.outcomes sid) id := by
  rcases Table.eq_of_update (rfl : Function.update h.outcomes k t sid = _) with ⟨hsid, ht⟩ | ⟨-, hold⟩
  · exact .inl ⟨hsid, ht ▸ hd⟩
  · exact .inr (hold ▸ hd)

theorem isDelivered_marking (h : AttemptsBegun st) (hs : deliveryDeskStep st e = some st') {sid id : String}
    (hd : IsDelivered (st'.host.outcomes sid) id) :
    IsDelivered (st.host.outcomes sid) id ∨ ∃ r ∈ st.marking e.1, r.session.id = sid ∧ r.msg.id = id := by
  obtain ⟨hhost, -, -⟩ := deliveryDeskStep_some hs
  obtain ⟨e, reg⟩ := e
  generalize st'.host = host at hhost hd
  cases e with
  | tick seconds =>
    obtain rfl := Option.some.inj hhost
    exact .inl hd
  | poll j session t =>
    rcases hostStep_poll hhost with ⟨-, rfl⟩ | ⟨-, -, rfl⟩ <;> exact .inl hd
  | begin j env =>
    obtain ⟨session, m, queue, hready, ⟨hkind, rfl⟩ | ⟨-, rfl⟩⟩ := hostStep_begin hhost
    · rcases isDelivered_setOutcomes hd with ⟨rfl, ht⟩ | hd
      · rcases isDelivered_markDelivered_iff.mp ht with rfl | hd
        · exact .inr ⟨⟨session, m, some .usage⟩, by simp only [DeliveryDesk.marking, hready, hkind]; rfl, rfl, rfl⟩
        · exact .inl hd
      · exact .inl hd
    · exact .inl hd
  | resolve j pid =>
    obtain ⟨session, m, queue, plan, hat, -, rfl⟩ := hostStep_resolve hhost
    obtain ⟨env, reg', hbegun, rfl⟩ := h j session m queue plan hat
    rcases isDelivered_setOutcomes hd with ⟨rfl, ht⟩ | hd
    · rcases isDelivered_markDelivered_iff.mp ht with rfl | hd
      · refine .inr ⟨⟨session, m, (deliverMessage env session m).work reg'⟩, ?_, rfl, rfl⟩
        simp only [DeliveryDesk.marking, hat, hbegun]
        rfl
      · exact .inl hd
    · exact .inl hd
  | advance j =>
    obtain ⟨session, m, queue, -, rfl⟩ := hostStep_advance hhost
    exact .inl hd
  | reject j =>
    obtain ⟨session, m, queue, permanent, rfl, -⟩ := hostStep_reject hhost
    exact .inl hd
  | record j env =>
    obtain ⟨session, m, queue, attempts, permanent, -, rfl⟩ := hostStep_record hhost
    rcases isDelivered_setOutcomes hd with ⟨rfl, ht⟩ | hd
    · exact .inl (isDelivered_markDeliveryFailed_iff.mp ht)
    · exact .inl hd
  | finish j =>
    obtain ⟨d, -, -, rfl⟩ := hostStep_finish hhost
    exact .inl hd
  | requeue sessionId messageOutId =>
    obtain rfl := Option.some.inj hhost
    rcases isDelivered_setOutcomes hd with ⟨rfl, ht⟩ | hd
    · exact .inl (isDelivered_requeue_iff.mp ht)
    · exact .inl hd

theorem workDone_step (st : DeliveryDesk) (e : HostEvent × Registries) (st' : DeliveryDesk) (h : AttemptsBegun st)
    (hP : WorkDone st) (hs : deliveryDeskStep st e = some st') : WorkDone st' ↔ ReturnsActionable st e := by
  obtain ⟨hhost, -, hmarked⟩ := deliveryDeskStep_some hs
  have hiff : WorkDone st' ↔ ∀ r ∈ st.marking e.1, r.work ≠ none := by
    unfold WorkDone
    rw [hmarked, List.forall_mem_append]
    exact ⟨fun h' r hr => h'.2 r (by simpa using hr), fun h' => ⟨hP, fun r hr => h' r (by simpa using hr)⟩⟩
  rw [hiff]
  obtain ⟨e, reg⟩ := e
  cases e with
  | resolve i pid =>
    obtain ⟨session, m, queue, plan, hd, hreturns, -⟩ := hostStep_resolve hhost
    obtain ⟨env, reg', hat, rfl⟩ := h i session m queue plan hd
    have hmark : st.marking (.resolve i pid) =
        some ⟨session, m, (deliverMessage env session m).work reg'⟩ := by
      simp only [DeliveryDesk.marking, hd, hat]
    rw [hmark]
    constructor
    · intro hw j pid' session' m' queue' plan' env' reg'' he hd' hat'
      cases he
      cases hd.symm.trans hd'
      cases hat.symm.trans hat'
      exact (work_isSome_iff hreturns).mp (hw _ rfl)
    · rintro hC r ⟨⟩
      exact (work_isSome_iff hreturns).mpr (hC i pid session m queue _ env reg' rfl hd hat)
  | begin i env =>
    refine ⟨fun _ _ _ _ _ _ _ _ _ he => (nomatch he), fun _ r hr => ?_⟩
    simp only [DeliveryDesk.marking] at hr
    split at hr
    · split at hr
      · cases hr
        exact fun h => (nomatch h)
      · cases hr
    · cases hr
  | tick _ | poll _ _ _ | advance _ | reject _ | record _ _ | finish _ | requeue _ _ =>
    exact ⟨fun _ _ _ _ _ _ _ _ _ he => (nomatch he), fun _ r hr => (nomatch hr)⟩

/-! ### Runs -/

/-- Every row recorded as delivered was marked, and where a channel adapter's `deliver` is said to have been done for
it, there was one. -/
structure MarkingsKept (st : DeliveryDesk) : Prop where
  begun : AttemptsBegun st
  marked : ∀ sid id, IsDelivered (st.host.outcomes sid) id → ∃ r ∈ st.marked, r.session.id = sid ∧ r.msg.id = id
  sending : ∀ i session m queue target threadId,
    st.host.drains i = some ⟨session, m :: queue, .attempting (.send target threadId)⟩ →
      ∃ c ∈ st.host.calls, c.session = session ∧ c.target = target
  called : ∀ r ∈ st.marked, ∀ target, r.work = some (.deliver target) →
    ∃ c ∈ st.host.calls, c.session = r.session ∧ c.target = target

theorem deliver_work {reg : Registries} {plan : Plan} {target : Target} (h : plan.work reg = some (.deliver target)) :
    ∃ threadId, plan = .send target threadId := by
  cases plan with
  | send t threadId =>
    simp only [Plan.work] at h
    split at h
    · cases h
      exact ⟨threadId, rfl⟩
    · cases h
  | system content =>
    obtain ⟨action, -, he⟩ := Option.map_eq_some_iff.mp h
    cases he
  | agent | drop | unrouted | violation _ | throws _ => cases h

theorem markingsKept_step (st : DeliveryDesk) (e : HostEvent × Registries) (st' : DeliveryDesk) (h : MarkingsKept st)
    (hs : deliveryDeskStep st e = some st') : MarkingsKept st' := by
  obtain ⟨hhost, -, hmarked⟩ := deliveryDeskStep_some hs
  refine ⟨attemptsBegun_step st e st' h.begun hs, fun sid id hd => ?_, fun i session m queue target threadId hd => ?_,
    fun r hr target hw => ?_⟩
  · rw [hmarked]
    rcases isDelivered_marking h.begun hs hd with hd | ⟨r, hr, hid⟩
    · obtain ⟨r, hr, hid⟩ := h.marked sid id hd
      exact ⟨r, List.mem_append_left _ hr, hid⟩
    · exact ⟨r, List.mem_append_right _ (by simpa using hr), hid⟩
  · rcases hostStep_attempting hhost hd with ⟨hold, -⟩ | ⟨env, -, -, hcalls⟩
    · obtain ⟨c, hc, hct⟩ := h.sending i session m queue target threadId hold
      exact ⟨c, calls_kept hhost hc, hct⟩
    · rw [hcalls]
      exact ⟨_, List.mem_append_right _ (.head _), rfl, rfl⟩
  · rw [hmarked] at hr
    rcases List.mem_append.mp hr with hr | hr
    · obtain ⟨c, hc, hct⟩ := h.called r hr target hw
      exact ⟨c, calls_kept hhost hc, hct⟩
    · -- the call of the attempt that returns
      have hmark : st.marking e.1 = some r := by simpa using hr
      unfold DeliveryDesk.marking at hmark
      split at hmark
      · split at hmark
        · split at hmark
          · cases hmark
            cases hw
          · cases hmark
        · cases hmark
      · split at hmark
        · rename_i hat hbegun
          cases hmark
          obtain ⟨threadId, rfl⟩ := deliver_work hw
          obtain ⟨c, hc, hct⟩ := h.sending _ _ _ _ target threadId hat
          exact ⟨c, calls_kept hhost hc, hct⟩
        · cases hmark
      · cases hmark

theorem markingsKept_empty : MarkingsKept DeliveryDesk.empty where
  begun _ _ _ _ _ hd := by cases hd
  marked _ _ hd := by
    obtain ⟨r, hr, -⟩ := hd
    cases hr
  sending _ _ _ _ _ _ hd := by cases hd
  called _ hr := by cases hr

/-- **When delivered means delivered.** In every run a row that is recorded as delivered was marked by a drain; and
something had been done for every row that was marked, in every state of the run, exactly when every attempt of it
that returned was for a row that could be acted on. -/
theorem marked_actionable_iff {es : List (HostEvent × Registries)} {st : DeliveryDesk}
    (hrun : Trans.run deliveryDeskStep DeliveryDesk.empty es = some st) :
    (∀ sid id, IsDelivered (st.host.outcomes sid) id → ∃ r ∈ st.marked, r.session.id = sid ∧ r.msg.id = id) ∧
      (Trans.Always deliveryDeskStep WorkDone DeliveryDesk.empty es ↔
        Trans.Along deliveryDeskStep ReturnsActionable DeliveryDesk.empty es) := by
  have hkept : MarkingsKept st := Trans.run_inv markingsKept_step markingsKept_empty hrun
  refine ⟨hkept.marked, ?_⟩
  exact Trans.always_iff_along attemptsBegun_step workDone_step markingsKept_empty.begun (fun _ hr => by cases hr) hrun

/-! ### A chat row without a chat -/

/-- The registries of a host with Feishu and no system actions. -/
def sampleRegistries : Registries := ⟨["feishu"], []⟩

/-- Events of a host with Feishu. -/
def withFeishu (es : List HostEvent) : List (HostEvent × Registries) := es.map (·, sampleRegistries)

/-- A reply is delivered to its chat. -/
theorem marked_actionable_iff_sample :
    ∃ st, Trans.run deliveryDeskStep DeliveryDesk.empty
        (withFeishu [.poll 0 sampleSession (sampleOut sampleReply), .begin 0 sampleEnv, .resolve 0 none]) = some st ∧
      (∀ sid id, IsDelivered (st.host.outcomes sid) id → ∃ r ∈ st.marked, r.session.id = sid ∧ r.msg.id = id) ∧
        (Trans.Always deliveryDeskStep WorkDone DeliveryDesk.empty
            (withFeishu [.poll 0 sampleSession (sampleOut sampleReply), .begin 0 sampleEnv, .resolve 0 none]) ↔
          Trans.Along deliveryDeskStep ReturnsActionable DeliveryDesk.empty
            (withFeishu [.poll 0 sampleSession (sampleOut sampleReply), .begin 0 sampleEnv, .resolve 0 none])) := by
  have hrun : Trans.run deliveryDeskStep DeliveryDesk.empty
      (withFeishu [.poll 0 sampleSession (sampleOut sampleReply), .begin 0 sampleEnv, .resolve 0 none]) = some _ := rfl
  exact ⟨_, hrun, marked_actionable_iff hrun⟩

/-- A chat row whose container gave it no chat. -/
def unroutedRow : OutboundMessage := { sampleReply with platformId := none, channelType := none }

/-- It is recorded as delivered, no adapter was called, and nothing was done for it. -/
theorem unrouted_marked :
    ∃ st, Trans.run deliveryDeskStep DeliveryDesk.empty
        (withFeishu [.poll 0 sampleSession (sampleOut unroutedRow), .begin 0 sampleEnv, .resolve 0 none]) = some st ∧
      IsDelivered (st.host.outcomes "s") "m" ∧ st.host.calls.length = 0 ∧ ∃ r ∈ st.marked, r.work = none := by
  have hrun : Trans.run deliveryDeskStep DeliveryDesk.empty
      (withFeishu [.poll 0 sampleSession (sampleOut unroutedRow), .begin 0 sampleEnv, .resolve 0 none]) = some _ := rfl
  exact ⟨_, hrun, ⟨_, rfl, rfl⟩, rfl, _, .head _, rfl⟩

end AgentDesk
