/-
# Where a turn's answers go

A turn has two anchors. `resolveBatchIdentity` says whom it acts for: the user trigger among the rows that
go on, else the first of them. `extractRouting` says where its answers, its error notices and the returns of
its delegations go, and what they answer: to the first chat row of the turn, else its first row, before the
commands and the gated tasks are taken out.

Context comes before its trigger, and rides with it if it is the same user's on the same surface, or
nobody's. Such a row is the first chat row: the turn acts for the trigger's user and answers the context.

* `extractRouting_iff`: the answers go to the row that leads the turn.
* `turn_routing_iff`: they go to the row the identity came from, exactly when that row leads the turn.
* `answers_context`: a message nobody sent, in another thread, gets the answer.
-/
import AgentDesk.EnforcedRouting
import AgentDesk.TurnIdentity

namespace AgentDesk

/-! ### The anchor of the answers -/

/-- An answer to the row: on its surface, and in reply to it. -/
def InboundRow.routing (row : InboundRow) : RoutingContext :=
  { toSurface := row.surface, inReplyTo := some row.id }

/-- The first chat row of a turn; or the first row of a turn that has no chat row. -/
def LeadsTurn (turn : List InboundRow) (row : InboundRow) : Prop :=
  ∃ before after, turn = before ++ row :: after ∧ (∀ m ∈ before, m.kind.isChat = false) ∧
    (row.kind.isChat = false → before = [] ∧ ∀ m ∈ after, m.kind.isChat = false)

variable {turn batch rows : List InboundRow} {row t : InboundRow} {wakeAgent : String → Bool}

theorem leadsTurn_iff : LeadsTurn turn row ↔ (turn.find? fun m => m.kind.isChat).or turn.head? = some row := by
  constructor
  · rintro ⟨before, after, rfl, hbefore, hrow⟩
    by_cases hchat : row.kind.isChat = true
    · have hfind : (before ++ row :: after).find? (fun m => m.kind.isChat) = some row := by
        rw [List.find?_eq_some_iff_append]
        exact ⟨hchat, before, after, rfl, fun m hm => by simp [hbefore m hm]⟩
      rw [hfind, Option.some_or]
    · obtain ⟨rfl, hafter⟩ := hrow (by simpa using hchat)
      have hnone : (row :: after).find? (fun m => m.kind.isChat) = none := by
        rw [List.find?_eq_none]
        intro m hm
        rcases List.mem_cons.mp hm with rfl | hm
        · exact hchat
        · simp [hafter m hm]
      rw [List.nil_append, hnone, Option.none_or, List.head?_cons]
  · intro h
    cases hfind : turn.find? fun m => m.kind.isChat with
    | some first =>
      rw [hfind, Option.some_or] at h
      obtain rfl := Option.some.inj h
      obtain ⟨hchat, before, after, rfl, hbefore⟩ := List.find?_eq_some_iff_append.mp hfind
      exact ⟨before, after, rfl, fun m hm => by simpa using hbefore m hm, fun hno => absurd hchat (by simp [hno])⟩
    | none =>
      rw [hfind, Option.none_or] at h
      obtain ⟨after, rfl⟩ := List.head?_eq_some_iff.mp h
      have hno := List.find?_eq_none.mp hfind
      refine ⟨[], after, rfl, fun m hm => absurd hm List.not_mem_nil, fun _ => ⟨rfl, fun m hm => ?_⟩⟩
      simpa using hno m (.tail _ hm)

/-- The answers go to the row that leads the turn. -/
theorem extractRouting_iff (hids : (turn.map (·.id)).Nodup) (hrow : row ∈ turn) :
    extractRouting turn = row.routing ↔ LeadsTurn turn row := by
  rw [leadsTurn_iff]
  constructor
  · intro h
    have hreply : ((turn.find? fun m => m.kind.isChat).or turn.head?).map (·.id) = some row.id :=
      congrArg RoutingContext.inReplyTo h
    obtain ⟨anchor, hanchor, hid⟩ := Option.map_eq_some_iff.mp hreply
    have hmem : anchor ∈ turn := by
      rcases Option.or_eq_some_iff.mp hanchor with hfind | ⟨-, hhead⟩
      · exact List.mem_of_find?_eq_some hfind
      · exact List.mem_of_mem_head? hhead
    rw [hanchor, List.inj_on_of_nodup_map hids hmem hrow hid]
  · intro h
    unfold extractRouting InboundRow.routing
    dsimp only
    rw [h]
    rfl

/-! ### Both anchors of a batch -/

/-- The turn is somebody's and its answers go to the row its identity came from. -/
def AnswersIdentity (keep : List InboundRow) (p : RequestIdentity) (turnRouting : RoutingContext) : Prop :=
  p.source = .session → ∃ row, identityRow keep = some row ∧ p = rowIdentity row ∧ turnRouting = row.routing

/-- The user trigger, if it goes on, else the first row that goes on, leads the turn, or is nobody's. -/
def IdentityLeads (wakeAgent : String → Bool) (batch : List InboundRow) (t : InboundRow) : Prop :=
  if goesOn wakeAgent batch t = true ∧ t.kind.isChat = true ∧ isSystemSenderRow t = false then
    (rowIdentity t).userId = none ∨ LeadsTurn (splitBatchByTurn batch).1 t
  else ∀ row, batch.find? (goesOn wakeAgent batch) = some row →
    isSystemSenderRow row = true ∨ (rowIdentity row).userId = none ∨ LeadsTurn (splitBatchByTurn batch).1 row

theorem mem_turn_of_goesOn (h : row ∈ batch.filter (goesOn wakeAgent batch)) : row ∈ (splitBatchByTurn batch).1 := by
  obtain ⟨hmem, hgo⟩ := List.mem_filter.mp h
  unfold goesOn at hgo
  simp only [Bool.and_eq_true] at hgo
  exact List.mem_filter.mpr ⟨hmem, hgo.1.1⟩

theorem identityRow_mem (h : identityRow batch = some row) : row ∈ batch := by
  rcases Option.or_eq_some_iff.mp h with hfind | ⟨-, hhead⟩
  · exact List.mem_of_find?_eq_some hfind
  · exact List.mem_of_mem_head? hhead

theorem answersIdentity_iff (hids : (batch.map (·.id)).Nodup)
    (hrow : identityRow (batch.filter (goesOn wakeAgent batch)) = some row) :
    AnswersIdentity (batch.filter (goesOn wakeAgent batch))
        (resolveBatchIdentity (batch.filter (goesOn wakeAgent batch)))
        (extractRouting (splitBatchByTurn batch).1) ↔
      isSystemSenderRow row = true ∨ (rowIdentity row).userId = none ∨ LeadsTurn (splitBatchByTurn batch).1 row := by
  have hturn : ((splitBatchByTurn batch).1.map (·.id)).Nodup := hids.sublist (List.filter_sublist.map _)
  have hleads := extractRouting_iff hturn (mem_turn_of_goesOn (identityRow_mem hrow))
  unfold AnswersIdentity
  rw [resolveBatchIdentity_row hrow]
  by_cases hsystem : isSystemSenderRow row = true
  · simp [hsystem, noIdentity]
  · rw [if_neg hsystem, or_iff_right hsystem, ← hleads, rowIdentity_source_iff]
    constructor
    · intro h
      by_cases hnobody : (rowIdentity row).userId = none
      · exact .inl hnobody
      · obtain ⟨row', hrow', -, hrouting⟩ := h hnobody
        obtain rfl := Option.some.inj (hrow.symm.trans hrow')
        exact .inr hrouting
    · rintro (hnobody | hrouting) hsomebody
      · exact absurd hnobody hsomebody
      · exact ⟨row, hrow, rfl, hrouting⟩

theorem identityLeads_iff (hids : (batch.map (·.id)).Nodup) (hunique : ∀ row ∈ batch, row.trigger = true → row = t)
    (ht : t ∈ batch) (htrigger : t.trigger = true) (hkeep : batch.filter (goesOn wakeAgent batch) ≠ []) :
    AnswersIdentity (batch.filter (goesOn wakeAgent batch))
        (resolveBatchIdentity (batch.filter (goesOn wakeAgent batch)))
        (extractRouting (splitBatchByTurn batch).1) ↔
      IdentityLeads wakeAgent batch t := by
  have hmem : t ∈ batch.filter (goesOn wakeAgent batch) ↔ goesOn wakeAgent batch t = true := by
    simp [List.mem_filter, ht]
  have hunique' : ∀ row ∈ batch.filter (goesOn wakeAgent batch), row.trigger = true → row = t :=
    fun row hrow => hunique row (List.mem_filter.mp hrow).1
  unfold IdentityLeads
  by_cases huser : goesOn wakeAgent batch t = true ∧ t.kind.isChat = true ∧ isSystemSenderRow t = false
  · rw [if_pos huser, answersIdentity_iff hids
      (identityRow_user hunique' (hmem.mpr huser.1) htrigger huser.2.1 huser.2.2)]
    exact or_iff_right (by simp [huser.2.2])
  · rw [if_neg huser]
    have hhead : identityRow (batch.filter (goesOn wakeAgent batch)) = batch.find? (goesOn wakeAgent batch) := by
      rw [identityRow_head hunique' (by rwa [hmem]), List.head?_filter]
    obtain ⟨first, hfirst⟩ : ∃ first, batch.find? (goesOn wakeAgent batch) = some first := by
      rw [← List.head?_filter]
      exact Option.ne_none_iff_exists'.mp (by simpa [List.head?_eq_none_iff] using hkeep)
    rw [answersIdentity_iff hids (hhead.trans hfirst)]
    constructor
    · intro h row hrow
      obtain rfl := Option.some.inj (hfirst.symm.trans hrow)
      exact h
    · exact fun h => h first hfirst

/-! ### The runner -/

variable {c : LoopConfig} {w w' w₁ w₂ w₃ : AgentRunner} {es : List AgentRunnerEvent}

theorem agentRunnerStep_turnRouting {e : AgentRunnerEvent} (hpoll : e ≠ .loop .poll)
    (hs : agentRunnerStep c w e = some w') : w'.turnRouting = w.turnRouting := by
  cases e with
  | loop e =>
    obtain ⟨loop, -, ⟨rfl, -⟩ | ⟨rfl, rfl⟩ | ⟨rfl, rfl⟩ | ⟨-, rfl⟩⟩ := loop_cases hs
    · exact absurd rfl hpoll
    · rfl
    · rfl
    · rfl
  | routed decision usages staged =>
    simp only [agentRunnerStep] at hs
    split at hs
    · obtain ⟨loop, -, rfl⟩ := Option.map_eq_some_iff.mp hs
      split <;> rfl
    · cases hs
  | usage =>
    simp only [agentRunnerStep] at hs
    split at hs
    · obtain rfl := Option.some.inj hs
      rfl
    · cases hs
  | call call =>
    simp only [agentRunnerStep] at hs
    split at hs <;> obtain rfl := Option.some.inj hs <;> rfl
  | insert i =>
    simp only [agentRunnerStep] at hs
    split at hs
    · obtain rfl := Option.some.inj hs
      rfl
    · cases hs
  | host destinations sessionRouting =>
    obtain rfl := Option.some.inj hs
    rfl

/-- Until the next claim the answers go where they went. -/
theorem run_turnRouting (hes : ∀ e ∈ es, e ≠ .loop .poll)
    (h : Trans.run (agentRunnerStep c) w es = some w') : w'.turnRouting = w.turnRouting := by
  induction es generalizing w with
  | nil =>
    obtain rfl := Option.some.inj h
    rfl
  | cons e es ih =>
    obtain ⟨w₁, hstep, hrun⟩ := Trans.run_cons.mp h
    rw [ih (fun e he => hes e (.tail _ he)) hrun, agentRunnerStep_turnRouting (hes e (.head _)) hstep]

theorem agentRunnerStep_preTask {e : AgentRunnerEvent} (hp : w.loop.phase = .preTask rows)
    (he : e ≠ .loop .kill ∧ ∀ s, e ≠ .loop (.scripts s)) (hs : agentRunnerStep c w e = some w') :
    w'.loop.phase = .preTask rows ∧ e ≠ .loop .poll := by
  cases e with
  | loop e =>
    have hkill : e ≠ .kill := fun h => he.1 (congrArg _ h)
    have hscripts : ∀ s, e ≠ .scripts s := fun s h => he.2 s (congrArg _ h)
    obtain ⟨loop, hloop, hcases⟩ := loop_cases hs
    have hphase := loopStep_preTask hp hkill hscripts hloop
    rcases hcases with ⟨rfl, -⟩ | ⟨rfl, rfl⟩ | ⟨rfl, rfl⟩ | ⟨⟨hpoll, -⟩, rfl⟩
    · cases loopStep_move hloop with
      | poll hpolling => exact absurd (hpolling.symm.trans hp) (by simp)
    · exact ⟨hphase, by simp⟩
    · exact ⟨hphase, by simp⟩
    · exact ⟨hphase, fun h => hpoll (AgentRunnerEvent.loop.inj h)⟩
  | routed decision usages staged =>
    simp only [agentRunnerStep, hp] at hs
    cases hs
  | usage =>
    simp only [agentRunnerStep, hp] at hs
    cases hs
  | call call =>
    simp only [agentRunnerStep] at hs
    split at hs <;> obtain rfl := Option.some.inj hs <;> exact ⟨hp, by simp⟩
  | insert i =>
    simp only [agentRunnerStep] at hs
    split at hs
    · obtain rfl := Option.some.inj hs
      exact ⟨hp, by simp⟩
    · cases hs
  | host destinations sessionRouting =>
    obtain rfl := Option.some.inj hs
    exact ⟨hp, by simp⟩

theorem agentRunner_run_preTask (hp : w.loop.phase = .preTask rows)
    (hes : ∀ e ∈ es, e ≠ .loop .kill ∧ ∀ s, e ≠ .loop (.scripts s))
    (h : Trans.run (agentRunnerStep c) w es = some w') :
    w'.loop.phase = .preTask rows ∧ w'.turnRouting = w.turnRouting := by
  induction es generalizing w with
  | nil =>
    obtain rfl := Option.some.inj h
    exact ⟨hp, rfl⟩
  | cons e es ih =>
    obtain ⟨w₁, hstep, hrun⟩ := Trans.run_cons.mp h
    obtain ⟨hp₁, hpoll⟩ := agentRunnerStep_preTask hp (hes e (.head _)) hstep
    obtain ⟨hp', hrouting⟩ := ih hp₁ (fun e he => hes e (.tail _ he)) hrun
    exact ⟨hp', hrouting.trans (agentRunnerStep_turnRouting hpoll hstep)⟩

theorem agentRunnerStep_claims (h : agentRunnerStep c w (.loop .poll) = some w')
    (hp : w'.loop.phase = .preTask rows) : rows = (splitBatchByTurn (w.loop.nextBatch c)).1 ∧
      w'.turnRouting = extractRouting (splitBatchByTurn (w.loop.nextBatch c)).1 := by
  obtain ⟨loop, hloop, rfl⟩ := Option.map_eq_some_iff.mp h
  refine ⟨loopStep_poll_preTask hloop hp, ?_⟩
  cases loopStep_move hloop with
  | poll hpolling =>
    obtain ⟨-, hp' | hp' | ⟨batch, hbatch, -⟩⟩ := poll_phase_gate (c := c) hpolling
    · exact absurd (hp'.symm.trans hp) nofun
    · exact absurd (hp'.symm.trans hp) nofun
    · change w.claimRouting c = _
      rw [AgentRunner.claimRouting, hbatch]
      unfold Loop.outerBatch outerBatch at hbatch
      dsimp only at hbatch
      split at hbatch
      · rw [← Option.some.inj hbatch]
        rfl
      · cases hbatch

theorem splitBatchByTrigger_go_sublist (found : Bool) (batch : List InboundRow) :
    List.Sublist (splitBatchByTrigger.go found batch).1 batch := by
  induction batch generalizing found with
  | nil => exact List.Sublist.refl _
  | cons r rows ih =>
    unfold splitBatchByTrigger.go
    split
    · exact List.nil_sublist _
    · exact (ih _).cons_cons _

theorem nextBatch_ids {l : Loop} (hids : (l.inbound.map (·.id)).Nodup) : ((l.nextBatch c).map (·.id)).Nodup := by
  have hpending : ((getPendingMessages l.inbound l.acks c.maxMessagesPerPrompt l.now).map (·.id)).Nodup := by
    unfold getPendingMessages
    dsimp only
    rw [List.map_reverse, List.nodup_reverse]
    refine List.Nodup.sublist (List.filter_sublist.map _) (List.Nodup.sublist ((List.take_sublist _ _).map _) ?_)
    rw [((List.perm_insertionSort _ _).map _).nodup_iff]
    exact hids.sublist (List.filter_sublist.map _)
  have hstart := splitBatchByTrigger_go_sublist false
    ((getPendingMessages l.inbound l.acks c.maxMessagesPerPrompt l.now).filter fun m => m.kind ≠ .system)
  exact hpending.sublist ((hstart.trans List.filter_sublist).map _)

/-- **Where the answers go.** From any state of the databases: the loop claims a batch whose first trigger is
`t`, waits for its pre-task scripts and begins a turn, whatever the tools, the host and the timers do
meanwhile. If the identity it publishes is the session's, then until the next claim the answers go to the row
the identity came from: exactly when that row leads the turn. -/
theorem turn_routing_iff (hids : (w.loop.inbound.map (·.id)).Nodup)
    (hpoll : agentRunnerStep c w (.loop .poll) = some w₁) (hrows : w₁.loop.phase = .preTask rows)
    (hwait : Trans.run (agentRunnerStep c) w₁ es = some w₂)
    (hes : ∀ e ∈ es, e ≠ .loop .kill ∧ ∀ s, e ≠ .loop (.scripts s))
    (hscripts : agentRunnerStep c w₂ (.loop (.scripts wakeAgent)) = some w₃)
    (hturn : w₃.loop.phase ≠ .polling ∧ w₃.loop.phase ≠ .stopped)
    (ht : (w.loop.nextBatch c).find? (·.trigger) = some t) :
    (∃ p, w₃.loop.identity = some p ∧
        ∀ later w', Trans.run (agentRunnerStep c) w₃ later = some w' → (∀ e ∈ later, e ≠ .loop .poll) →
          AnswersIdentity ((w.loop.nextBatch c).filter (goesOn wakeAgent (w.loop.nextBatch c))) p w'.turnRouting) ↔
      IdentityLeads wakeAgent (w.loop.nextBatch c) t := by
  obtain ⟨hphase, hrouting⟩ := agentRunner_run_preTask hrows hes hwait
  obtain ⟨rfl, hclaimed⟩ := agentRunnerStep_claims hpoll hrows
  obtain ⟨loop, hloop, hcases⟩ := loop_cases hscripts
  have hw₃ : w₃ = w₂.follow loop [] none := by
    rcases hcases with ⟨hno, -⟩ | ⟨hno, -⟩ | ⟨hno, -⟩ | ⟨-, h⟩
    · cases hno
    · cases hno
    · cases hno
    · exact h
  subst hw₃
  obtain ⟨keep, skipped, ha, hkeep, hp⟩ := loopStep_scripts_turn hphase hloop hturn
  obtain rfl := applyPreTaskScripts_keep ha
  have hunique : ∀ row ∈ w.loop.nextBatch c, row.trigger = true → row = t := splitBatchByTrigger_unique ht
  have hnow : (w₂.follow loop [] none).turnRouting = extractRouting (splitBatchByTurn (w.loop.nextBatch c)).1 :=
    hrouting.trans hclaimed
  rw [← identityLeads_iff (nextBatch_ids hids) hunique (List.mem_of_find?_eq_some ht) (List.find?_some ht) hkeep]
  constructor
  · rintro ⟨p, hp', hanswers⟩
    obtain rfl := Option.some.inj (hp.symm.trans hp')
    have h := hanswers [] _ rfl (by simp)
    rwa [hnow] at h
  · intro hanswers
    refine ⟨_, hp, fun later w' hrun hlater => ?_⟩
    rw [run_turnRouting hlater hrun, hnow]
    exact hanswers

/-! ### A message nobody sent -/

/-- A message of the chat in another thread, whose sender is not known. -/
def senderlessRow : InboundRow :=
  { bystanderRow with
    threadId := some "omt_1"
    content := some (.obj [("text", .str "lunch?"), ("sender", .str "feishu-user")]) }

def claimingRunner (rows : List InboundRow) : AgentRunner :=
  { AgentRunner.fresh rows [] 0 [] [] none with loop := pollingLoop rows }

def runnerTurn : List AgentRunnerEvent := turnEvents.map .loop

/-- Ann's message next to Bob's is answered in reply to her. -/
theorem turn_routing_iff_sample : ∃ w₁ w₃,
    agentRunnerStep turnConfig (claimingRunner [bystanderRow, userTrigger]) (.loop .poll) = some w₁ ∧
      agentRunnerStep turnConfig w₁ (.loop (.scripts fun _ => true)) = some w₃ ∧
      ∃ p, w₃.loop.identity = some p ∧ AnswersIdentity [userTrigger] p w₃.turnRouting := by
  have hleads : IdentityLeads (fun _ => true)
      ((claimingRunner [bystanderRow, userTrigger]).loop.nextBatch turnConfig) userTrigger := by
    unfold IdentityLeads
    rw [if_pos ⟨by decide, by decide, by decide⟩]
    exact .inr ⟨[], [], rfl, by simp, nofun⟩
  have hids : ((claimingRunner [bystanderRow, userTrigger]).loop.inbound.map (·.id)).Nodup := by decide
  refine ⟨_, _, rfl, rfl, ?_⟩
  obtain ⟨p, hp, hanswers⟩ := (@turn_routing_iff _ userTrigger (fun _ => true) turnConfig _ _ _ _ []
    hids rfl rfl rfl (by simp) rfl ⟨nofun, nofun⟩ rfl).mpr hleads
  exact ⟨p, hp, hanswers [] _ rfl (by simp)⟩

/-- Ann's message behind one that nobody sent, in a thread of the chat: the turn is Ann's, and what it says
goes to that thread, in reply to the other message. -/
theorem answers_context : ∃ w,
    Trans.run (agentRunnerStep turnConfig) (claimingRunner [senderlessRow, userTrigger]) runnerTurn = some w ∧
      ((claimingRunner [senderlessRow, userTrigger]).loop.nextBatch turnConfig).filter (goesOn (fun _ => true)
        ((claimingRunner [senderlessRow, userTrigger]).loop.nextBatch turnConfig)) = [senderlessRow, userTrigger] ∧
      w.loop.identity = some (rowIdentity userTrigger) ∧ (rowIdentity userTrigger).source = .session ∧
      (rowIdentity userTrigger).threadId = none ∧
      w.turnRouting = senderlessRow.routing ∧ w.reply.surface.threadId = some (JsonText.ofString "omt_1") ∧
      ¬ AnswersIdentity [senderlessRow, userTrigger] (rowIdentity userTrigger) w.turnRouting := by
  refine ⟨_, rfl, rfl, rfl, rfl, rfl, rfl, rfl, fun h => ?_⟩
  obtain ⟨row, hrow, -, hrouting⟩ := h rfl
  obtain rfl : userTrigger = row := Option.some.inj hrow
  have hreply := congrArg RoutingContext.inReplyTo hrouting
  revert hreply
  decide

end AgentDesk
