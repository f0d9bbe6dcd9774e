/-
# Routed turns cannot be escaped

The runner as a whole: its loop, the gate that a routed turn sets before the provider is asked and that
its `finally` clears, the tools, which run in a process of their own and may be called at any time, and
everything both write out. A tool's check and its insert are two steps; the loop's steps may come between
them. A container that is killed leaves its gate behind, and the next one clears it before its first turn.

* `gateInv_step`: the gate that is read is the one that was set, and a stream under it is of its turn.
* `routed_turn_confined`: in every run, what is written under a gate obeys it, but for the answer to a
  `/clear` under the gate of a container that is gone, and for a tool that has asked before.
* `gate_escaped`: those two.
-/
import AgentDesk.DueTriggers
import AgentDesk.RunnerWrites
import AgentDesk.Trans
import AgentDesk.TurnOutcomes

namespace AgentDesk

open JsonText (Text ofString)

/-! ### Steps -/

/-- What the routing model has decided; every id begins with `route-`. -/
structure EnforcedRoutingDecision where
  idSuffix : Text
  action : RoutingAction
  targetAgentGroupId : Option Text
  deriving DecidableEq, Repr

def EnforcedRoutingDecision.id (decision : EnforcedRoutingDecision) : Text := ofString "route-" ++ decision.idSuffix

/-- Where the turn goes on: a delegation needs a worker, and its attachments staged. -/
def EnforcedRoutingDecision.routed (decision : EnforcedRoutingDecision) (staged : Bool) : Routed :=
  match decision.action with
  | .delegate => if ¬falsy decision.targetAgentGroupId ∧ staged then .delegate else .throws
  | _ => .execute

/-- The gate for the execution of a decision. -/
def EnforcedRoutingDecision.gate (decision : EnforcedRoutingDecision) (turnRouting : RoutingContext)
    (processingIds : List String) : RoutingGate :=
  { decisionId := decision.id
    anchorId := ofString ((turnRouting.inReplyTo.or processingIds.head?).getD "")
    action := decision.action
    targetAgentGroupId := none
    originChannelType := turnRouting.channelType
    originPlatformId := turnRouting.platformId
    originThreadId := some turnRouting.threadId }

inductive AgentRunnerEvent where
  | loop (e : LoopEvent)
  /-- The routing phase comes back, after so many calls of its model. -/
  | routed (decision : EnforcedRoutingDecision) (usages : ℕ) (staged : Bool)
  /-- The provider reports a call of the model. -/
  | usage
  | call (call : McpToolCall)
  /-- The `i`th tool that has been let through inserts its row. -/
  | insert (i : ℕ)
  /-- The host rewrites its tables. -/
  | host (destinations : List DestinationEntry) (sessionRouting : Option Surface)

/-- The rows with their numbers. -/
def numberRows (maxIn : ℕ) : ℕ → List SentRow → List NumberedRow
  | _, [] => []
  | maxOut, row :: rows =>
    let seq := nextOddSeq maxOut maxIn
    { row with seq } :: numberRows maxIn seq rows

def AgentRunner.write (w : AgentRunner) (rows : List SentRow) : AgentRunner :=
  { w with
    messagesOut := w.messagesOut ++
      numberRows (maxSeq (w.loop.inbound.map (·.seq))) (maxSeq (w.messagesOut.map (·.seq))) rows }

/-- The rows behind a write of the loop. -/
def AgentRunner.actRows (w : AgentRunner) (worker : Option Text) : Act → List SentRow
  | .cleared _ => [w.reply]
  | .delegated _ => [⟨.chat, none, ⟨some agentChannel, worker, none⟩, none⟩]
  | .dispatched _ text => if text.getD "" = "" then [] else w.dispatchResultText (text.getD "")
  | .errorReply _ => [SystemAction.providerError.row nowhere, w.reply]
  | .claim _ | .release _ | .complete _ _ => []

/-- The loop has gone on to `loop`, with the rows `before` ahead of those of its writes. -/
def AgentRunner.follow (w : AgentRunner) (loop : Loop) (before : List SentRow) (worker : Option Text) : AgentRunner :=
  { w.write (before ++ (loop.acts.drop w.loop.acts.length).flatMap (w.actRows worker)) with
    loop
    gateRow := if loop.routingGate then w.gateRow else none
    installed := if loop.routingGate then w.installed else none }

def AgentRunner.setGate (w : AgentRunner) (gate : RoutingGate) : AgentRunner :=
  { w with gateRow := some (setRoutingGate gate), installed := some gate, inherited := false }

/-- Where the rows that the loop claims next came from. -/
def AgentRunner.claimRouting (c : LoopConfig) (w : AgentRunner) : RoutingContext :=
  match w.loop.outerBatch c with
  | some batch => extractRouting (splitBatchByTurn (splitBatchByTrigger batch).1).1
  | none => w.turnRouting

def usageRow (turnRouting : RoutingContext) : SentRow := ⟨.llmUsage, none, turnRouting.toSurface, none⟩

def agentRunnerStep (c : LoopConfig) (w : AgentRunner) : AgentRunnerEvent → Option AgentRunner
  | .loop (.routed .delegate) | .loop (.routed .execute) => none
  | .loop .poll =>
    (loopStep c w.loop .poll).map fun loop => { w with turnRouting := w.claimRouting c }.follow loop [] none
  | .loop .kill => (loopStep c w.loop .kill).map fun loop => { w with pending := [] }.follow loop [] none
  | .loop .start =>
    (loopStep c w.loop .start).map fun loop =>
      { w with pending := [], inherited := w.installed.isSome }.follow loop [] none
  | .loop e => (loopStep c w.loop e).map fun loop => w.follow loop [] none
  | .routed decision usages staged =>
    match w.loop.phase with
    | .routing t =>
      (loopStep c w.loop (.routed (decision.routed staged))).map fun loop =>
        let before := SystemAction.classifyIntent.row nowhere :: List.replicate usages (usageRow w.turnRouting)
        let w' := w.follow loop before decision.targetAgentGroupId
        if decision.routed staged = .execute then w'.setGate (decision.gate w.turnRouting t.processingIds) else w'
    | _ => none
  | .usage =>
    match w.loop.phase with
    | .streaming _ _ => some (w.write [usageRow w.turnRouting])
    | _ => none
  | .call call =>
    match w.toolRow call with
    | some row => some { w with pending := w.pending ++ [⟨row, w.gate⟩] }
    | none => some w
  | .insert i =>
    match w.pending[i]? with
    | some p => some { w.write [p.row] with pending := w.pending.eraseIdx i }
    | none => none
  | .host destinations sessionRouting => some { w with destinations, sessionRouting }

/-- A runner whose container has not started, over databases without a gate. -/
def AgentRunner.fresh (inbound : List InboundRow) (acks : List AckRow) (now : ℕ) (messagesOut : List NumberedRow)
    (destinations : List DestinationEntry) (sessionRouting : Option Surface) : AgentRunner :=
  { loop := Loop.fresh inbound acks now, turnRouting := extractRouting [], gateRow := none, messagesOut, destinations
    sessionRouting, pending := [], installed := none, inherited := false }

/-- The rows of `messages_out` that a step has added. -/
def AgentRunner.newRows (w w' : AgentRunner) : List NumberedRow := w'.messagesOut.drop w.messagesOut.length

/-- What gets past a gate: the loop answers `/clear` before the turn that clears the gate of a container that
is gone, and a tool inserts a row for which it has asked under another gate, or under none. -/
def AgentRunner.Bypasses (w : AgentRunner) : AgentRunnerEvent → Prop
  | .loop .poll => w.inherited = true
  | .insert i => ∃ p, w.pending[i]? = some p ∧ p.read ≠ w.installed
  | _ => False

/-! ### What the loop adds -/

/-- The step has appended to the journal, and everything it has appended satisfies `P`. -/
def Loop.Adds (P : Act → Prop) (l l' : Loop) : Prop := ∃ new, l'.acts = l.acts ++ new ∧ ∀ a ∈ new, P a

/-- Bookkeeping: no row of `messages_out` is behind it. -/
def Act.silent : Act → Prop
  | .claim _ | .release _ | .complete _ _ => True
  | _ => False

/-- The step has kept the books: the gate is as before, and the phase is that of the same turn. -/
structure Loop.Quiet (l l' : Loop) : Prop where
  gate : l'.routingGate = l.routingGate
  phase : l'.phase = l.phase ∨ ∃ t q q', l.phase = .streaming t q ∧ l'.phase = .streaming t q'
  adds : l.Adds Act.silent l'

section Loop

variable {P : Act → Prop} {c : LoopConfig} {l l' l'' : Loop} {t : Turn} {q : Query}

theorem Loop.Adds.refl (l : Loop) : l.Adds P l := ⟨[], (List.append_nil _).symm, nofun⟩

theorem Loop.Adds.trans (h : l.Adds P l') (h' : l'.Adds P l'') : l.Adds P l'' := by
  obtain ⟨new, hnew, hP⟩ := h
  obtain ⟨new', hnew', hP'⟩ := h'
  refine ⟨new ++ new', by rw [hnew', hnew, List.append_assoc], fun a ha => ?_⟩
  rcases List.mem_append.mp ha with ha | ha
  · exact hP a ha
  · exact hP' a ha

theorem Loop.Adds.mono {Q : Act → Prop} (hPQ : ∀ a, P a → Q a) (h : l.Adds P l') : l.Adds Q l' := by
  obtain ⟨new, hnew, hP⟩ := h
  exact ⟨new, hnew, fun a ha => hPQ a (hP a ha)⟩

theorem adds_one {a : Act} (hacts : l'.acts = l.acts ++ [a]) (ha : P a) : l.Adds P l' :=
  ⟨[a], hacts, fun _ hb => List.mem_singleton.mp hb ▸ ha⟩

theorem adds_drop (h : l.Adds P l') {a : Act} (ha : a ∈ l'.acts.drop l.acts.length) : P a := by
  obtain ⟨new, hnew, hP⟩ := h
  rw [hnew, List.drop_left] at ha
  exact hP a ha

theorem Loop.Quiet.refl (l : Loop) : l.Quiet l := ⟨rfl, .inl rfl, .refl l⟩

theorem Loop.Quiet.trans (h : l.Quiet l') (h' : l'.Quiet l'') : l.Quiet l'' := by
  refine ⟨h'.gate.trans h.gate, ?_, h.adds.trans h'.adds⟩
  rcases h'.phase with hp' | ⟨t, q, q', hp', hp''⟩
  · rw [hp']
    exact h.phase
  · rcases h.phase with hp | ⟨t₀, q₀, q₁, hp₀, hp₁⟩
    · exact .inr ⟨t, q, q', hp ▸ hp', hp''⟩
    · obtain ⟨rfl, rfl⟩ := LoopPhase.streaming.inj (hp₁.symm.trans hp')
      exact .inr ⟨_, q₀, q', hp₀, hp''⟩

theorem quiet_claim (ids : List String) : l.Quiet (l.claim ids) := ⟨rfl, .inl rfl, adds_one rfl trivial⟩

theorem quiet_release (ids : List String) : l.Quiet (l.release ids) := ⟨rfl, .inl rfl, adds_one rfl trivial⟩

theorem quiet_complete (site : AckSite) (ids : List String) : l.Quiet (l.complete site ids) :=
  ⟨rfl, .inl rfl, adds_one rfl trivial⟩

theorem quiet_stream {q' : Query} (ticks : List Tick) (hp : l.phase = .streaming t q) :
    l.Quiet { l with phase := .streaming t q', ticks } := ⟨rfl, .inr ⟨t, q, q', hp, rfl⟩, .refl l⟩

theorem tick_quiet (hp : l.phase = .streaming t q) : l.Quiet (l.tick c t q) := by
  unfold Loop.tick
  simp only
  split
  · exact .refl l
  · split
    · exact quiet_stream l.ticks hp
    · split
      · split
        · exact .refl l
        · exact quiet_stream l.ticks hp
      · split
        · exact .refl l
        · exact (quiet_claim _).trans (quiet_stream _ hp)

theorem push_quiet {keep : List InboundRow} (hp : l.phase = .streaming t q) : l.Quiet (l.push t q keep) := by
  unfold Loop.push
  simp only
  split
  · exact quiet_release _
  · split
    · exact ((quiet_release _).trans (quiet_release _)).trans (quiet_stream _ hp)
    · split
      · exact quiet_release _
      · exact (quiet_release _).trans (quiet_stream _ hp)

theorem settled_quiet (tick : Tick) (l : Loop) : l.Quiet (Loop.tickScripts.settled tick l) := by
  unfold Loop.tickScripts.settled
  split
  · rename_i t q hp
    split
    · exact quiet_stream l.ticks hp
    · exact .refl l
  · exact .refl l

theorem tickScripts_quiet (tick : Tick) (wakeAgent : String → Bool) : l.Quiet (l.tickScripts tick wakeAgent) := by
  unfold Loop.tickScripts
  split
  · exact settled_quiet tick l
  · rename_i keep skipped _
    have hsettled : l.Quiet (Loop.tickScripts.settled tick (l.complete .preTask skipped)) :=
      (quiet_complete _ _).trans (settled_quiet tick _)
    simp only
    split
    · exact hsettled
    · split
      · rename_i t q hp
        split
        · exact hsettled.trans (push_quiet hp)
        · exact hsettled.trans (quiet_release _)
      · exact hsettled.trans (quiet_release _)

theorem finishTurn_adds : l.Adds Act.silent (l.finishTurn t) := by
  unfold Loop.finishTurn
  simp only
  split
  · exact .refl l
  · exact adds_one rfl trivial

theorem finishTurn_ends : (l.finishTurn t).routingGate = false ∧
    ((l.finishTurn t).phase = .stopped ∨ (l.finishTurn t).phase = .polling) := by
  unfold Loop.finishTurn
  simp only
  split
  · exact ⟨rfl, .inl rfl⟩
  · exact ⟨rfl, .inr rfl⟩

theorem failTurn_adds : l.Adds (fun a => a.silent ∨ ∃ ids, a = .errorReply ids) (l.failTurn t) := by
  have hwrite : l.Adds (fun a => a.silent ∨ ∃ ids, a = .errorReply ids) (l.write (.errorReply t.processingIds)) :=
    adds_one rfl (.inr ⟨_, rfl⟩)
  exact hwrite.trans (finishTurn_adds.mono fun a ha => .inl ha)

theorem result_adds {text : Option String} {answered : ℕ} :
    l.Adds (fun a => a.silent ∨ ∃ ids, a = .dispatched ids text) (l.result t q text answered) := by
  have hwrite : l.Adds (fun a => a.silent ∨ ∃ ids, a = .dispatched ids text)
      (l.write (.dispatched (q.prompts.take answered).flatten text)) := adds_one rfl (.inr ⟨_, rfl⟩)
  exact hwrite.trans (adds_one rfl (.inl trivial))

theorem afterScripts_adds {turnMessages keep : List InboundRow} {skipped : List String} :
    l.Adds Act.silent (l.afterScripts c turnMessages keep skipped) := by
  have hskip : l.Adds Act.silent (l.complete .preTask skipped) := adds_one rfl trivial
  unfold Loop.afterScripts
  simp only
  split
  · exact hskip
  · split
    · exact hskip
    · exact hskip

theorem clearedAll_gate (ids : List String) (l : Loop) :
    (ids.foldl (fun l id => l.write (.cleared id)) l).routingGate = l.routingGate := by
  induction ids generalizing l with
  | nil => rfl
  | cons id ids ih => exact ih (l.write (.cleared id))

theorem answerCommands_phase (l : Loop) (turnMessages : List InboundRow) :
    (l.answerCommands turnMessages).routingGate = l.routingGate ∧
      ((l.answerCommands turnMessages).phase = .stopped ∨ (l.answerCommands turnMessages).phase = .polling ∨
        (l.answerCommands turnMessages).phase = .preTask turnMessages) := by
  have hgate := clearedAll_gate (commandIds (turnMessages.takeWhile fun r => (clearVerdict r).isSome)) l
  unfold Loop.answerCommands
  simp only
  split
  · exact ⟨hgate, .inl rfl⟩
  · split
    · exact ⟨hgate, .inr (.inl rfl)⟩
    · exact ⟨hgate, .inr (.inr rfl)⟩

theorem poll_phase_gate (hp : l.phase = .polling) : (l.poll c).routingGate = l.routingGate ∧
    ((l.poll c).phase = .stopped ∨ (l.poll c).phase = .polling ∨ ∃ batch, l.outerBatch c = some batch ∧
      (l.poll c).phase = .preTask (splitBatchByTurn (splitBatchByTrigger batch).1).1) := by
  unfold Loop.poll
  split
  · exact ⟨rfl, .inl rfl⟩
  · simp only
    split
    · exact ⟨rfl, .inr (.inl hp)⟩
    · rename_i htrigger
      split
      · exact ⟨rfl, .inr (.inl hp)⟩
      · obtain ⟨hgate, hphase⟩ := answerCommands_phase _ _
        refine ⟨hgate, ?_⟩
        rcases hphase with hphase | hphase | hphase
        · exact .inl hphase
        · exact .inr (.inl hphase)
        · refine .inr (.inr ⟨_, ?_, hphase⟩)
          rw [Bool.not_eq_true', Bool.not_eq_false] at htrigger
          exact if_pos htrigger

theorem afterScripts_phase {turnMessages keep : List InboundRow} {skipped : List String} :
    ((l.afterScripts c turnMessages keep skipped).phase = .polling ∧
      (l.afterScripts c turnMessages keep skipped).routingGate = l.routingGate) ∨
    ((l.afterScripts c turnMessages keep skipped).routingGate = false ∧
      ((∃ t q, (l.afterScripts c turnMessages keep skipped).phase = .streaming t q) ∨
        ∃ t, (l.afterScripts c turnMessages keep skipped).phase = .routing t ∧
          routingEnabledForTurn c keep turnMessages = true)) := by
  unfold Loop.afterScripts
  simp only
  split
  · exact .inl ⟨rfl, rfl⟩
  · split
    · rename_i henabled
      exact .inr ⟨rfl, .inr ⟨_, rfl, henabled⟩⟩
    · exact .inr ⟨rfl, .inl ⟨_, _, rfl⟩⟩

end Loop

/-! ### The gate of a run -/

/-- What holds of the gate in a phase: between turns it is an inherited one, no turn is routed under a gate
or for an agent, and a stream is under the gate of its turn. -/
def PhaseOk (turnRouting : RoutingContext) (installed : Option RoutingGate) (inherited : Bool) : LoopPhase → Prop
  | .stopped => True
  | .polling => installed ≠ none → inherited = true
  | .preTask turnMessages => (installed ≠ none → inherited = true) ∧ turnRouting = extractRouting turnMessages
  | .routing _ => installed = none ∧ turnRouting.channelType ≠ some agentChannel
  | .streaming _ _ => ∀ gate, installed = some gate → gate.OfTurn turnRouting

structure GateInv (w : AgentRunner) : Prop where
  written : w.gateRow = w.installed.map setRoutingGate
  raised : w.loop.routingGate = w.installed.isSome
  phase : PhaseOk w.turnRouting w.installed w.inherited w.loop.phase
  pending : ∀ p ∈ w.pending, ∀ gate, p.read = some gate → Obeys gate p.row

section Run

variable {c : LoopConfig} {w w' : AgentRunner} {e : LoopEvent} {loop : Loop} {gate : RoutingGate}

/-- **The gate that was set is in force.** -/
theorem GateInv.gate_eq (hi : GateInv w) : w.gate = w.installed := by
  rw [AgentRunner.gate, hi.written]
  cases w.installed with
  | none => rfl
  | some gate => exact getRoutingGate_setRoutingGate gate

theorem follow_inv {before : List SentRow} {worker : Option Text} (hi : GateInv w)
    (hlower : loop.routingGate = true → w.loop.routingGate = true)
    (hphase : PhaseOk w.turnRouting (if loop.routingGate then w.installed else none) w.inherited loop.phase) :
    GateInv (w.follow loop before worker) := by
  refine ⟨?_, ?_, hphase, hi.pending⟩
  · change (if loop.routingGate then w.gateRow else none) =
      (if loop.routingGate then w.installed else none).map setRoutingGate
    split
    · exact hi.written
    · rfl
  · change loop.routingGate = (if loop.routingGate then w.installed else none).isSome
    by_cases h : loop.routingGate = true
    · rw [if_pos h, h, ← hi.raised, hlower h]
    · rw [if_neg h]
      exact Bool.eq_false_iff.mpr h

theorem follow_down {before : List SentRow} {worker : Option Text} (hi : GateInv w)
    (hdown : loop.routingGate = false)
    (hphase : PhaseOk w.turnRouting none w.inherited loop.phase) : GateInv (w.follow loop before worker) := by
  apply follow_inv hi
  · intro h
    rw [hdown] at h
    cases h
  · rw [hdown]
    exact hphase

theorem follow_same {before : List SentRow} {worker : Option Text} (hi : GateInv w)
    (hsame : loop.routingGate = w.loop.routingGate)
    (hphase : PhaseOk w.turnRouting w.installed w.inherited loop.phase) : GateInv (w.follow loop before worker) := by
  apply follow_inv hi (fun h => hsame ▸ h)
  have hinstalled : (if loop.routingGate then w.installed else none) = w.installed := by
    rw [hsame, hi.raised]
    cases w.installed <;> rfl
  rw [hinstalled]
  exact hphase

theorem follow_quiet {before : List SentRow} {worker : Option Text} (hi : GateInv w) (h : w.loop.Quiet loop) :
    GateInv (w.follow loop before worker) := by
  apply follow_same hi h.gate
  rcases h.phase with hp | ⟨t, q, q', hp, hp'⟩
  · rw [hp]
    exact hi.phase
  · have hphase := hi.phase
    rw [hp] at hphase
    rw [hp']
    exact hphase

theorem phaseOk_finished {turnRouting : RoutingContext} {inherited : Bool} {phase : LoopPhase}
    (h : phase = .stopped ∨ phase = .polling) : PhaseOk turnRouting none inherited phase := by
  rcases h with rfl | rfl
  · trivial
  · exact fun hne => absurd rfl hne

theorem follow_finished {l : Loop} {t : Turn} {before : List SentRow} {worker : Option Text} (hi : GateInv w) :
    GateInv (w.follow (l.finishTurn t) before worker) :=
  follow_down hi finishTurn_ends.1 (phaseOk_finished finishTurn_ends.2)

theorem routed_human {keep turnMessages : List InboundRow} (h : routingEnabledForTurn c keep turnMessages = true) :
    (extractRouting turnMessages).channelType ≠ some agentChannel := by
  simp only [routingEnabledForTurn, Bool.and_eq_true, decide_eq_true_eq] at h
  obtain ⟨⟨-, hchannel⟩, -⟩ := h
  intro hagent
  apply hchannel
  change (((turnMessages.find? fun m => m.kind.isChat).or turnMessages.head?).map InboundRow.surface |>.getD
    nowhere).channelType = some agentChannel at hagent
  cases hanchor : (turnMessages.find? fun m => m.kind.isChat).or turnMessages.head? with
  | none =>
    rw [hanchor] at hagent
    cases hagent
  | some m =>
    rw [hanchor] at hagent
    change m.channelType.map ofString = some agentChannel at hagent
    obtain ⟨channel, hm, heq⟩ := Option.map_eq_some_iff.mp hagent
    rw [Option.bind_some, hm, JsonText.ofString_inj heq]

theorem follow_move {before : List SentRow} {worker : Option Text} (hi : GateInv w)
    (hm : LoopMove c w.loop e loop) (hexecute : e ≠ .routed .execute) (hpoll : e ≠ .poll) (hstart : e ≠ .start) :
    GateInv (w.follow loop before worker) := by
  cases hm with
  | host | clock | abort => exact follow_same hi rfl hi.phase
  | kill => exact follow_same hi rfl trivial
  | start => exact absurd rfl hstart
  | poll => exact absurd rfl hpoll
  | scriptsThrow => exact follow_same hi rfl trivial
  | @scripts turnMessages keep skipped wakeAgent hp ha =>
    have hphase := hi.phase
    rw [hp] at hphase
    obtain ⟨hinherited, hrouting⟩ := hphase
    rcases afterScripts_phase with ⟨hp', hgate⟩ | ⟨hgate, ⟨t, q, hp'⟩ | ⟨t, hp', henabled⟩⟩
    · apply follow_same hi hgate
      rw [hp']
      exact hinherited
    · apply follow_down hi hgate
      rw [hp']
      exact nofun
    · apply follow_down hi hgate
      rw [hp']
      exact ⟨rfl, hrouting ▸ routed_human henabled⟩
  | delegate => exact follow_down hi rfl fun hne => absurd rfl hne
  | execute => exact absurd rfl hexecute
  | routeThrows => exact follow_finished hi
  | @result t q text answered hp =>
    have hquiet : (w.loop.result t q text answered).routingGate = w.loop.routingGate := rfl
    apply follow_same hi hquiet
    have hphase := hi.phase
    rw [hp] at hphase
    exact hphase
  | other => exact follow_same hi rfl hi.phase
  | streamEnd => exact follow_finished hi
  | @retry t q hp ht =>
    have hquiet : (w.loop.startQuery { t with retried := true }).routingGate = w.loop.routingGate := rfl
    apply follow_same hi hquiet
    have hphase := hi.phase
    rw [hp] at hphase
    exact hphase
  | streamThrow => exact follow_finished hi
  | tick hp => exact follow_quiet hi (tick_quiet hp)
  | @tickScripts tick i wakeAgent h =>
    have hquiet : w.loop.Quiet { w.loop with ticks := w.loop.ticks.eraseIdx i } := ⟨rfl, .inl rfl, .refl _⟩
    exact follow_quiet hi (hquiet.trans (tickScripts_quiet tick wakeAgent))

theorem inv_poll (hi : GateInv w) (hs : loopStep c w.loop .poll = some loop) :
    GateInv ({ w with turnRouting := w.claimRouting c }.follow loop [] none) := by
  cases loopStep_move hs with
  | poll hp =>
    have hphase := hi.phase
    rw [hp] at hphase
    have hi' : GateInv { w with turnRouting := w.claimRouting c } := by
      refine ⟨hi.written, hi.raised, ?_, hi.pending⟩
      rw [hp]
      exact hphase
    obtain ⟨hgate, hp' | hp' | ⟨batch, hbatch, hp'⟩⟩ := poll_phase_gate (c := c) hp
    · apply follow_same hi' hgate
      rw [hp']
      trivial
    · apply follow_same hi' hgate
      rw [hp']
      exact hphase
    · apply follow_same hi' hgate
      rw [hp']
      refine ⟨hphase, ?_⟩
      change w.claimRouting c = _
      rw [AgentRunner.claimRouting, hbatch]

theorem inv_start (hi : GateInv w) (hs : loopStep c w.loop .start = some loop) :
    GateInv ({ w with pending := [], inherited := w.installed.isSome }.follow loop [] none) := by
  cases loopStep_move hs with
  | start hp =>
    have hi' : GateInv { w with pending := [], inherited := w.installed.isSome } := by
      refine ⟨hi.written, hi.raised, ?_, fun p hp => absurd hp List.not_mem_nil⟩
      rw [hp]
      trivial
    apply follow_same hi'
    · rfl
    · exact fun hne => Option.isSome_iff_ne_none.mpr hne

theorem decision_id_ne_nil (decision : EnforcedRoutingDecision) : decision.id ≠ [] := by
  have hroute : ofString "route-" ≠ [] := fun h => absurd (JsonText.ofString_inj (t := "") h) (by decide)
  rw [EnforcedRoutingDecision.id, Ne, List.append_eq_nil_iff]
  exact fun h => hroute h.1

theorem gate_ofTurn {decision : EnforcedRoutingDecision} {turnRouting : RoutingContext} {ids : List String}
    (hhuman : turnRouting.channelType ≠ some agentChannel) :
    (decision.gate turnRouting ids).OfTurn turnRouting :=
  ⟨rfl, rfl, rfl, hhuman, decision_id_ne_nil decision⟩

theorem inv_routed {decision : EnforcedRoutingDecision} {usages : ℕ} {staged : Bool} (hi : GateInv w)
    (hs : agentRunnerStep c w (.routed decision usages staged) = some w') : GateInv w' := by
  simp only [agentRunnerStep] at hs
  split at hs
  · rename_i t hp
    obtain ⟨loop, hloop, rfl⟩ := Option.map_eq_some_iff.mp hs
    have hphase := hi.phase
    rw [hp] at hphase
    split
    · rename_i hexecute
      rw [hexecute] at hloop
      cases loopStep_move hloop with
      | execute =>
        refine ⟨rfl, rfl, ?_, hi.pending⟩
        intro gate hgate
        obtain rfl := Option.some.inj hgate
        exact gate_ofTurn hphase.2
    · rename_i hexecute
      exact follow_move hi (loopStep_move hloop) (fun he => hexecute (LoopEvent.routed.inj he)) nofun nofun
  · cases hs

theorem loop_cases (hs : agentRunnerStep c w (.loop e) = some w') : ∃ loop, loopStep c w.loop e = some loop ∧
    ((e = .poll ∧ w' = { w with turnRouting := w.claimRouting c }.follow loop [] none) ∨
      (e = .start ∧ w' = { w with pending := [], inherited := w.installed.isSome }.follow loop [] none) ∨
      (e = .kill ∧ w' = { w with pending := [] }.follow loop [] none) ∨
      ((e ≠ .poll ∧ e ≠ .start ∧ e ≠ .routed .execute) ∧ w' = w.follow loop [] none)) := by
  cases e with
  | poll =>
    obtain ⟨loop, hloop, rfl⟩ := Option.map_eq_some_iff.mp hs
    exact ⟨loop, hloop, .inl ⟨rfl, rfl⟩⟩
  | start =>
    obtain ⟨loop, hloop, rfl⟩ := Option.map_eq_some_iff.mp hs
    exact ⟨loop, hloop, .inr (.inl ⟨rfl, rfl⟩)⟩
  | kill =>
    simp only [agentRunnerStep] at hs
    obtain ⟨loop, hloop, rfl⟩ := Option.map_eq_some_iff.mp hs
    exact ⟨loop, hloop, .inr (.inr (.inl ⟨rfl, rfl⟩))⟩
  | routed decision =>
    cases decision with
    | delegate | execute => cases hs
    | throws =>
      obtain ⟨loop, hloop, rfl⟩ := Option.map_eq_some_iff.mp hs
      exact ⟨loop, hloop, .inr (.inr (.inr ⟨⟨nofun, nofun, nofun⟩, rfl⟩))⟩
  | _ =>
    simp only [agentRunnerStep] at hs
    obtain ⟨loop, hloop, rfl⟩ := Option.map_eq_some_iff.mp hs
    exact ⟨loop, hloop, .inr (.inr (.inr ⟨⟨nofun, nofun, nofun⟩, rfl⟩))⟩

theorem inv_loop (hi : GateInv w) (hs : agentRunnerStep c w (.loop e) = some w') : GateInv w' := by
  obtain ⟨loop, hloop, ⟨rfl, rfl⟩ | ⟨rfl, rfl⟩ | ⟨rfl, rfl⟩ | ⟨⟨hpoll, hstart, hexecute⟩, rfl⟩⟩ := loop_cases hs
  · exact inv_poll hi hloop
  · exact inv_start hi hloop
  · have hi' : GateInv { w with pending := [] } :=
      ⟨hi.written, hi.raised, hi.phase, fun p hp => absurd hp List.not_mem_nil⟩
    exact follow_move hi' (loopStep_move hloop) nofun nofun nofun
  · exact follow_move hi (loopStep_move hloop) hexecute hpoll hstart

/-- **Every step keeps the gate in order.** -/
theorem gateInv_step (c : LoopConfig) (w : AgentRunner) (e : AgentRunnerEvent) (w' : AgentRunner) (hi : GateInv w)
    (hs : agentRunnerStep c w e = some w') : GateInv w' := by
  cases e with
  | loop e => exact inv_loop hi hs
  | routed decision usages staged => exact inv_routed hi hs
  | usage =>
    simp only [agentRunnerStep] at hs
    split at hs
    · obtain rfl := Option.some.inj hs
      exact ⟨hi.written, hi.raised, hi.phase, hi.pending⟩
    · cases hs
  | call call =>
    simp only [agentRunnerStep] at hs
    split at hs
    · rename_i row hrow
      obtain rfl := Option.some.inj hs
      refine ⟨hi.written, hi.raised, hi.phase, fun p hp gate hread => ?_⟩
      rcases List.mem_append.mp hp with hp | hp
      · exact hi.pending p hp gate hread
      · obtain rfl := List.mem_singleton.mp hp
        exact toolRow_obeys hread hrow
    · obtain rfl := Option.some.inj hs
      exact hi
  | insert i =>
    simp only [agentRunnerStep] at hs
    split at hs
    · obtain rfl := Option.some.inj hs
      exact ⟨hi.written, hi.raised, hi.phase, fun p hp => hi.pending p (List.mem_of_mem_eraseIdx hp)⟩
    · cases hs
  | host destinations sessionRouting =>
    obtain rfl := Option.some.inj hs
    exact ⟨hi.written, hi.raised, hi.phase, hi.pending⟩

/-! ### What is written under the gate -/

theorem numberRows_rows (maxIn : ℕ) (rows : List SentRow) (maxOut : ℕ) :
    (numberRows maxIn maxOut rows).map NumberedRow.toSentRow = rows := by
  induction rows generalizing maxOut with
  | nil => rfl
  | cons row rows ih => rw [numberRows, List.map_cons, ih]

theorem mem_newRows {rows : List SentRow} (h : w'.messagesOut = (w.write rows).messagesOut) {row : NumberedRow}
    (hrow : row ∈ w.newRows w') : row.toSentRow ∈ rows := by
  have hnew : w.newRows w' =
      numberRows (maxSeq (w.loop.inbound.map (·.seq))) (maxSeq (w.messagesOut.map (·.seq))) rows := by
    rw [AgentRunner.newRows, h]
    exact List.drop_left
  rw [hnew] at hrow
  have hmap := List.mem_map_of_mem (f := NumberedRow.toSentRow) hrow
  rwa [numberRows_rows] at hmap

theorem newRows_self (h : w'.messagesOut = w.messagesOut) : w.newRows w' = [] := by
  rw [AgentRunner.newRows, h]
  exact List.drop_length

theorem silent_rows {worker : Option Text} {a : Act} (ha : a.silent) : w.actRows worker a = [] := by
  cases a with
  | claim | release | complete => rfl
  | _ => cases ha

theorem acts_obey {P : Act → Prop} {worker : Option Text} (h : w.loop.Adds P loop)
    (hP : ∀ a, P a → ∀ row ∈ w.actRows worker a, Obeys gate row) {row : SentRow}
    (hrow : row ∈ (loop.acts.drop w.loop.acts.length).flatMap (w.actRows worker)) : Obeys gate row := by
  obtain ⟨a, ha, hrow⟩ := List.mem_flatMap.mp hrow
  exact hP a (adds_drop h ha) row hrow

theorem silent_obeys {worker : Option Text} (h : w.loop.Adds Act.silent loop) {row : SentRow}
    (hrow : row ∈ (loop.acts.drop w.loop.acts.length).flatMap (w.actRows worker)) : Obeys gate row := by
  apply acts_obey h (fun a ha row hrow => ?_) hrow
  rw [silent_rows ha] at hrow
  cases hrow

theorem error_obeys {worker : Option Text} {t : Turn} (hturn : gate.OfTurn w.turnRouting) {row : SentRow}
    (hrow : row ∈ ((w.loop.failTurn t).acts.drop w.loop.acts.length).flatMap (w.actRows worker)) :
    Obeys gate row := by
  apply acts_obey failTurn_adds (fun a ha row hrow => ?_) hrow
  rcases ha with ha | ⟨ids, rfl⟩
  · rw [silent_rows ha] at hrow
    cases hrow
  · rcases List.mem_cons.mp hrow with rfl | hrow
    · exact obeys_system (by decide)
    · obtain rfl := List.mem_singleton.mp hrow
      exact reply_obeys hturn

theorem result_obeys {worker : Option Text} {t : Turn} {q : Query} {text : Option String} {answered : ℕ}
    (hgate : w.gate = some gate) (hturn : gate.OfTurn w.turnRouting) {row : SentRow}
    (hrow : row ∈ ((w.loop.result t q text answered).acts.drop w.loop.acts.length).flatMap (w.actRows worker)) :
    Obeys gate row := by
  apply acts_obey result_adds (fun a ha row hrow => ?_) hrow
  rcases ha with ha | ⟨ids, rfl⟩
  · rw [silent_rows ha] at hrow
    cases hrow
  · rw [AgentRunner.actRows] at hrow
    split at hrow
    · cases hrow
    · exact dispatchResultText_obeys hgate hturn hrow

theorem move_obeys {worker : Option Text} (hi : GateInv w) (hgate : w.installed = some gate)
    (hm : LoopMove c w.loop e loop) (hpoll : e ≠ .poll) {row : SentRow}
    (hrow : row ∈ (loop.acts.drop w.loop.acts.length).flatMap (w.actRows worker)) : Obeys gate row := by
  have hread : w.gate = some gate := hi.gate_eq.trans hgate
  have hphase := hi.phase
  rw [hgate] at hphase
  cases hm with
  | poll => exact absurd rfl hpoll
  | host | clock | abort | kill | start | other | scriptsThrow => exact silent_obeys (.refl _) hrow
  | scripts => exact silent_obeys afterScripts_adds hrow
  | delegate hp | execute hp | routeThrows hp =>
    rw [hp] at hphase
    cases hphase.1
  | result text answered hp =>
    rw [hp] at hphase
    exact result_obeys hread (hphase gate rfl) hrow
  | streamEnd => exact silent_obeys finishTurn_adds hrow
  | retry => exact silent_obeys (.refl _) hrow
  | streamThrow invalid hp =>
    rw [hp] at hphase
    exact error_obeys (hphase gate rfl) hrow
  | tick hp => exact silent_obeys (tick_quiet hp).adds hrow
  | @tickScripts tick i wakeAgent =>
    have hquiet : w.loop.Quiet { w.loop with ticks := w.loop.ticks.eraseIdx i } := ⟨rfl, .inl rfl, .refl _⟩
    exact silent_obeys (hquiet.trans (tickScripts_quiet tick wakeAgent)).adds hrow

/-- **One step under a gate.** -/
theorem step_obeys {e : AgentRunnerEvent} (hi : GateInv w) (hs : agentRunnerStep c w e = some w')
    (hgate : w.installed = some gate) (hbypass : ¬w.Bypasses e) {row : NumberedRow} (hrow : row ∈ w.newRows w') :
    Obeys gate row.toSentRow := by
  cases e with
  | loop e =>
    obtain ⟨loop, hloop, ⟨rfl, rfl⟩ | ⟨rfl, rfl⟩ | ⟨rfl, rfl⟩ | ⟨⟨hpoll, -, -⟩, rfl⟩⟩ := loop_cases hs
    · cases loopStep_move hloop with
      | poll hp =>
        have hphase := hi.phase
        rw [hp] at hphase
        exact absurd (hphase (by rw [hgate]; exact nofun)) hbypass
    · exact move_obeys hi hgate (loopStep_move hloop) nofun (mem_newRows rfl hrow)
    · exact move_obeys hi hgate (loopStep_move hloop) nofun (mem_newRows rfl hrow)
    · exact move_obeys hi hgate (loopStep_move hloop) hpoll (mem_newRows rfl hrow)
  | routed decision usages staged =>
    simp only [agentRunnerStep] at hs
    split at hs
    · rename_i t hp
      have hphase := hi.phase
      rw [hp, hgate] at hphase
      cases hphase.1
    · cases hs
  | usage =>
    simp only [agentRunnerStep] at hs
    split at hs
    · obtain rfl := Option.some.inj hs
      obtain hrow := List.mem_singleton.mp (mem_newRows rfl hrow)
      rw [hrow]
      exact ⟨fun hk => hk.elim nofun nofun, nofun, fun _ _ => nofun⟩
    · cases hs
  | call call =>
    have hsame : w'.messagesOut = w.messagesOut := by
      simp only [agentRunnerStep] at hs
      split at hs <;> obtain rfl := Option.some.inj hs <;> rfl
    rw [newRows_self hsame] at hrow
    cases hrow
  | insert i =>
    simp only [agentRunnerStep] at hs
    split at hs
    · rename_i p hp
      obtain rfl := Option.some.inj hs
      obtain hrow := List.mem_singleton.mp (mem_newRows rfl hrow)
      have hread : p.read = w.installed := not_not.mp fun hne => hbypass ⟨p, hp, hne⟩
      rw [hrow]
      exact hi.pending p (List.mem_of_getElem? hp) gate (hread.trans hgate)
    · cases hs
  | host destinations sessionRouting =>
    have hsame : w'.messagesOut = w.messagesOut := by
      obtain rfl := Option.some.inj hs
      rfl
    rw [newRows_self hsame] at hrow
    cases hrow

end Run

/-! ### Every run -/

/-- **Enforced routing.** In every run, what is written while a gate is installed obeys it, but for what
bypasses it. -/
theorem routed_turn_confined (c : LoopConfig) {inbound : List InboundRow} {acks : List AckRow} {now : ℕ}
    {messagesOut : List NumberedRow} {destinations : List DestinationEntry} {sessionRouting : Option Surface}
    {es : List AgentRunnerEvent} {w w' : AgentRunner} {e : AgentRunnerEvent} {gate : RoutingGate}
    (hrun : Trans.run (agentRunnerStep c)
      (AgentRunner.fresh inbound acks now messagesOut destinations sessionRouting) es = some w)
    (hs : agentRunnerStep c w e = some w') (hgate : w.installed = some gate) (hbypass : ¬w.Bypasses e) :
    ∀ row ∈ w.newRows w', Obeys gate row.toSentRow := by
  have hfresh : GateInv (AgentRunner.fresh inbound acks now messagesOut destinations sessionRouting) :=
    ⟨rfl, rfl, trivial, fun p hp => absurd hp List.not_mem_nil⟩
  have hi : GateInv w := Trans.run_inv (gateInv_step c) hfresh hrun
  exact fun row hrow => step_obeys hi hs hgate hbypass hrow

/-- A turn that waits for the routing model. -/
def waitingTurn : List AgentRunnerEvent := [.loop .start, .loop .poll, .loop (.scripts fun _ => true)]

def answerSelf : AgentRunnerEvent := .routed ⟨ofString "1", .answerSelf, none⟩ 1 true

/-- A turn that the agent is to answer itself. -/
def answeredTurn : List AgentRunnerEvent := waitingTurn ++ [answerSelf]

/-- One chat with one message, and a destination elsewhere. -/
def oneMessage : AgentRunner :=
  .fresh [groupMessage 2 true] [] 0 [] [⟨"other", .channel, some (ofString "feishu"), some (ofString "oc_other"), none⟩]
    none

/-- The gate before a step, and the rows of the step, after a run from `oneMessage`. -/
def oneMessageTrial (es : List AgentRunnerEvent) (e : AgentRunnerEvent) : Option (Option RoutingGate × List SentRow) :=
  (Trans.run (agentRunnerStep ⟨10, true⟩) oneMessage es).bind fun w =>
    (agentRunnerStep ⟨10, true⟩ w e).map fun w' => (w.installed, (w.newRows w').map (·.toSentRow))

theorem trial_steps {es : List AgentRunnerEvent} {e : AgentRunnerEvent} {installed : Option RoutingGate}
    {rows : List SentRow}
    (h : oneMessageTrial es e = some (installed, rows)) :
    ∃ w w', Trans.run (agentRunnerStep ⟨10, true⟩) oneMessage es = some w ∧ agentRunnerStep ⟨10, true⟩ w e = some w' ∧
      w.installed = installed ∧ (w.newRows w').map (·.toSentRow) = rows := by
  obtain ⟨w, hrun, h⟩ := Option.bind_eq_some_iff.mp h
  obtain ⟨w', hs, h⟩ := Option.map_eq_some_iff.mp h
  obtain ⟨rfl, rfl⟩ := Prod.mk.inj h
  exact ⟨w, w', hrun, hs, rfl, rfl⟩

/-- The gate of `answeredTurn`. -/
def answeredGate : RoutingGate :=
  { decisionId := ofString "route-1", anchorId := ofString "om_2", action := .answerSelf, targetAgentGroupId := none
    originChannelType := some (ofString "feishu"), originPlatformId := some (ofString "oc_group")
    originThreadId := some none }

/-- The error of a routed turn goes to the chat it came from. -/
theorem routed_error_confined :
    ∃ w w', Trans.run (agentRunnerStep ⟨10, true⟩) oneMessage answeredTurn = some w ∧
      agentRunnerStep ⟨10, true⟩ w (.loop (.streamThrow false)) = some w' ∧ w.installed = some answeredGate ∧
      (w.newRows w').length = 2 ∧ ∀ row ∈ w.newRows w', Obeys answeredGate row.toSentRow := by
  have htrial : oneMessageTrial answeredTurn (.loop (.streamThrow false)) = some (some answeredGate,
      [SystemAction.providerError.row nowhere,
        ⟨.chat, none, ⟨some (ofString "feishu"), some (ofString "oc_group"), none⟩, none⟩]) := by
    decide
  obtain ⟨w, w', hrun, hs, hgate, hrows⟩ := trial_steps htrial
  have hlength : (w.newRows w').length = 2 := by
    rw [← List.length_map (·.toSentRow), hrows]
    rfl
  exact ⟨w, w', hrun, hs, hgate, hlength, routed_turn_confined ⟨10, true⟩ hrun hs hgate id⟩

/-- A `/clear` in another chat of the session. -/
def clearElsewhere : InboundRow :=
  { groupMessage 4 true with
    platformId := some "oc_other", content := some (.obj [("text", .str "/clear")]) }

/-- The next container's first batch, when this one is killed after its answer. -/
def killedTurn : List AgentRunnerEvent :=
  answeredTurn ++ [.loop (.provider (.result none 1)), .loop .kill,
    .loop (.host [groupMessage 2 true, clearElsewhere]), .loop .start]

/-- A tool that asked before the routing was done. -/
def earlyCall : List AgentRunnerEvent := waitingTurn ++ [.call (.sendMessage "other" "hi"), answerSelf]

theorem not_obeys_elsewhere {text : Option String} :
    ¬Obeys answeredGate ⟨.chat, none, ⟨some (ofString "feishu"), some (ofString "oc_other"), none⟩, text⟩ := by
  intro h
  have hpermits := h.permitted (.inl rfl)
  have hhuman : some (ofString "feishu") ≠ some agentChannel := fun he =>
    absurd (JsonText.ofString_inj (Option.some.inj he)) (by decide)
  rw [RoutingGate.Permits, if_neg hhuman] at hpermits
  exact absurd (JsonText.ofString_inj (Option.some.inj hpermits.2.1)) (by decide)

/-- **Two ways past a gate.** A container that is killed after its answer leaves its gate, and the next one
answers a `/clear` of another chat before it clears it; and a tool that asked before the routing was done
writes to another chat. -/
theorem gate_escaped :
    (∃ w w' row, Trans.run (agentRunnerStep ⟨10, true⟩) oneMessage killedTurn = some w ∧
        agentRunnerStep ⟨10, true⟩ w (.loop .poll) = some w' ∧ w.installed = some answeredGate ∧
        row ∈ w.newRows w' ∧ ¬Obeys answeredGate row.toSentRow) ∧
      ∃ w w' row, Trans.run (agentRunnerStep ⟨10, true⟩) oneMessage earlyCall = some w ∧
        agentRunnerStep ⟨10, true⟩ w (.insert 0) = some w' ∧ w.installed = some answeredGate ∧
        row ∈ w.newRows w' ∧ ¬Obeys answeredGate row.toSentRow := by
  have hclear : oneMessageTrial killedTurn (.loop .poll) = some (some answeredGate,
      [⟨.chat, none, ⟨some (ofString "feishu"), some (ofString "oc_other"), none⟩, none⟩]) := by
    decide
  have htool : oneMessageTrial earlyCall (.insert 0) = some (some answeredGate,
      [⟨.chat, none, ⟨some (ofString "feishu"), some (ofString "oc_other"), none⟩, some "hi"⟩]) := by
    decide
  constructor
  · obtain ⟨w, w', hrun, hs, hgate, hrows⟩ := trial_steps hclear
    obtain ⟨row, hrow, heq⟩ := List.mem_map.mp (hrows.symm ▸ List.mem_singleton_self _)
    exact ⟨w, w', row, hrun, hs, hgate, hrow, heq ▸ not_obeys_elsewhere⟩
  · obtain ⟨w, w', hrun, hs, hgate, hrows⟩ := trial_steps htool
    obtain ⟨row, hrow, heq⟩ := List.mem_map.mp (hrows.symm ▸ List.mem_singleton_self _)
    exact ⟨w, w', row, hrun, hs, hgate, hrow, heq ▸ not_obeys_elsewhere⟩

end AgentDesk
