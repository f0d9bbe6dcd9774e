/-
# Whose turn the runner takes it for

Backend calls and delegations of a turn are attributed to the identity the poll
loop publishes for it. The loop claims the rows up to the second trigger, gives
back those of other users, answers `/clear`, runs the pre-task scripts and then
asks `resolveBatchIdentity` for the identity of what is left: the first user
trigger that is not a host notice, else the first row, whoever wrote it.

The second case is meant for batches without a user trigger. It is also taken
when the trigger is a task, a webhook or a host notice, when the trigger was a
`/clear`, and when the sender is called `system`; the first row may then be
context that someone else wrote.

* `splitBatchByTrigger_unique`: a claimed batch has one trigger.
* `resolveBatchIdentity_iff`: the identity is the trigger's, exactly when the
  trigger is a user's or the first row is nobody's.
* `turn_identity_iff`: the same of the identity that a turn is run with.
* `task_behind_context`: a due task behind another user's message.
-/
import AgentDesk.PollLoop
import AgentDesk.Trans

namespace AgentDesk

open Js

/-! ### The claimed batch -/

theorem splitBatchByTrigger_go_found {batch : List InboundRow} :
    ∀ row ∈ (splitBatchByTrigger.go true batch).1, row.trigger = false := by
  induction batch with
  | nil => simp [splitBatchByTrigger.go]
  | cons r rows ih =>
    unfold splitBatchByTrigger.go
    by_cases hr : r.trigger = true
    · simp [hr]
    · simpa [hr] using ih

/-- A claimed batch has one trigger. -/
theorem splitBatchByTrigger_unique {batch : List InboundRow} {t : InboundRow}
    (ht : (splitBatchByTrigger batch).1.find? (·.trigger) = some t) :
    ∀ row ∈ (splitBatchByTrigger batch).1, row.trigger = true → row = t := by
  unfold splitBatchByTrigger at ht ⊢
  induction batch with
  | nil => simp [splitBatchByTrigger.go]
  | cons r rows ih =>
    unfold splitBatchByTrigger.go at ht ⊢
    by_cases hr : r.trigger = true
    · simp only [hr, Bool.and_false, Bool.false_eq_true, if_false, Bool.or_true, List.find?_cons_of_pos,
        Option.some.injEq] at ht ⊢
      intro row hrow htrigger
      rcases List.mem_cons.mp hrow with rfl | hrow
      · exact ht
      · rw [splitBatchByTrigger_go_found row hrow] at htrigger
        cases htrigger
    · simp only [hr, Bool.false_and, Bool.false_eq_true, if_false, Bool.or_false, not_false_eq_true,
        List.find?_cons_of_neg] at ht ⊢
      intro row hrow htrigger
      rcases List.mem_cons.mp hrow with rfl | hrow
      · exact absurd htrigger hr
      · exact ih ht row hrow htrigger

/-- The rows of the next turn. -/
def Loop.nextBatch (c : LoopConfig) (l : Loop) : List InboundRow :=
  (splitBatchByTrigger ((getPendingMessages l.inbound l.acks c.maxMessagesPerPrompt l.now).filter
    fun m => m.kind ≠ .system)).1

/-- Of a claimed batch, what rides with its anchor, is no command, and is not stopped by its script. -/
def goesOn (wakeAgent : String → Bool) (batch : List InboundRow) (row : InboundRow) : Bool :=
  ridesWith (resolveBatchIdentity batch) row && clearVerdict row = some false &&
    !(scripted row = some true && !wakeAgent row.id)

theorem applyPreTaskScripts_keep {wakeAgent : String → Bool} {batch keep : List InboundRow} {skipped : List String}
    (h : applyPreTaskScripts wakeAgent (normalMessages (splitBatchByTurn batch).1) = some (keep, skipped)) :
    keep = batch.filter (goesOn wakeAgent batch) := by
  unfold applyPreTaskScripts at h
  split at h
  · cases h
  · obtain ⟨rfl, -⟩ := Prod.mk.inj (Option.some.inj h)
    unfold normalMessages splitBatchByTurn goesOn
    rw [List.filter_filter, List.filter_filter]
    refine List.filter_congr fun row _ => ?_
    rw [Bool.and_comm, Bool.and_assoc]
    exact congrArg (ridesWith (resolveBatchIdentity batch) row && ·) (Bool.and_comm _ _)

/-! ### The identity of what is left -/

/-- The row that the identity of a batch is taken from. -/
def identityRow (batch : List InboundRow) : Option InboundRow :=
  (batch.find? fun m => m.trigger && m.kind.isChat && !isSystemSenderRow m).or batch.head?

/-- A user's message on a channel, with an id the runner trusts. -/
def fromChannelUser (row : InboundRow) : Prop :=
  row.kind.isChat = true ∧ row.channelType ≠ some "agent" ∧ (rowIdentity row).userId ≠ none

/-- The identity `p` that the rows `keep` are run with is the trigger's. -/
structure ActsForTrigger (keep : List InboundRow) (t : InboundRow) (p : RequestIdentity) : Prop where
  /-- It is the trigger's or nobody's. -/
  person : p = rowIdentity t ∨ p.userId = none
  /-- Context is not trusted for it. -/
  context : ∀ row, identityRow keep = some row → row.trigger = false → p.source ≠ .session
  /-- A user who is called `system` is still that user. -/
  displayName : t ∈ keep → fromChannelUser t → p = rowIdentity t

/-- The trigger goes on and is a user's, not called `system`; or the first row that goes on is the trigger
itself, is a host notice or has no user, and no channel user's trigger is among the rows. -/
def TriggerSpeaks (wakeAgent : String → Bool) (batch : List InboundRow) (t : InboundRow) : Prop :=
  (goesOn wakeAgent batch t = true ∧ t.kind.isChat = true ∧ isSystemSenderRow t = false) ∨
    ((∃ row, batch.find? (goesOn wakeAgent batch) = some row ∧
        (row = t ∨ isSystemSenderRow row = true ∨ (rowIdentity row).userId = none)) ∧
      ¬ (goesOn wakeAgent batch t = true ∧ fromChannelUser t))

theorem rowIdentity_source_iff (row : InboundRow) :
    (rowIdentity row).source = .session ↔ (rowIdentity row).userId ≠ none := by
  unfold rowIdentity
  dsimp only
  split
  · simp
  · generalize (if row.channelType = some "agent" || _ then none else _ : Option String) = userId
    cases userId <;> simp

variable {wakeAgent : String → Bool} {batch : List InboundRow} {t : InboundRow}

theorem identityRow_user (hunique : ∀ row ∈ batch, row.trigger = true → row = t) (ht : t ∈ batch)
    (htrigger : t.trigger = true) (hchat : t.kind.isChat = true) (hsystem : isSystemSenderRow t = false) :
    identityRow batch = some t := by
  unfold identityRow
  cases hfind : batch.find? fun m => m.trigger && m.kind.isChat && !isSystemSenderRow m with
  | none =>
    have hno := List.find?_eq_none.mp hfind t ht
    simp [htrigger, hchat, hsystem] at hno
  | some row =>
    have hrow := List.find?_some hfind
    simp only [Bool.and_eq_true] at hrow
    rw [hunique row (List.mem_of_find?_eq_some hfind) hrow.1.1]
    rfl

theorem identityRow_head (hunique : ∀ row ∈ batch, row.trigger = true → row = t)
    (hno : ¬ (t ∈ batch ∧ t.kind.isChat = true ∧ isSystemSenderRow t = false)) :
    identityRow batch = batch.head? := by
  have hfind : batch.find? (fun m => m.trigger && m.kind.isChat && !isSystemSenderRow m) = none := by
    refine List.find?_eq_none.mpr fun row hrow hp => hno ?_
    simp only [Bool.and_eq_true, Bool.not_eq_true'] at hp
    obtain rfl := hunique row hrow hp.1.1
    exact ⟨hrow, hp.1.2, hp.2⟩
  unfold identityRow
  rw [hfind, Option.none_or]

theorem resolveBatchIdentity_row {row : InboundRow} (h : identityRow batch = some row) :
    resolveBatchIdentity batch = if isSystemSenderRow row then noIdentity else rowIdentity row := by
  unfold resolveBatchIdentity
  unfold identityRow at h
  rw [h]

/-- The identity of what is left of a batch is its trigger's, exactly when the trigger speaks for it. -/
theorem resolveBatchIdentity_iff (hunique : ∀ row ∈ batch, row.trigger = true → row = t) (ht : t ∈ batch)
    (htrigger : t.trigger = true) (hkeep : batch.filter (goesOn wakeAgent batch) ≠ []) :
    ActsForTrigger (batch.filter (goesOn wakeAgent batch)) t
        (resolveBatchIdentity (batch.filter (goesOn wakeAgent batch))) ↔
      TriggerSpeaks wakeAgent batch t := by
  have hmem : t ∈ batch.filter (goesOn wakeAgent batch) ↔ goesOn wakeAgent batch t = true := by
    simp [List.mem_filter, ht]
  have hunique' : ∀ row ∈ batch.filter (goesOn wakeAgent batch), row.trigger = true → row = t :=
    fun row hrow => hunique row (List.mem_filter.mp hrow).1
  by_cases huser : goesOn wakeAgent batch t = true ∧ t.kind.isChat = true ∧ isSystemSenderRow t = false
  · -- the trigger itself is found
    have hrow := identityRow_user hunique' (hmem.mpr huser.1) htrigger huser.2.1 huser.2.2
    rw [resolveBatchIdentity_row hrow, huser.2.2, if_neg Bool.false_ne_true]
    refine ⟨fun _ => .inl huser, fun _ => ⟨.inl rfl, ?_, fun _ _ => rfl⟩⟩
    intro row hrow' hcontext
    obtain rfl : t = row := Option.some.inj (hrow.symm.trans hrow')
    rw [htrigger] at hcontext
    cases hcontext
  · have hno : ¬ (t ∈ batch.filter (goesOn wakeAgent batch) ∧ t.kind.isChat = true ∧
        isSystemSenderRow t = false) := by rwa [hmem]
    have hhead := identityRow_head hunique' hno
    obtain ⟨first, hfirst⟩ : ∃ first, (batch.filter (goesOn wakeAgent batch)).head? = some first :=
      Option.ne_none_iff_exists'.mp (by simpa [List.head?_eq_none_iff] using hkeep)
    have hfind : batch.find? (goesOn wakeAgent batch) = some first := by rw [← List.head?_filter, hfirst]
    rw [hfirst] at hhead
    have hfirstmem : first ∈ batch.filter (goesOn wakeAgent batch) := List.mem_of_mem_head? hfirst
    rw [resolveBatchIdentity_row hhead]
    unfold TriggerSpeaks
    rw [or_iff_right huser]
    constructor
    · intro hacts
      constructor
      · refine ⟨first, hfind, ?_⟩
        by_cases hft : first.trigger = true
        · exact .inl (hunique' first hfirstmem hft)
        · have hsource := hacts.context first hhead (by simpa using hft)
          by_cases hsys : isSystemSenderRow first = true
          · exact .inr (.inl hsys)
          · rw [if_neg hsys] at hsource
            exact .inr (.inr (not_not.mp fun h => hsource ((rowIdentity_source_iff first).mpr h)))
      · -- a channel user's trigger that is not found is called `system`
        rintro ⟨hgo, hchannel⟩
        have hsystem : isSystemSenderRow t = true := by
          by_contra h
          exact huser ⟨hgo, hchannel.1, by simpa using h⟩
        have hp := hacts.displayName (hmem.mpr hgo) hchannel
        have hsource := (rowIdentity_source_iff t).mpr hchannel.2.2
        by_cases hsys : isSystemSenderRow first = true
        · rw [if_pos hsys] at hp
          exact hchannel.2.2 (by rw [← hp]; rfl)
        · by_cases hft : first.trigger = true
          · rw [hunique' first hfirstmem hft] at hsys
            exact hsys hsystem
          · rw [← hp] at hsource
            exact hacts.context first hhead (by simpa using hft) hsource
    · rintro ⟨⟨row, hrow, hwho⟩, hchannel⟩
      obtain rfl : first = row := Option.some.inj (hfind.symm.trans hrow)
      rcases hwho with rfl | hsys | hnone
      · refine ⟨?_, ?_, fun hk hc => absurd ⟨hmem.mp hk, hc⟩ hchannel⟩
        · by_cases hsys : isSystemSenderRow first = true
          · rw [if_pos hsys]
            exact .inr rfl
          · rw [if_neg hsys]
            exact .inl rfl
        · intro row hrow' hcontext
          obtain rfl : first = row := Option.some.inj (hhead.symm.trans hrow')
          rw [htrigger] at hcontext
          cases hcontext
      · rw [if_pos hsys]
        exact ⟨.inr rfl, fun _ _ _ => by simp [noIdentity], fun hk hc => absurd ⟨hmem.mp hk, hc⟩ hchannel⟩
      · have hsource : (if isSystemSenderRow first then noIdentity else rowIdentity first).userId = none := by
          split
          · rfl
          · exact hnone
        refine ⟨.inr hsource, fun _ _ _ hs => ?_, fun hk hc => absurd ⟨hmem.mp hk, hc⟩ hchannel⟩
        split at hs
        · cases hs
        · exact (rowIdentity_source_iff first).mp hs hnone

/-! ### The loop -/

theorem Loop.answerCommands_phase {l : Loop} {turnMessages rows : List InboundRow}
    (h : (l.answerCommands turnMessages).phase = .preTask rows) : rows = turnMessages := by
  unfold Loop.answerCommands at h
  dsimp only at h
  split at h
  · cases h
  · split at h
    · cases h
    · exact (LoopPhase.preTask.inj h).symm

theorem loopStep_poll_preTask {c : LoopConfig} {l l' : Loop} {rows : List InboundRow}
    (h : loopStep c l .poll = some l') (hp : l'.phase = .preTask rows) :
    rows = (splitBatchByTurn (l.nextBatch c)).1 := by
  cases loopStep_move h with
  | poll hpolling =>
    have hne : l.phase ≠ .preTask rows := by
      rw [hpolling]
      simp
    unfold Loop.poll at hp
    split at hp
    · cases hp
    · dsimp only at hp
      split at hp
      · exact absurd hp hne
      · split at hp
        · exact absurd hp hne
        · exact Loop.answerCommands_phase hp

theorem Loop.tickScripts_preTask {l : Loop} {tick : Tick} {w : String → Bool} {rows : List InboundRow}
    (hp : l.phase = .preTask rows) : (l.tickScripts tick w).phase = .preTask rows := by
  have hsettled : ∀ l : Loop, l.phase = .preTask rows → Loop.tickScripts.settled tick l = l := by
    intro l hl
    unfold Loop.tickScripts.settled
    rw [hl]
  unfold Loop.tickScripts
  split
  · rw [hsettled l hp]
    exact hp
  · rename_i keep skipped _
    have hcomplete : (l.complete .preTask skipped).phase = .preTask rows := hp
    simp only [hsettled _ hcomplete, hcomplete]
    split
    · exact hcomplete
    · exact hcomplete

theorem loopStep_preTask {c : LoopConfig} {l l' : Loop} {e : LoopEvent} {rows : List InboundRow}
    (hp : l.phase = .preTask rows) (hkill : e ≠ .kill) (hscripts : ∀ w, e ≠ .scripts w)
    (h : loopStep c l e = some l') : l'.phase = .preTask rows := by
  have hother : ∀ phase, l.phase = phase → phase ≠ .preTask rows → l'.phase = .preTask rows :=
    fun phase hphase hne => absurd (hphase.symm.trans hp) hne
  cases loopStep_move h with
  | host => exact hp
  | clock => exact hp
  | abort => exact hp
  | other => exact hp
  | kill => exact absurd rfl hkill
  | scriptsThrow w => exact absurd rfl (hscripts w)
  | scripts w => exact absurd rfl (hscripts w)
  | start hphase => exact hother _ hphase (by simp)
  | poll hphase => exact hother _ hphase (by simp)
  | delegate hphase => exact hother _ hphase (by simp)
  | execute hphase => exact hother _ hphase (by simp)
  | routeThrows hphase => exact hother _ hphase (by simp)
  | result _ _ hphase => exact hother _ hphase (by simp)
  | streamEnd hphase => exact hother _ hphase (by simp)
  | retry hphase => exact hother _ hphase (by simp)
  | streamThrow _ hphase => exact hother _ hphase (by simp)
  | tick hphase => exact hother _ hphase (by simp)
  | tickScripts => exact Loop.tickScripts_preTask hp

theorem run_preTask {c : LoopConfig} {l l' : Loop} {es : List LoopEvent} {rows : List InboundRow}
    (hp : l.phase = .preTask rows) (hes : ∀ e ∈ es, e ≠ .kill ∧ ∀ w, e ≠ .scripts w)
    (h : Trans.run (loopStep c) l es = some l') : l'.phase = .preTask rows := by
  induction es generalizing l with
  | nil =>
    obtain rfl := Option.some.inj h
    exact hp
  | cons e es ih =>
    obtain ⟨l₁, hstep, hrun⟩ := Trans.run_cons.mp h
    obtain ⟨hkill, hscripts⟩ := hes e (.head _)
    exact ih (loopStep_preTask hp hkill hscripts hstep) (fun e he => hes e (.tail _ he)) hrun

theorem loopStep_scripts_turn {c : LoopConfig} {l l' : Loop} {rows : List InboundRow}
    (hp : l.phase = .preTask rows) (h : loopStep c l (.scripts wakeAgent) = some l')
    (hturn : l'.phase ≠ .polling ∧ l'.phase ≠ .stopped) :
    ∃ keep skipped, applyPreTaskScripts wakeAgent (normalMessages rows) = some (keep, skipped) ∧ keep ≠ [] ∧
      l'.identity = some (resolveBatchIdentity keep) := by
  cases loopStep_move h with
  | scriptsThrow => exact absurd rfl hturn.2
  | @scripts rows' keep skipped _ hp' ha =>
    obtain rfl : rows = rows' := LoopPhase.preTask.inj (hp.symm.trans hp')
    refine ⟨keep, skipped, ha, ?_, ?_⟩
    · rintro rfl
      exact hturn.1 (by simp [Loop.afterScripts, Loop.to])
    · unfold Loop.afterScripts at hturn ⊢
      dsimp only at hturn ⊢
      split at hturn
      · exact absurd rfl hturn.1
      · rename_i hne
        rw [if_neg hne]
        split <;> rfl

/-- **Whose turn it is.** From any state of the databases: the loop claims a batch whose first trigger is `t`,
waits for its pre-task scripts, whatever the host, the clock and the timers of older streams do meanwhile,
and begins a turn. The identity it publishes is the trigger's, exactly when the trigger speaks for the
batch. -/
theorem turn_identity_iff {c : LoopConfig} {l l₁ l₂ l₃ : Loop} {es : List LoopEvent} {rows : List InboundRow}
    (hpoll : loopStep c l .poll = some l₁) (hrows : l₁.phase = .preTask rows)
    (hwait : Trans.run (loopStep c) l₁ es = some l₂) (hes : ∀ e ∈ es, e ≠ .kill ∧ ∀ w, e ≠ .scripts w)
    (hscripts : loopStep c l₂ (.scripts wakeAgent) = some l₃)
    (hturn : l₃.phase ≠ .polling ∧ l₃.phase ≠ .stopped)
    (ht : (l.nextBatch c).find? (·.trigger) = some t) :
    (∃ p, l₃.identity = some p ∧
        ActsForTrigger ((l.nextBatch c).filter (goesOn wakeAgent (l.nextBatch c))) t p) ↔
      TriggerSpeaks wakeAgent (l.nextBatch c) t := by
  obtain ⟨keep, skipped, ha, hkeep, hp⟩ := loopStep_scripts_turn (run_preTask hrows hes hwait) hscripts hturn
  rw [loopStep_poll_preTask hpoll hrows] at ha
  obtain rfl := applyPreTaskScripts_keep ha
  have hunique : ∀ row ∈ l.nextBatch c, row.trigger = true → row = t := splitBatchByTrigger_unique ht
  rw [← resolveBatchIdentity_iff hunique (List.mem_of_find?_eq_some ht) (List.find?_some ht) hkeep]
  constructor
  · rintro ⟨p, hp', hacts⟩
    obtain rfl := Option.some.inj (hp.symm.trans hp')
    exact hacts
  · intro hacts
    exact ⟨_, hp, hacts⟩

/-! ### A task behind a message -/

def bystanderRow : InboundRow :=
  { id := "om_1", seq := 2, kind := .chat, pending := true, processAfter := none, trigger := false
    platformId := some "oc_1", channelType := some "feishu", threadId := none, raw := ""
    content := some (.obj [("text", .str "lunch?"), ("sender", .str "Bob"), ("senderId", .str "ou_bob")])
    originUserId := none }

def dueTask : InboundRow :=
  { bystanderRow with
    id := "task-1", seq := 4, kind := .task, trigger := true
    content := some (.obj [("prompt", .str "report")]) }

def userTrigger : InboundRow :=
  { bystanderRow with
    id := "om_2", seq := 4, trigger := true
    content := some (.obj [("text", .str "report"), ("sender", .str "Ann"), ("senderId", .str "ou_ann")]) }

def turnConfig : LoopConfig := ⟨10, false⟩

/-- The loop, about to poll rows nobody has claimed. -/
def pollingLoop (rows : List InboundRow) : Loop := (Loop.fresh rows [] 0).to .polling

def turnEvents : List LoopEvent := [.poll, .scripts fun _ => true]

/-- Ann's message next to Bob's: Bob's is given back, the turn is Ann's. -/
theorem turn_identity_iff_sample : ∃ l₁ l₃,
    loopStep turnConfig (pollingLoop [bystanderRow, userTrigger]) .poll = some l₁ ∧
      loopStep turnConfig l₁ (.scripts fun _ => true) = some l₃ ∧
      ∃ p, l₃.identity = some p ∧ ActsForTrigger [userTrigger] userTrigger p := by
  let l₁ := (pollingLoop [bystanderRow, userTrigger]).poll turnConfig
  let l₃ := l₁.afterScripts turnConfig [userTrigger] [userTrigger] []
  have hscripts : loopStep turnConfig l₁ (.scripts fun _ => true) = some l₃ := rfl
  have hturn : l₃.phase ≠ .polling ∧ l₃.phase ≠ .stopped := ⟨nofun, nofun⟩
  have hspeaks : TriggerSpeaks (fun _ => true) ((pollingLoop [bystanderRow, userTrigger]).nextBatch turnConfig)
      userTrigger := .inl ⟨by decide, by decide, by decide⟩
  have hwait : Trans.run (loopStep turnConfig) l₁ [] = some l₁ := rfl
  exact ⟨l₁, l₃, rfl, hscripts, (turn_identity_iff rfl rfl hwait (by simp) hscripts hturn rfl).mpr hspeaks⟩

/-- A task that is due behind Bob's message runs as Bob. -/
theorem task_behind_context : ∃ l,
    Trans.run (loopStep turnConfig) (pollingLoop [bystanderRow, dueTask]) turnEvents = some l ∧
      ((pollingLoop [bystanderRow, dueTask]).nextBatch turnConfig).find? (·.trigger) = some dueTask ∧
      l.identity = some (rowIdentity bystanderRow) ∧ (rowIdentity bystanderRow).userId = some "feishu:ou_bob" ∧
      (rowIdentity bystanderRow).source = .session ∧ (rowIdentity dueTask).userId = none ∧
      ¬ ActsForTrigger [bystanderRow, dueTask] dueTask (rowIdentity bystanderRow) := by
  refine ⟨_, rfl, rfl, rfl, rfl, rfl, rfl, fun h => ?_⟩
  exact h.context bystanderRow rfl rfl rfl

end AgentDesk
