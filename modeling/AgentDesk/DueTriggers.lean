/-
# Which trigger the outer loop reaches

The statement behind `getPendingMessages` takes the newest rows that are pending and due, at most
`maxMessagesPerPrompt` of them; what is already in `processing_ack`, what answers a tool and what is
context only is dropped afterwards, by the runner. A trigger with enough newer rows is therefore not
seen at all, whatever those rows are, and the accumulate gate of the loop finds nothing to do.

* `mem_getPendingMessages`: a row is found exactly when fewer than the limit are newer, pending and due.
* `outerBatch_trigger_iff`: the loop gets a batch exactly when some waiting trigger is within reach.
* `poll_claims`, `poll_idle`: with a batch, the loop claims a waiting trigger; without, it stays put.
-/
import AgentDesk.Latest
import AgentDesk.PollLoop

namespace AgentDesk

open Latest

/-! ### What is found -/

/-- `status = 'pending'` and due. -/
def InboundRow.due (now : ℕ) (r : InboundRow) : Bool := r.pending && r.processAfter.all (· ≤ now)

/-- The row has an entry in `processing_ack`. -/
def acked (acks : List AckRow) (r : InboundRow) : Bool := acks.any fun a => a.messageId = r.id

/-- A due trigger for the loop: not the answer to a tool, and not in `processing_ack`. -/
def InboundRow.waits (acks : List AckRow) (now : ℕ) (r : InboundRow) : Bool :=
  r.due now && r.trigger && r.kind ≠ .system && !acked acks r

/-- How many pending rows that are due, of any sort, are newer than `r`. -/
def newerDue (inbound : List InboundRow) (now : ℕ) (r : InboundRow) : ℕ :=
  newer (·.seq) (inbound.filter (·.due now)) r

variable {inbound : List InboundRow} {acks : List AckRow} {limit now : ℕ}

theorem mem_getPendingMessages (hseq : (inbound.map (·.seq)).Nodup) {r : InboundRow} :
    r ∈ getPendingMessages inbound acks limit now ↔
      r ∈ inbound ∧ r.due now = true ∧ acked acks r = false ∧ newerDue inbound now r < limit := by
  have hread : getPendingMessages inbound acks limit now =
      ((latest (·.seq) limit (inbound.filter (·.due now))).filter fun r => !acked acks r).reverse := rfl
  have hdue : ((inbound.filter (·.due now)).map (·.seq)).Nodup :=
    hseq.sublist (List.filter_sublist.map _)
  rw [hread, List.mem_reverse, List.mem_filter, mem_latest_iff hdue, List.mem_filter, Bool.not_eq_true']
  unfold newerDue
  tauto

/-! ### The batch of the outer loop -/

/-- What the outer loop goes on with: the rows that are no tool's answer, if a trigger is among them. -/
def outerBatch (inbound : List InboundRow) (acks : List AckRow) (limit now : ℕ) : Option (List InboundRow) :=
  let messages := (getPendingMessages inbound acks limit now).filter fun m => m.kind ≠ .system
  if messages.any (·.trigger) then some messages else none

theorem waits_iff_of_found (hseq : (inbound.map (·.seq)).Nodup) {r : InboundRow} :
    (r ∈ (getPendingMessages inbound acks limit now).filter fun m => m.kind ≠ .system) ∧ r.trigger = true ↔
      r ∈ inbound ∧ r.waits acks now = true ∧ newerDue inbound now r < limit := by
  unfold InboundRow.waits
  rw [List.mem_filter, mem_getPendingMessages hseq]
  simp only [Bool.and_eq_true, Bool.not_eq_true', decide_eq_true_eq]
  tauto

/-- The loop gets a batch, with a waiting trigger in it, exactly when one is within reach. -/
theorem outerBatch_trigger_iff (hseq : (inbound.map (·.seq)).Nodup) :
    (∃ batch, outerBatch inbound acks limit now = some batch ∧ ∃ m ∈ batch, m.waits acks now = true) ↔
      ∃ m ∈ inbound, m.waits acks now = true ∧ newerDue inbound now m < limit := by
  constructor
  · rintro ⟨batch, hbatch, m, hm, hwaits⟩
    unfold outerBatch at hbatch
    dsimp only at hbatch
    split at hbatch
    · rw [← Option.some.inj hbatch] at hm
      have htrigger : m.trigger = true := by
        unfold InboundRow.waits at hwaits
        simp only [Bool.and_eq_true] at hwaits
        exact hwaits.1.1.2
      obtain ⟨hin, hw, hreach⟩ := (waits_iff_of_found hseq).mp ⟨hm, htrigger⟩
      exact ⟨m, hin, hw, hreach⟩
    · cases hbatch
  · rintro ⟨m, hin, hwaits, hreach⟩
    obtain ⟨hm, htrigger⟩ := (waits_iff_of_found hseq).mpr ⟨hin, hwaits, hreach⟩
    have hgate : ((getPendingMessages inbound acks limit now).filter fun m => m.kind ≠ .system).any (·.trigger) :=
      List.any_eq_true.mpr ⟨m, hm, htrigger⟩
    refine ⟨_, ?_, m, hm, hwaits⟩
    unfold outerBatch
    dsimp only
    rw [if_pos hgate]

/-! ### One pass of the loop -/

def Loop.outerBatch (c : LoopConfig) (l : Loop) : Option (List InboundRow) :=
  AgentDesk.outerBatch l.inbound l.acks c.maxMessagesPerPrompt l.now

theorem poll_idle {c : LoopConfig} {l : Loop} (hrun : l.aborted = false) (h : l.outerBatch c = none) :
    l.poll c = l := by
  unfold Loop.outerBatch AgentDesk.outerBatch at h
  dsimp only at h
  split at h
  · cases h
  · rename_i hgate
    unfold Loop.poll
    dsimp only
    rw [if_neg (by simp [hrun]), if_pos (by simpa using hgate)]

theorem splitBatchByTrigger_keeps_trigger {messages : List InboundRow} (h : messages.any (·.trigger) = true) :
    ∃ m ∈ (splitBatchByTrigger messages).1, m.trigger = true := by
  unfold splitBatchByTrigger
  induction messages with
  | nil => cases h
  | cons row rows ih =>
    unfold splitBatchByTrigger.go
    by_cases hrow : row.trigger = true
    · exact ⟨row, by simp, hrow⟩
    · obtain ⟨m, hm, htrigger⟩ := ih (by simpa [hrow] using h)
      have hfound : (false || row.trigger) = false := by simpa using hrow
      exact ⟨m, by simp [hrow, hm], htrigger⟩

theorem mem_splitBatchByTrigger_go {found : Bool} {messages : List InboundRow} {m : InboundRow}
    (h : m ∈ (splitBatchByTrigger.go found messages).1) : m ∈ messages := by
  induction messages generalizing found with
  | nil => exact h
  | cons row rows ih =>
    unfold splitBatchByTrigger.go at h
    split at h
    · cases h
    · rcases List.mem_cons.mp h with rfl | h
      · exact List.mem_cons_self
      · exact List.mem_cons_of_mem _ (ih h)

theorem cleared_acts (ids : List String) (l : Loop) :
    ∃ more, (ids.foldl (fun l id => l.write (.cleared id)) l).acts = l.acts ++ more := by
  induction ids generalizing l with
  | nil => exact ⟨[], (List.append_nil _).symm⟩
  | cons id ids ih =>
    obtain ⟨more, h⟩ := ih (l.write (.cleared id))
    exact ⟨.cleared id :: more, by rw [List.foldl_cons, h]; simp [Loop.write]⟩

theorem answerCommands_acts (l : Loop) (turnMessages : List InboundRow) :
    ∃ more, (l.answerCommands turnMessages).acts = l.acts ++ more := by
  unfold Loop.answerCommands
  dsimp only
  obtain ⟨more, h⟩ := cleared_acts (commandIds (turnMessages.takeWhile fun r => (clearVerdict r).isSome)) l
  split
  · exact ⟨more, h⟩
  · split <;> exact ⟨more ++ [.complete .command (commandIds turnMessages)], by
      simp [Loop.to, Loop.complete, h]⟩

theorem claim_release_acts (l : Loop) (claimed released : List String) :
    ((l.claim claimed).release released).acts = l.acts ++ [.claim claimed, .release released] := by
  simp [Loop.claim, Loop.release]

/-- With a batch, a pass of the loop claims a trigger of it. -/
theorem poll_claims {c : LoopConfig} {l : Loop} {batch : List InboundRow} (hrun : l.aborted = false)
    (h : l.outerBatch c = some batch) :
    ∃ ids more, (l.poll c).acts = l.acts ++ .claim ids :: more ∧ ∃ m ∈ batch, m.trigger = true ∧ m.id ∈ ids := by
  unfold Loop.outerBatch AgentDesk.outerBatch at h
  dsimp only at h
  split at h
  swap
  · cases h
  rename_i hgate
  obtain rfl := Option.some.inj h
  obtain ⟨m, hm, htrigger⟩ := splitBatchByTrigger_keeps_trigger hgate
  unfold Loop.poll
  dsimp only
  rw [if_neg (by simp [hrun]), if_neg (by simpa using hgate)]
  split
  · exact ⟨_, _, claim_release_acts l _ _, m, mem_splitBatchByTrigger_go hm, htrigger, List.mem_map_of_mem hm⟩
  · obtain ⟨more, hmore⟩ := answerCommands_acts _ _
    rw [hmore, claim_release_acts]
    exact ⟨_, _, List.append_assoc _ _ _, m, mem_splitBatchByTrigger_go hm, htrigger, List.mem_map_of_mem hm⟩

/-- Whenever a trigger waits, the loop gets a batch with a waiting trigger in it. -/
def Loop.TriggerTaken (c : LoopConfig) (l : Loop) : Prop :=
  (∃ m ∈ l.inbound, m.waits l.acks l.now = true) →
    ∃ batch, l.outerBatch c = some batch ∧ ∃ m ∈ batch, m.waits l.acks l.now = true

/-- Some trigger that waits, if there is one, has fewer newer due rows than a prompt may hold. -/
def Loop.TriggerWithinReach (c : LoopConfig) (l : Loop) : Prop :=
  (∃ m ∈ l.inbound, m.waits l.acks l.now = true) →
    ∃ m ∈ l.inbound, m.waits l.acks l.now = true ∧ newerDue l.inbound l.now m < c.maxMessagesPerPrompt

/-- **A waiting trigger is taken exactly when one is within reach.** The sequence numbers are the table's
unique column. -/
theorem trigger_taken_iff (c : LoopConfig) (l : Loop) (hseq : (l.inbound.map (·.seq)).Nodup) :
    l.TriggerTaken c ↔ l.TriggerWithinReach c := by
  unfold Loop.TriggerTaken Loop.TriggerWithinReach Loop.outerBatch
  rw [outerBatch_trigger_iff hseq]

/-- A user's message in a group (`trigger`), or a message of the group that is kept as context. -/
def groupMessage (seq : ℕ) (trigger : Bool) : InboundRow :=
  { id := s!"om_{seq}", seq, kind := .chat, pending := true, processAfter := none, trigger
    platformId := some "oc_group", channelType := some "feishu", threadId := none
    raw := "", content := none, originUserId := none }

def defaultPrompt : LoopConfig := { maxMessagesPerPrompt := 10, routing := false }

/-- A user's message and nine messages of context: the message is taken. -/
theorem trigger_taken_behind_nine :
    (Loop.fresh (groupMessage 2 true :: (List.range 9).map fun i => groupMessage (2 * i + 4) false) [] 0).TriggerTaken
      defaultPrompt :=
  (trigger_taken_iff defaultPrompt _ (by decide)).mpr fun _ =>
    ⟨groupMessage 2 true, List.mem_cons_self, rfl, by decide⟩

/-- With ten messages of context behind it, it is not, and the loop waits. -/
theorem trigger_starved_behind_ten :
    ¬ (Loop.fresh (groupMessage 2 true :: (List.range 10).map fun i => groupMessage (2 * i + 4) false) [] 0).TriggerTaken
      defaultPrompt := by
  intro h
  obtain ⟨batch, hbatch, -⟩ := h ⟨groupMessage 2 true, List.mem_cons_self, rfl⟩
  have hnone : (Loop.fresh (groupMessage 2 true :: (List.range 10).map fun i => groupMessage (2 * i + 4) false)
      [] 0).outerBatch defaultPrompt = none := rfl
  rw [hnone] at hbatch
  cases hbatch

end AgentDesk
