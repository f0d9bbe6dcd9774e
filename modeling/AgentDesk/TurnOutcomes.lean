/-
# Output before acknowledgement

The loop acknowledges a claim at four places. The host takes an acknowledged
row for answered, so that each of them must come after the output of the turn
that took the row in: the answer to `/clear`, the delegation row, what a
result dispatches, the error rows. A process may be killed between any two
writes; what it leaves is a prefix of the journal.

Three of the places keep the order. The end of a turn does not when the
stream ended without a result; and a result acknowledges every prompt pushed
so far, also those its turn has not taken in.

* `AckAfterOutcome`: every acknowledged row of a turn has an outcome before.
* `loopStep_ack_iff`: the steps that keep it, exactly.
* `turn_outcomes_iff`: the runs that keep it, exactly.
* `silent_end_acknowledged`: a stream that ends without a result.
-/
import Mathlib.Data.List.TakeWhile
import AgentDesk.Journal
import AgentDesk.PollLoop
import AgentDesk.Trans

namespace AgentDesk

open Js

/-! ### Outcomes -/

/-- Is the write an output for the row? -/
def Act.answers (id : String) : Act → Prop
  | .cleared id' => id = id'
  | .delegated ids | .dispatched ids _ | .errorReply ids => id ∈ ids
  | _ => False

/-- An output of the row's turn is in the journal. -/
def HasOutcome (acts : List Act) (id : String) : Prop := ∃ a ∈ acts, a.answers id

/-- An acknowledgement is in order when every row of it has its output. A row whose pre-task script
does not wake the agent is taken in by no turn, and has none. -/
def AckOk (acts : List Act) : Act → Prop
  | .complete site ids => site ≠ .preTask → ∀ id ∈ ids, HasOutcome acts id
  | _ => True

/-- **Output before acknowledgement**, at every place of the journal. -/
def AckAfterOutcome (acts : List Act) : Prop :=
  ∀ pre site ids post, acts = pre ++ .complete site ids :: post → site ≠ .preTask →
    ∀ id ∈ ids, HasOutcome pre id

theorem ackAfterOutcome_iff {acts : List Act} : AckAfterOutcome acts ↔ Journal.Sound AckOk acts := by
  rw [Journal.sound_iff]
  constructor
  · intro h pre a post he
    cases a with
    | complete site ids => exact h pre site ids post he
    | _ => trivial
  · intro h pre site ids post he
    exact h pre (.complete site ids) post he

/-- What a crash leaves of the journal is in order if the journal is. -/
theorem AckAfterOutcome.take {acts : List Act} (h : AckAfterOutcome acts) (n : ℕ) :
    AckAfterOutcome (acts.take n) :=
  ackAfterOutcome_iff.mpr ((ackAfterOutcome_iff.mp h).take n)

theorem HasOutcome.append {acts : List Act} {id : String} (h : HasOutcome acts id) (new : List Act) :
    HasOutcome (acts ++ new) id := by
  obtain ⟨a, ha, hid⟩ := h
  exact ⟨a, List.mem_append_left _ ha, hid⟩

theorem hasOutcome_snoc {acts : List Act} {a : Act} {id : String} :
    HasOutcome (acts ++ [a]) id ↔ HasOutcome acts id ∨ a.answers id := by
  simp [HasOutcome, or_and_right, exists_or]

theorem ack_snoc {acts : List Act} {a : Act} :
    AckAfterOutcome (acts ++ [a]) ↔ AckAfterOutcome acts ∧ AckOk acts a := by
  rw [ackAfterOutcome_iff, ackAfterOutcome_iff, Journal.sound_snoc]

theorem ack_complete {acts : List Act} {site : AckSite} (hs : site ≠ .preTask) {ids : List String} :
    AckAfterOutcome (acts ++ [.complete site ids]) ↔
      AckAfterOutcome acts ∧ ∀ id ∈ ids, HasOutcome acts id := by
  rw [ack_snoc]
  exact and_congr_right' ⟨fun h => h hs, fun h _ => h⟩

/-- The writes that are never out of order. -/
def Act.free : Act → Prop
  | .complete site _ => site = .preTask
  | _ => True

theorem ack_free {acts : List Act} {a : Act} (ha : a.free) :
    AckAfterOutcome (acts ++ [a]) ↔ AckAfterOutcome acts := by
  rw [ack_snoc, and_iff_left]
  cases a with
  | complete site ids => exact fun hs => absurd ha hs
  | _ => trivial

theorem ack_cleared {acts : List Act} : ∀ ids : List String,
    AckAfterOutcome (acts ++ ids.map .cleared) ↔ AckAfterOutcome acts := by
  intro ids
  induction ids using List.reverseRecOn with
  | nil => simp
  | append_singleton ids id ih =>
    rw [List.map_append, List.map_singleton, ← List.append_assoc, ack_free (a := .cleared id) trivial, ih]

@[simp] theorem ack_claim {l : Loop} {ids : List String} :
    AckAfterOutcome (l.claim ids).acts ↔ AckAfterOutcome l.acts := ack_free (a := .claim ids) trivial

@[simp] theorem ack_release {l : Loop} {ids : List String} :
    AckAfterOutcome (l.release ids).acts ↔ AckAfterOutcome l.acts := ack_free (a := .release ids) trivial

@[simp] theorem ack_preTask {l : Loop} {ids : List String} :
    AckAfterOutcome (l.complete .preTask ids).acts ↔ AckAfterOutcome l.acts :=
  ack_free (a := .complete .preTask ids) rfl

@[simp] theorem ack_to {l : Loop} {phase : LoopPhase} :
    AckAfterOutcome (l.to phase).acts ↔ AckAfterOutcome l.acts := Iff.rfl

/-! ### The four places -/

theorem foldl_cleared (l : Loop) : ∀ ids : List String,
    (ids.foldl (fun l id => l.write (.cleared id)) l).acts = l.acts ++ ids.map .cleared
  | [] => by simp
  | id :: ids => by
    rw [List.foldl_cons, foldl_cleared (l.write (.cleared id)) ids]
    simp [Loop.write]

theorem ack_answerCommands {l : Loop} {turnMessages : List InboundRow} (h : AckAfterOutcome l.acts) :
    AckAfterOutcome (l.answerCommands turnMessages).acts := by
  unfold Loop.answerCommands
  simp only
  split
  · rw [ack_to, foldl_cleared, ack_cleared]
    exact h
  · rename_i hread
    have hall : turnMessages.takeWhile (fun r => (clearVerdict r).isSome) = turnMessages := by
      rw [List.takeWhile_eq_self_iff]
      intro r hr
      have hne : ¬ clearVerdict r = none := by simpa using fun hn => hread (List.any_eq_true.mpr ⟨r, hr, by simp [hn]⟩)
      exact Option.isSome_iff_ne_none.mpr hne
    have hacts : AckAfterOutcome ((((commandIds turnMessages).foldl
        (fun l id => l.write (.cleared id)) l).complete .command (commandIds turnMessages)).acts) := by
      simp only [Loop.complete, foldl_cleared, ack_complete (by decide : AckSite.command ≠ .preTask), ack_cleared]
      refine ⟨h, fun id hid => ⟨.cleared id, ?_, rfl⟩⟩
      exact List.mem_append_right _ (List.mem_map_of_mem hid)
    rw [hall]
    split
    · exact hacts
    · exact hacts

theorem ack_poll {c : LoopConfig} {l : Loop} (h : AckAfterOutcome l.acts) :
    AckAfterOutcome (l.poll c).acts := by
  unfold Loop.poll
  simp only
  split
  · exact h
  · split
    · exact h
    · split
      · simpa using h
      · exact ack_answerCommands (by simpa using h)

theorem ack_afterScripts {c : LoopConfig} {l : Loop} {turnMessages keep : List InboundRow}
    {skipped : List String} (h : AckAfterOutcome l.acts) :
    AckAfterOutcome (l.afterScripts c turnMessages keep skipped).acts := by
  have hp : AckAfterOutcome (l.complete .preTask skipped).acts := by simpa using h
  unfold Loop.afterScripts
  simp only
  split
  · exact hp
  · split
    · exact hp
    · exact hp

theorem ack_finishTurn {l : Loop} {t : Turn} :
    AckAfterOutcome (l.finishTurn t).acts ↔ AckAfterOutcome l.acts ∧
      (l.aborted = false → ∀ id ∈ t.processingIds, HasOutcome l.acts id) := by
  unfold Loop.finishTurn
  simp only
  split
  · rename_i ha
    simp [ha]
  · rename_i ha
    have hrun : l.aborted = false := by simpa using ha
    rw [ack_to]
    change AckAfterOutcome (l.acts ++ [.complete .turnTail t.processingIds]) ↔ _
    rw [ack_complete (by decide)]
    simp [hrun]

theorem ack_failTurn {l : Loop} {t : Turn} (h : AckAfterOutcome l.acts) :
    AckAfterOutcome (l.failTurn t).acts := by
  refine ack_finishTurn.mpr ⟨(ack_free (a := .errorReply _) trivial).mpr h, fun _ id hid => ?_⟩
  exact ⟨.errorReply t.processingIds, by simp [Loop.write], hid⟩

theorem ack_result {l : Loop} {t : Turn} {q : Query} {text : Option String} {answered : ℕ} :
    AckAfterOutcome (l.result t q text answered).acts ↔ AckAfterOutcome l.acts ∧
      ∀ id ∈ q.pendingAck, HasOutcome l.acts id ∨ id ∈ (q.prompts.take answered).flatten := by
  unfold Loop.result
  have hw : AckAfterOutcome (l.write (.dispatched (q.prompts.take answered).flatten text)).acts ↔
      AckAfterOutcome l.acts := ack_free (a := .dispatched _ text) trivial
  rw [ack_to]
  simp only [Loop.complete, ack_complete (by decide : AckSite.result ≠ .preTask), hw]
  simp only [Loop.write, hasOutcome_snoc, Act.answers]

theorem ack_tick {c : LoopConfig} {l : Loop} {t : Turn} {q : Query} (h : AckAfterOutcome l.acts) :
    AckAfterOutcome (l.tick c t q).acts := by
  unfold Loop.tick
  simp only
  split
  · exact h
  · split
    · exact h
    · split
      · split
        · exact h
        · exact h
      · split
        · exact h
        · simpa using h

theorem ack_push {l : Loop} {t : Turn} {q : Query} {keep : List InboundRow} (h : AckAfterOutcome l.acts) :
    AckAfterOutcome (l.push t q keep).acts := by
  unfold Loop.push
  simp only
  split
  · simpa using h
  · split
    · simpa using h
    · split
      · simpa using h
      · simpa using h

theorem settled_acts (tick : Tick) (l : Loop) : (Loop.tickScripts.settled tick l).acts = l.acts := by
  unfold Loop.tickScripts.settled
  split
  · split <;> rfl
  · rfl

theorem ack_tickScripts {l : Loop} {tick : Tick} {wakeAgent : String → Bool} (h : AckAfterOutcome l.acts) :
    AckAfterOutcome (l.tickScripts tick wakeAgent).acts := by
  unfold Loop.tickScripts
  split
  · rw [settled_acts]
    exact h
  · rename_i keep skipped _
    have hp : AckAfterOutcome (Loop.tickScripts.settled tick (l.complete .preTask skipped)).acts := by
      rw [settled_acts]
      simpa using h
    simp only
    split
    · exact hp
    · split
      · split
        · exact ack_push hp
        · simpa using hp
      · simpa using hp

/-! ### Steps and runs -/

/-- What the loop knows of a turn while it waits: its commands could be read, and it answers only
for rows it shows. -/
structure LoopInv (l : Loop) : Prop where
  readable : ∀ turnMessages, l.phase = .preTask turnMessages → ∀ r ∈ turnMessages, clearVerdict r ≠ none
  shown : ∀ t, l.phase = .routing t → ∀ id ∈ t.processingIds, id ∈ t.keep.map (·.id)

/-- The loop waits for neither scripts nor the routing phase. -/
def LoopPhase.plain : LoopPhase → Bool
  | .preTask _ | .routing _ => false
  | _ => true

theorem loopInv_plain {l : Loop} (h : l.phase.plain = true) : LoopInv l := by
  constructor
  · intro tm he
    rw [he] at h
    cases h
  · intro t he
    rw [he] at h
    cases h

theorem LoopInv.same {l l' : Loop} (h : LoopInv l) (he : l'.phase = l.phase) : LoopInv l' :=
  ⟨fun tm hp => h.readable tm (he ▸ hp), fun t hp => h.shown t (he ▸ hp)⟩

theorem loopInv_poll {c : LoopConfig} {l : Loop} (h : LoopInv l) : LoopInv (l.poll c) := by
  unfold Loop.poll
  simp only
  split
  · exact loopInv_plain rfl
  · split
    · exact h
    · split
      · exact h.same rfl
      · unfold Loop.answerCommands
        simp only
        split
        · exact loopInv_plain rfl
        · rename_i hread
          split
          · exact loopInv_plain rfl
          · refine ⟨fun tm hp r hr hn => ?_, fun t hp => by cases hp⟩
            obtain rfl := LoopPhase.preTask.inj hp
            exact hread (List.any_eq_true.mpr ⟨r, hr, by simp [hn]⟩)

theorem applyPreTaskScripts_mem {wakeAgent : String → Bool} {rows keep : List InboundRow}
    {skipped : List String} (h : applyPreTaskScripts wakeAgent rows = some (keep, skipped)) {r : InboundRow}
    (hr : r ∈ rows) (hs : r.id ∉ skipped) : r ∈ keep := by
  unfold applyPreTaskScripts at h
  split at h
  · cases h
  · obtain ⟨rfl, rfl⟩ := Prod.mk.inj (Option.some.inj h)
    refine List.mem_filter.mpr ⟨hr, ?_⟩
    by_contra hskip
    exact hs (List.mem_map_of_mem (List.mem_filter.mpr ⟨hr, by simpa using hskip⟩))

theorem loopInv_afterScripts {c : LoopConfig} {l : Loop} {turnMessages keep : List InboundRow}
    {skipped : List String} {wakeAgent : String → Bool}
    (hread : ∀ r ∈ turnMessages, clearVerdict r ≠ none)
    (h : applyPreTaskScripts wakeAgent (normalMessages turnMessages) = some (keep, skipped)) :
    LoopInv (l.afterScripts c turnMessages keep skipped) := by
  unfold Loop.afterScripts
  simp only
  split
  · exact loopInv_plain rfl
  · split
    · refine ⟨fun tm hp => (by cases hp), fun t hp id hid => ?_⟩
      obtain rfl := LoopPhase.routing.inj hp
      obtain ⟨hid, hout⟩ := List.mem_filter.mp hid
      obtain ⟨r, hr, rfl⟩ := List.mem_map.mp hid
      simp only [decide_not, Bool.and_eq_true, Bool.not_eq_true', decide_eq_false_iff_not] at hout
      have hnormal : r ∈ normalMessages turnMessages := by
        refine List.mem_filter.mpr ⟨hr, ?_⟩
        rcases hv : clearVerdict r with _ | b
        · exact absurd hv (hread r hr)
        · cases b with
          | false => simp
          | true => exact absurd (List.mem_map_of_mem (List.mem_filter.mpr ⟨hr, by simp [hv]⟩)) hout.1
      exact List.mem_map_of_mem (applyPreTaskScripts_mem h hnormal hout.2)
    · exact loopInv_plain rfl

theorem finishTurn_plain (l : Loop) (t : Turn) : (l.finishTurn t).phase.plain = true := by
  unfold Loop.finishTurn
  simp only
  split <;> rfl

theorem tick_plain {c : LoopConfig} {l : Loop} {t : Turn} {q : Query} (h : l.phase.plain = true) :
    (l.tick c t q).phase.plain = true := by
  unfold Loop.tick
  simp only
  split
  · exact h
  · split
    · rfl
    · split
      · split
        · exact h
        · rfl
      · split
        · exact h
        · rfl

theorem push_plain {l : Loop} {t : Turn} {q : Query} {keep : List InboundRow} (h : l.phase.plain = true) :
    (l.push t q keep).phase.plain = true := by
  unfold Loop.push
  simp only
  split
  · exact h
  · split
    · rfl
    · split
      · exact h
      · rfl

theorem settled_inv {tick : Tick} {l : Loop} (h : LoopInv l) : LoopInv (Loop.tickScripts.settled tick l) := by
  unfold Loop.tickScripts.settled
  split
  · split
    · exact loopInv_plain rfl
    · exact h
  · exact h

theorem loopInv_tickScripts {l : Loop} {tick : Tick} {wakeAgent : String → Bool} (h : LoopInv l) :
    LoopInv (l.tickScripts tick wakeAgent) := by
  unfold Loop.tickScripts
  split
  · exact settled_inv h
  · rename_i keep skipped _
    have hp : LoopInv (Loop.tickScripts.settled tick (l.complete .preTask skipped)) :=
      settled_inv (h.same rfl)
    simp only
    split
    · exact hp
    · split
      · rename_i t q hq
        split
        · exact loopInv_plain (push_plain (by rw [hq]; rfl))
        · exact hp.same rfl
      · exact hp.same rfl

theorem loopInv_step (c : LoopConfig) (l : Loop) (e : LoopEvent) (l' : Loop) (h : LoopInv l)
    (hs : loopStep c l e = some l') : LoopInv l' := by
  cases loopStep_move hs with
  | host | clock | abort => exact h.same rfl
  | kill | start | scriptsThrow | delegate | execute | result | retry => exact loopInv_plain rfl
  | poll => exact loopInv_poll h
  | scripts wakeAgent hp ha => exact loopInv_afterScripts (h.readable _ hp) ha
  | routeThrows | streamEnd | streamThrow => exact loopInv_plain (finishTurn_plain _ _)
  | other => exact h
  | tick hp => exact loopInv_plain (tick_plain (by rw [hp]; rfl))
  | tickScripts => exact loopInv_tickScripts (h.same rfl)

/-- The event does not acknowledge ahead of the provider: a result comes when every row claimed for
the stream is in a prompt it answers, or has its outcome; and a stream ends, unless the loop is
aborted, when the rows of its turn have theirs. -/
def Answers (l : Loop) : LoopEvent → Prop
  | .provider (.result _ answered) => ∀ t q, l.phase = .streaming t q →
      ∀ id ∈ q.pendingAck, HasOutcome l.acts id ∨ id ∈ (q.prompts.take answered).flatten
  | .streamEnd => ∀ t q, l.phase = .streaming t q → l.aborted = false →
      ∀ id ∈ t.processingIds, HasOutcome l.acts id
  | _ => True

/-- **The steps that keep output before acknowledgement, exactly.** -/
theorem loopStep_ack_iff (c : LoopConfig) (l : Loop) (e : LoopEvent) (l' : Loop) (hi : LoopInv l)
    (h : AckAfterOutcome l.acts) (hs : loopStep c l e = some l') :
    AckAfterOutcome l'.acts ↔ Answers l e := by
  cases loopStep_move hs with
  | host | clock | abort | kill | start | scriptsThrow | execute | other | retry =>
    exact iff_of_true h trivial
  | poll => exact iff_of_true (ack_poll h) trivial
  | scripts => exact iff_of_true (ack_afterScripts h) trivial
  | routeThrows | streamThrow => exact iff_of_true (ack_failTurn h) trivial
  | tick => exact iff_of_true (ack_tick h) trivial
  | tickScripts => exact iff_of_true (ack_tickScripts h) trivial
  | @delegate t hp =>
    refine iff_of_true ?_ trivial
    change AckAfterOutcome (l.acts ++ [_] ++ [.complete .delegation t.processingIds])
    rw [ack_complete (by decide), ack_free (a := .delegated _) trivial]
    refine ⟨h, fun id hid => ⟨_, List.mem_append_right _ (List.mem_singleton_self _), ?_⟩⟩
    exact hi.shown t hp id hid
  | @result t q text answered hp =>
    rw [ack_result, and_iff_right h]
    refine ⟨fun ha t' q' hp' => ?_, fun ha => ha t q hp⟩
    obtain ⟨rfl, rfl⟩ := LoopPhase.streaming.inj (hp.symm.trans hp')
    exact ha
  | @streamEnd t q hp =>
    rw [ack_finishTurn, and_iff_right h]
    refine ⟨fun ha t' q' hp' => ?_, fun ha => ha t q hp⟩
    obtain ⟨rfl, rfl⟩ := LoopPhase.streaming.inj (hp.symm.trans hp')
    exact ha

/-- **The runs that keep output before acknowledgement, exactly.** From any databases, in every
order of provider events, ticks, scripts, host writes, aborts, kills and restarts: in every state
of the run, and in what a crash inside its last step leaves, every acknowledged row of a turn has
an output of its turn written before, if and only if every step of the run meets `Answers`. -/
theorem turn_outcomes_iff {c : LoopConfig} {inbound : List InboundRow} {acks : List AckRow} {now : ℕ}
    {es : List LoopEvent} {l : Loop} (hr : Trans.run (loopStep c) (Loop.fresh inbound acks now) es = some l) :
    Trans.Always (loopStep c) (fun l => ∀ n, AckAfterOutcome (l.acts.take n)) (Loop.fresh inbound acks now) es ↔
      Trans.Along (loopStep c) Answers (Loop.fresh inbound acks now) es := by
  have htake : ∀ l : Loop, (∀ n, AckAfterOutcome (l.acts.take n)) ↔ AckAfterOutcome l.acts := by
    refine fun l => ⟨fun h => ?_, fun h n => h.take n⟩
    have := h l.acts.length
    rwa [List.take_length] at this
  simp only [htake]
  refine Trans.always_iff_along (loopInv_step c) (loopStep_ack_iff c) (loopInv_plain rfl) ?_ hr
  intro pre site ids post he
  exact absurd he (by simp [Loop.fresh])

/-! ### The defect -/

/-- A chat trigger of one user. -/
def sampleTrigger : InboundRow :=
  { id := "m1", seq := 2, kind := .chat, pending := true, processAfter := none, trigger := true
    platformId := some "oc_1", channelType := some "feishu", threadId := none, raw := ""
    content := some (.obj [("senderId", .str "ou_u"), ("text", .str "book it")]), originUserId := none }

def sampleLoopConfig : LoopConfig := ⟨10, false⟩

/-- A turn that ends with its result: the reply is dispatched, then the row acknowledged. -/
theorem turn_outcomes_iff_sample :
    ∃ l, Trans.run (loopStep sampleLoopConfig) (Loop.fresh [sampleTrigger] [] 0)
        [.start, .poll, .scripts fun _ => true, .provider (.result (some "done") 1), .streamEnd] = some l ∧
      (∃ a ∈ l.acks, a.messageId = "m1" ∧ a.status = .completed) ∧
      (Trans.Always (loopStep sampleLoopConfig) (fun l => ∀ n, AckAfterOutcome (l.acts.take n))
          (Loop.fresh [sampleTrigger] [] 0)
          [.start, .poll, .scripts fun _ => true, .provider (.result (some "done") 1), .streamEnd] ↔
        Trans.Along (loopStep sampleLoopConfig) Answers (Loop.fresh [sampleTrigger] [] 0)
          [.start, .poll, .scripts fun _ => true, .provider (.result (some "done") 1), .streamEnd]) := by
  have hrun : Trans.run (loopStep sampleLoopConfig) (Loop.fresh [sampleTrigger] [] 0)
      [.start, .poll, .scripts fun _ => true, .provider (.result (some "done") 1), .streamEnd] = some _ := rfl
  exact ⟨_, hrun, ⟨_, List.mem_singleton_self _, rfl, rfl⟩, turn_outcomes_iff hrun⟩

/-- The stream of the turn ends without a result. The row is acknowledged, and nothing was written
for it. -/
theorem silent_end_acknowledged :
    ∃ l, Trans.run (loopStep sampleLoopConfig) (Loop.fresh [sampleTrigger] [] 0)
        [.start, .poll, .scripts fun _ => true, .streamEnd] = some l ∧
      (∃ a ∈ l.acks, a.messageId = "m1" ∧ a.status = .completed) ∧
      ¬ HasOutcome l.acts "m1" ∧ ¬ AckAfterOutcome l.acts := by
  have hrun : Trans.run (loopStep sampleLoopConfig) (Loop.fresh [sampleTrigger] [] 0)
      [.start, .poll, .scripts fun _ => true, .streamEnd] = some _ := rfl
  have hsilent : ¬ HasOutcome [.claim ["m1"], .release [], .complete .command [], .complete .preTask [],
      .complete .turnTail ["m1"]] "m1" := by
    simp [HasOutcome, Act.answers]
  refine ⟨_, hrun, ⟨_, List.mem_singleton_self _, rfl, rfl⟩, hsilent, fun h => ?_⟩
  have hbefore := h [.claim ["m1"], .release [], .complete .command [], .complete .preTask []] .turnTail
    ["m1"] [] rfl (by decide) "m1" (by simp)
  exact hsilent (hbefore.append _)

end AgentDesk
