/-
# Claims that outlive their turn

A warm container does not see a row again that has a claim of its own, so that every claim it takes has
to be completed or given back. The batch of a turn is: by its commands, its scripts, its delegation or the
end of the turn. A follow-up that a timer tick claimed is in one of three places: its tick still waits for
a pre-task script; it was pushed into the stream, and the next result acknowledges it; or the stream ended
or threw before that result, and the row is left for the host, which sees it when the container is gone.

A tick that throws once it has claimed its rows leaves them in none of these places.

* `accounted_step`: where every claim is, kept by every step whose tick does not throw.
* `claims_at_top`: what is still claimed when the loop is at its top.
* `tick_settles`: a tick that comes back after its stream is gone keeps none of its claims.
-/
import AgentDesk.DueTriggers
import AgentDesk.TurnOutcomes

namespace AgentDesk

open Js

/-! ### Claims -/

/-- The row is in status `processing`. -/
def Claimed (acks : List AckRow) (id : String) : Prop := ∃ a ∈ acks, a.messageId = id ∧ a.status = .processing

variable {acks : List AckRow} {claims : List String} {id : String} {now : ℕ}

theorem mem_markAll {status : AckStatus} {a : AckRow} (h : a ∈ markAll status now acks claims) :
    (a ∈ acks ∧ a.messageId ∉ claims) ∨ (a.messageId ∈ claims ∧ a.status = status) := by
  unfold markAll at h
  induction claims generalizing acks with
  | nil => exact .inl ⟨h, List.not_mem_nil⟩
  | cons id claims ih =>
    rw [List.foldl_cons] at h
    rcases ih h with ⟨hmem, hout⟩ | ⟨hin, hstatus⟩
    · unfold Table.upsert at hmem
      split at hmem
      · rw [Table.update_eq] at hmem
        obtain ⟨r, hr, rfl⟩ := List.mem_map.mp hmem
        by_cases hid : r.messageId = id
        · rw [if_pos (by simpa using hid)]
          exact .inr ⟨List.mem_cons_self, rfl⟩
        · rw [if_neg (by simpa using hid)] at hout ⊢
          exact .inl ⟨hr, by simp [hid, hout]⟩
      · rename_i hnew
        rcases List.mem_append.mp hmem with hold | hnewest
        · have hid : a.messageId ≠ id := Table.find_none (by simpa using hnew) a hold
          exact .inl ⟨hold, by simp [hid, hout]⟩
        · obtain rfl := List.mem_singleton.mp hnewest
          exact .inr ⟨List.mem_cons_self, rfl⟩
    · exact .inr ⟨List.mem_cons_of_mem _ hin, hstatus⟩

theorem claimed_markProcessing (h : Claimed (markProcessing now acks claims) id) : id ∈ claims ∨ Claimed acks id := by
  obtain ⟨a, ha, rfl, hstatus⟩ := h
  rcases mem_markAll ha with ⟨hold, -⟩ | ⟨hin, -⟩
  · exact .inr ⟨a, hold, rfl, hstatus⟩
  · exact .inl hin

theorem claimed_markCompleted (h : Claimed (markCompleted now acks claims) id) : Claimed acks id ∧ id ∉ claims := by
  obtain ⟨a, ha, rfl, hstatus⟩ := h
  rcases mem_markAll ha with ⟨hold, hout⟩ | ⟨-, hdone⟩
  · exact ⟨⟨a, hold, rfl, hstatus⟩, hout⟩
  · rw [hdone] at hstatus
    cases hstatus

theorem claimed_releaseProcessing (h : Claimed (releaseProcessing acks claims) id) : Claimed acks id ∧ id ∉ claims := by
  obtain ⟨a, ha, rfl, hstatus⟩ := h
  unfold releaseProcessing at ha
  obtain ⟨hold, hout⟩ := List.mem_filter.mp ha
  exact ⟨⟨a, hold, rfl, hstatus⟩, by simpa using hout⟩

theorem not_claimed_clearStale : ¬ Claimed (clearStaleProcessingAcks acks) id := by
  rintro ⟨a, ha, -, hstatus⟩
  have hnot := (List.mem_filter.mp ha).2
  simp [hstatus] at hnot

/-! ### Where a claim is -/

def Tick.ids (tick : Tick) : List String := tick.rows.map (·.id)

/-- The rows the loop itself answers for in a phase. -/
def Held : LoopPhase → String → Prop
  | .stopped, _ => True
  | .polling, _ => False
  | .preTask turnMessages, id => id ∈ turnMessages.map (·.id) ∧ id ∉ commandIds turnMessages
  | .routing t, id => id ∈ t.processingIds
  | .streaming _ q, id => id ∈ q.pendingAck

/-- A row that a stream has left over, or that a tick under way answers for. -/
def Elsewhere (left : List String) (ticks : List Tick) (id : String) : Prop :=
  id ∈ left ∨ ∃ tick ∈ ticks, id ∈ tick.ids

/-- Every claim is the loop's own, a tick's, or left over by a stream. -/
def Accounted (left : List String) (l : Loop) : Prop :=
  ∀ id, Claimed l.acks id → Elsewhere left l.ticks id ∨ Held l.phase id

/-- What a stream leaves over as it ends: rows that were pushed into it and wait for a result. -/
def leftOver (l : Loop) (e : LoopEvent) : List String :=
  match l.phase, e with
  | .streaming t q, .streamEnd | .streaming t q, .streamThrow _ => q.pendingAck.filter (· ∉ t.processingIds)
  | _, _ => []

/-- Formatting throws for a follow-up that would be pushed. -/
def Loop.pushThrows (l : Loop) (keep : List InboundRow) : Bool :=
  let split := splitBatchByTurn keep
  !shouldEndForTurnChange l.identity (resolveBatchIdentity split.1) && split.1.any formatThrows

/-- The tick throws after it has claimed its rows. -/
def Loop.tickThrows (l : Loop) (tick : Tick) (wakeAgent : String → Bool) : Bool :=
  match applyPreTaskScripts wakeAgent tick.rows with
  | none => true
  | some (keep, _) => match l.phase with
    | .streaming _ q => q.number = tick.query && l.pushThrows keep
    | _ => false

/-! ### The loop with what its streams left over -/

/-- A container, and what its streams have left over since it started. -/
structure Warm where
  loop : Loop
  left : List String

def warmStep (c : LoopConfig) (w : Warm) (e : LoopEvent) : Option Warm :=
  (loopStep c w.loop e).map fun l =>
    { loop := l
      left := match e with
        | .start => []
        | e => w.left ++ leftOver w.loop e }

/-- No tick throws once it has claimed its rows. -/
def TickReturns (w : Warm) (e : LoopEvent) : Prop :=
  ∀ i wakeAgent, e = .tickScripts i wakeAgent → ∀ tick, w.loop.ticks[i]? = some tick →
    w.loop.tickThrows tick wakeAgent = false

variable {c : LoopConfig} {l l' : Loop} {e : LoopEvent} {t : Turn} {q : Query} {left : List String}

/-! ### What each piece of the loop does with the claims -/

theorem Elsewhere.mono {left' : List String} {ticks ticks' : List Tick} (h : Elsewhere left ticks id)
    (hleft : left ⊆ left') (hticks : ticks ⊆ ticks') : Elsewhere left' ticks' id := by
  rcases h with h | ⟨tick, htick, hid⟩
  · exact .inl (hleft h)
  · exact .inr ⟨tick, hticks htick, hid⟩

theorem mem_normalMessages_of_not_command {turnMessages : List InboundRow}
    (hread : ∀ r ∈ turnMessages, clearVerdict r ≠ none) (hid : id ∈ turnMessages.map (·.id))
    (hcommand : id ∉ commandIds turnMessages) : ∃ r ∈ normalMessages turnMessages, r.id = id := by
  obtain ⟨r, hr, rfl⟩ := List.mem_map.mp hid
  refine ⟨r, List.mem_filter.mpr ⟨hr, ?_⟩, rfl⟩
  rcases hv : clearVerdict r with _ | b
  · exact absurd hv (hread r hr)
  · cases b with
    | false => simp
    | true => exact absurd (List.mem_map_of_mem (List.mem_filter.mpr ⟨hr, by simp [hv]⟩)) hcommand

theorem cleared_same (ids : List String) (l : Loop) :
    (ids.foldl (fun l id => l.write (.cleared id)) l).acks = l.acks ∧
      (ids.foldl (fun l id => l.write (.cleared id)) l).ticks = l.ticks ∧
      (ids.foldl (fun l id => l.write (.cleared id)) l).now = l.now := by
  induction ids generalizing l with
  | nil => exact ⟨rfl, rfl, rfl⟩
  | cons id ids ih => exact ih (l.write (.cleared id))

theorem accounted_answerCommands {turnMessages : List InboundRow}
    (h : ∀ id, Claimed l.acks id → Elsewhere left l.ticks id ∨ id ∈ turnMessages.map (·.id)) :
    Accounted left (l.answerCommands turnMessages) := by
  obtain ⟨hacks, hticks, hnow⟩ := cleared_same (commandIds (turnMessages.takeWhile fun r => (clearVerdict r).isSome)) l
  unfold Loop.answerCommands
  dsimp only
  split
  · exact fun id _ => .inr trivial
  rename_i hsome
  have hread : ∀ r ∈ turnMessages, clearVerdict r ≠ none := by
    intro r hr hnone
    exact hsome (List.any_eq_true.mpr ⟨r, hr, by simp [hnone]⟩)
  have hcompleted : ∀ id, Claimed (markCompleted l.now l.acks (commandIds turnMessages)) id →
      Elsewhere left l.ticks id ∨ (id ∈ turnMessages.map (·.id) ∧ id ∉ commandIds turnMessages) := by
    intro id hclaim
    obtain ⟨hold, hcommand⟩ := claimed_markCompleted hclaim
    exact (h id hold).imp_right fun hid => ⟨hid, hcommand⟩
  split
  all_goals
    intro id hclaim
    simp only [Loop.to, Loop.complete, hacks, hticks, hnow] at hclaim ⊢
  · rename_i hnormal
    refine (hcompleted id hclaim).imp_right fun hleft => ?_
    obtain ⟨hid, hcommand⟩ := hleft
    obtain ⟨r, hr, -⟩ := mem_normalMessages_of_not_command hread hid hcommand
    rw [hnormal] at hr
    exact absurd hr List.not_mem_nil
  · exact hcompleted id hclaim

theorem accounted_poll (hp : l.phase = .polling) (h : Accounted left l) : Accounted left (l.poll c) := by
  unfold Loop.poll
  dsimp only
  split
  · exact fun id _ => .inr trivial
  split
  · exact h
  generalize hbatch : (splitBatchByTrigger ((getPendingMessages l.inbound l.acks c.maxMessagesPerPrompt
    l.now).filter fun m => m.kind ≠ .system)).1 = batch
  have hclaims : ∀ id, Claimed ((l.claim (batch.map (·.id))).release ((splitBatchByTurn batch).2.map (·.id))).acks id →
      Elsewhere left l.ticks id ∨ id ∈ (splitBatchByTurn batch).1.map (·.id) := by
    intro id hclaim
    obtain ⟨hclaim, hdeferred⟩ := claimed_releaseProcessing hclaim
    rcases claimed_markProcessing hclaim with hnew | hold
    · obtain ⟨r, hr, rfl⟩ := List.mem_map.mp hnew
      by_cases hrides : ridesWith (resolveBatchIdentity batch) r = true
      · exact .inr (List.mem_map_of_mem (List.mem_filter.mpr ⟨hr, hrides⟩))
      · exact absurd (List.mem_map_of_mem (List.mem_filter.mpr ⟨hr, by simpa using hrides⟩)) hdeferred
    · refine .inl ((h id hold).resolve_right fun hheld => ?_)
      rw [hp] at hheld
      exact hheld
  split
  · rename_i hnone
    intro id hclaim
    refine .inl ((hclaims id hclaim).resolve_right fun hid => ?_)
    rw [hnone] at hid
    exact List.not_mem_nil hid
  · exact accounted_answerCommands hclaims

theorem accounted_afterScripts {turnMessages keep : List InboundRow} {skipped : List String}
    {wakeAgent : String → Bool} (hp : l.phase = .preTask turnMessages)
    (hread : ∀ r ∈ turnMessages, clearVerdict r ≠ none)
    (ha : applyPreTaskScripts wakeAgent (normalMessages turnMessages) = some (keep, skipped))
    (h : Accounted left l) : Accounted left (l.afterScripts c turnMessages keep skipped) := by
  have hclaims : ∀ id, Claimed (markCompleted l.now l.acks skipped) id → Elsewhere left l.ticks id ∨
      ((id ∈ turnMessages.map (·.id) ∧ id ∉ commandIds turnMessages) ∧ id ∉ skipped) := by
    intro id hclaim
    obtain ⟨hold, hskip⟩ := claimed_markCompleted hclaim
    have hheld := h id hold
    rw [hp] at hheld
    exact hheld.imp_right fun hh => ⟨hh, hskip⟩
  have hprocessing : ∀ id, Claimed (markCompleted l.now l.acks skipped) id → Elsewhere left l.ticks id ∨
      id ∈ (turnMessages.map (·.id)).filter fun id => id ∉ commandIds turnMessages && id ∉ skipped := by
    intro id hclaim
    refine (hclaims id hclaim).imp_right fun ⟨⟨hid, hcommand⟩, hskip⟩ => ?_
    exact List.mem_filter.mpr ⟨hid, by simp [hcommand, hskip]⟩
  unfold Loop.afterScripts
  dsimp only
  split
  · rename_i hnone
    intro id hclaim
    refine .inl ((hclaims id hclaim).resolve_right fun ⟨⟨hid, hcommand⟩, hskip⟩ => ?_)
    obtain ⟨r, hr, rfl⟩ := mem_normalMessages_of_not_command hread hid hcommand
    have hkeep := applyPreTaskScripts_mem ha hr hskip
    rw [hnone] at hkeep
    exact List.not_mem_nil hkeep
  split
  · exact hprocessing
  · exact hprocessing

theorem accounted_finishTurn (h : ∀ id, Claimed l.acks id → Elsewhere left l.ticks id ∨ id ∈ t.processingIds) :
    Accounted left (l.finishTurn t) := by
  unfold Loop.finishTurn
  dsimp only
  split
  · exact fun id _ => .inr trivial
  · intro id hclaim
    obtain ⟨hold, hdone⟩ := claimed_markCompleted hclaim
    exact .inl ((h id hold).resolve_right hdone)

theorem accounted_result {text : Option String} {answered : ℕ} (hp : l.phase = .streaming t q)
    (h : Accounted left l) : Accounted left (l.result t q text answered) := by
  intro id hclaim
  obtain ⟨hold, hdone⟩ := claimed_markCompleted hclaim
  have hheld := h id hold
  rw [hp] at hheld
  exact .inl (hheld.resolve_right hdone)

theorem accounted_tick (hp : l.phase = .streaming t q) (h : Accounted left l) : Accounted left (l.tick c t q) := by
  have hheld : ∀ id, Claimed l.acks id → Elsewhere left l.ticks id ∨ id ∈ q.pendingAck := by
    intro id hclaim
    have := h id hclaim
    rwa [hp] at this
  unfold Loop.tick
  dsimp only
  split
  · exact h
  split
  · exact hheld
  split
  · split
    · exact h
    · exact hheld
  split
  · exact h
  · intro id hclaim
    rcases claimed_markProcessing hclaim with hnew | hold
    · exact .inl (.inr ⟨_, List.mem_append_right _ List.mem_cons_self, hnew⟩)
    · exact (hheld id hold).imp_left fun helse => helse.mono (List.Subset.refl _) (List.subset_append_left _ _)

/-! ### A tick that comes back -/

theorem settled_same (tick : Tick) (l : Loop) :
    (Loop.tickScripts.settled tick l).acks = l.acks ∧ (Loop.tickScripts.settled tick l).ticks = l.ticks ∧
      (Loop.tickScripts.settled tick l).identity = l.identity ∧
      (Held (Loop.tickScripts.settled tick l).phase = Held l.phase) ∧
      ∀ t q, (Loop.tickScripts.settled tick l).phase = .streaming t q →
        ∃ q₀, l.phase = .streaming t q₀ ∧ q₀.number = q.number := by
  unfold Loop.tickScripts.settled
  split
  · rename_i t q hp
    split
    · refine ⟨rfl, rfl, rfl, ?_, fun t' q' hp' => ?_⟩
      · rw [hp]
        rfl
      · obtain ⟨rfl, rfl⟩ := LoopPhase.streaming.inj hp'
        exact ⟨q, hp, rfl⟩
    · exact ⟨rfl, rfl, rfl, rfl, fun t' q' hp' => ⟨q', hp', rfl⟩⟩
  · exact ⟨rfl, rfl, rfl, rfl, fun t' q' hp' => ⟨q', hp', rfl⟩⟩

theorem mem_keep_of_not_skipped {tick : Tick} {keep : List InboundRow} {skipped : List String}
    {wakeAgent : String → Bool} (ha : applyPreTaskScripts wakeAgent tick.rows = some (keep, skipped))
    (hid : id ∈ tick.ids) (hskip : id ∉ skipped) : id ∈ keep.map (·.id) := by
  obtain ⟨r, hr, rfl⟩ := List.mem_map.mp hid
  exact List.mem_map_of_mem (applyPreTaskScripts_mem ha hr hskip)

theorem accounted_push {keep : List InboundRow} (hp : l.phase = .streaming t q) (hcalm : l.pushThrows keep = false)
    (h : ∀ id, Claimed l.acks id → Elsewhere left l.ticks id ∨ id ∈ keep.map (·.id) ∨ id ∈ q.pendingAck) :
    Accounted left (l.push t q keep) := by
  have hreleased : ∀ id, Claimed (releaseProcessing l.acks ((splitBatchByTurn keep).2.map (·.id))) id →
      Elsewhere left l.ticks id ∨ id ∈ (splitBatchByTurn keep).1.map (·.id) ∨ id ∈ q.pendingAck := by
    intro id hclaim
    obtain ⟨hold, hdeferred⟩ := claimed_releaseProcessing hclaim
    refine (h id hold).imp_right (Or.imp_left fun hid => ?_)
    obtain ⟨r, hr, rfl⟩ := List.mem_map.mp hid
    by_cases hrides : ridesWith (resolveBatchIdentity keep) r = true
    · exact List.mem_map_of_mem (List.mem_filter.mpr ⟨hr, hrides⟩)
    · exact absurd (List.mem_map_of_mem (List.mem_filter.mpr ⟨hr, by simpa using hrides⟩)) hdeferred
  unfold Loop.push
  dsimp only
  split
  · rename_i hnone
    intro id hclaim
    have hheld := hreleased id hclaim
    rw [hnone] at hheld
    have hphase : Held (l.release ((splitBatchByTurn keep).2.map (·.id))).phase id ↔ id ∈ q.pendingAck := by
      show Held l.phase id ↔ _
      rw [hp]
      rfl
    rw [hphase]
    exact hheld.imp_right fun hid => hid.resolve_left List.not_mem_nil
  rename_i hsome
  split
  · intro id hclaim
    obtain ⟨hold, hkept⟩ := claimed_releaseProcessing hclaim
    exact (hreleased id hold).imp_right fun hid => hid.resolve_left hkept
  rename_i hsurface
  split
  · rename_i hthrows
    unfold Loop.pushThrows at hcalm
    simp only [Loop.release] at hsurface
    simp [hsurface, hthrows] at hcalm
  · intro id hclaim
    exact (hreleased id hclaim).imp_right fun hid => mem_insertAll.mpr hid.symm

theorem accounted_tickScripts {tick : Tick} {wakeAgent : String → Bool}
    (hcalm : l.tickThrows tick wakeAgent = false)
    (h : ∀ id, Claimed l.acks id → Elsewhere left l.ticks id ∨ id ∈ tick.ids ∨ Held l.phase id) :
    Accounted left (l.tickScripts tick wakeAgent) := by
  unfold Loop.tickThrows at hcalm
  unfold Loop.tickScripts
  split
  · rename_i hnone
    rw [hnone] at hcalm
    cases hcalm
  rename_i keep skipped ha
  rw [ha] at hcalm
  obtain ⟨hacks, hticks, hidentity, hheld, hnumber⟩ := settled_same tick (l.complete .preTask skipped)
  dsimp only at hcalm ⊢
  generalize hl₁ : Loop.tickScripts.settled tick (l.complete .preTask skipped) = l₁
    at hacks hticks hidentity hheld hnumber ⊢
  have hclaims : ∀ id, Claimed l₁.acks id →
      Elsewhere left l₁.ticks id ∨ id ∈ keep.map (·.id) ∨ Held l₁.phase id := by
    intro id hclaim
    rw [hacks] at hclaim
    obtain ⟨hold, hskip⟩ := claimed_markCompleted hclaim
    rw [hticks, hheld]
    exact (h id hold).imp_right (Or.imp_left fun hid => mem_keep_of_not_skipped ha hid hskip)
  have hrelease : Accounted left (l₁.release (keep.map (·.id))) := by
    intro id hclaim
    obtain ⟨hold, hkept⟩ := claimed_releaseProcessing hclaim
    exact (hclaims id hold).imp_right fun hid => hid.resolve_left hkept
  split
  · rename_i hnone
    intro id hclaim
    have hid := hclaims id hclaim
    rw [hnone] at hid
    exact hid.imp_right fun hid => hid.resolve_left List.not_mem_nil
  split
  · rename_i t q hp
    split
    · rename_i hown
      obtain ⟨q₀, hp₀, hq₀⟩ := hnumber t q hp
      have hthrows : l₁.pushThrows keep = false := by
        rw [show l.phase = .streaming t q₀ from hp₀] at hcalm
        dsimp only at hcalm
        rw [hq₀, hown, decide_eq_true rfl, Bool.true_and] at hcalm
        unfold Loop.pushThrows at hcalm ⊢
        rw [hidentity]
        exact hcalm
      refine accounted_push hp hthrows fun id hclaim => ?_
      have hid := hclaims id hclaim
      rw [hp] at hid
      exact hid
    · exact hrelease
  · exact hrelease

/-- **A tick that comes back after its stream is gone keeps no claim**, unless it throws. -/
theorem tick_settles {tick : Tick} {wakeAgent : String → Bool}
    (hgone : ∀ t q, l.phase = .streaming t q → q.number ≠ tick.query)
    (hcalm : l.tickThrows tick wakeAgent = false) :
    ∀ id ∈ tick.ids, ¬ Claimed (l.tickScripts tick wakeAgent).acks id := by
  intro id hid
  unfold Loop.tickThrows at hcalm
  unfold Loop.tickScripts
  split
  · rename_i hnone
    rw [hnone] at hcalm
    cases hcalm
  rename_i keep skipped ha
  obtain ⟨hacks, -, -, -, hnumber⟩ := settled_same tick (l.complete .preTask skipped)
  dsimp only
  generalize hl₁ : Loop.tickScripts.settled tick (l.complete .preTask skipped) = l₁ at hacks hnumber ⊢
  have hkeep : Claimed l₁.acks id → id ∈ keep.map (·.id) := by
    intro hclaim
    rw [hacks] at hclaim
    exact mem_keep_of_not_skipped ha hid (claimed_markCompleted hclaim).2
  have hrelease : ¬ Claimed (l₁.release (keep.map (·.id))).acks id := by
    intro hclaim
    obtain ⟨hold, hkept⟩ := claimed_releaseProcessing hclaim
    exact hkept (hkeep hold)
  split
  · rename_i hnone
    intro hclaim
    have hmem := hkeep hclaim
    rw [hnone] at hmem
    exact List.not_mem_nil hmem
  split
  · rename_i t q hp
    obtain ⟨q₀, hp₀, hq₀⟩ := hnumber t q hp
    rw [if_neg (hq₀ ▸ hgone t q₀ hp₀)]
    exact hrelease
  · exact hrelease

/-! ### Every run -/

theorem startQuery_accounted (h : ∀ id, Claimed l.acks id → Elsewhere left l.ticks id ∨ id ∈ t.processingIds)
    {retried : Bool} : Accounted left (l.startQuery { t with retried }) := h

theorem left_of_stream (hp : l.phase = .streaming t q)
    (he : leftOver l e = q.pendingAck.filter (· ∉ t.processingIds)) (h : Accounted left l) :
    ∀ id, Claimed l.acks id → Elsewhere (left ++ leftOver l e) l.ticks id ∨ id ∈ t.processingIds := by
  intro id hclaim
  have hheld := h id hclaim
  rw [hp] at hheld
  rcases hheld with helse | hpending
  · exact .inl (helse.mono (List.subset_append_left _ _) (List.Subset.refl _))
  · by_cases hturn : id ∈ t.processingIds
    · exact .inr hturn
    · refine .inl (.inl (List.mem_append_right _ ?_))
      rw [he]
      exact List.mem_filter.mpr ⟨hpending, by simpa using hturn⟩

theorem Accounted.append (h : Accounted left l) (more : List String) : Accounted (left ++ more) l :=
  fun id hclaim => (h id hclaim).imp_left fun helse =>
    helse.mono (List.subset_append_left _ _) (List.Subset.refl _)

/-- What a claim needs of the state: that it is accounted for, and that the turn's commands could be read. -/
def WarmInv (w : Warm) : Prop := Accounted w.left w.loop ∧ LoopInv w.loop

theorem accounted_move (h : Accounted left l) (hinv : LoopInv l) (hs : loopStep c l e = some l')
    (hcalm : ∀ i wakeAgent, e = .tickScripts i wakeAgent → ∀ tick, l.ticks[i]? = some tick →
      l.tickThrows tick wakeAgent = false) : Accounted (left ++ leftOver l e) l' := by
  cases loopStep_move hs with
  | start => exact fun id hclaim => absurd hclaim not_claimed_clearStale
  | host | clock | abort | other => exact h.append _
  | kill => exact fun id _ => .inr trivial
  | scriptsThrow => exact fun id _ => .inr trivial
  | poll hp => exact (accounted_poll hp h).append _
  | scripts wakeAgent hp ha => exact (accounted_afterScripts hp (hinv.readable _ hp) ha h).append _
  | @delegate t hp =>
    intro id hclaim
    obtain ⟨hold, hdone⟩ := claimed_markCompleted hclaim
    have hheld := h id hold
    rw [hp] at hheld
    exact .inl ((hheld.resolve_right hdone).mono (List.subset_append_left _ _) (List.Subset.refl _))
  | @execute t hp =>
    refine Accounted.append (fun id hclaim => ?_) _
    have hheld := h id hclaim
    rw [hp] at hheld
    exact hheld
  | @routeThrows t hp =>
    refine Accounted.append (accounted_finishTurn fun id hclaim => ?_) _
    have hheld := h id hclaim
    rw [hp] at hheld
    exact hheld
  | result text answered hp => exact (accounted_result hp h).append _
  | @streamEnd t q hp =>
    have hleft : leftOver l .streamEnd = q.pendingAck.filter (· ∉ t.processingIds) := by
      simp only [leftOver, hp]
    exact accounted_finishTurn (left_of_stream hp hleft h)
  | @retry t q hp =>
    have hleft : leftOver l (.streamThrow true) = q.pendingAck.filter (· ∉ t.processingIds) := by
      simp only [leftOver, hp]
    exact startQuery_accounted (left_of_stream hp hleft h)
  | @streamThrow t q sessionInvalid hp =>
    have hleft : leftOver l (.streamThrow sessionInvalid) = q.pendingAck.filter (· ∉ t.processingIds) := by
      simp only [leftOver, hp]
    exact accounted_finishTurn (l := l.write (.errorReply t.processingIds)) (left_of_stream hp hleft h)
  | tick hp => exact (accounted_tick hp h).append _
  | @tickScripts tick i wakeAgent hi =>
    have hret : Loop.tickThrows { l with ticks := l.ticks.eraseIdx i } tick wakeAgent = false :=
      hcalm i wakeAgent rfl tick hi
    refine Accounted.append (accounted_tickScripts hret fun id hclaim => ?_) _
    rcases h id hclaim with (hleft | ⟨tick', htick, hid⟩) | hheld
    · exact .inl (.inl hleft)
    · obtain ⟨j, hj⟩ := List.mem_iff_getElem?.mp htick
      by_cases hji : j = i
      · subst hji
        obtain rfl := Option.some.inj (hi.symm.trans hj)
        exact .inr (.inl hid)
      · exact .inl (.inr ⟨tick', List.mem_eraseIdx_iff_getElem?.mpr ⟨j, hji, hj⟩, hid⟩)
    · exact .inr (.inr hheld)

theorem accounted_step {w w' : Warm} (hi : WarmInv w) (hs : warmStep c w e = some w') (hcalm : TickReturns w e) :
    Accounted w'.left w'.loop := by
  unfold warmStep at hs
  obtain ⟨l', hmove, rfl⟩ := Option.map_eq_some_iff.mp hs
  have hmoved := accounted_move hi.1 hi.2 hmove hcalm
  split
  · cases loopStep_move hmove
    exact fun id hclaim => absurd hclaim not_claimed_clearStale
  · exact hmoved

theorem warmInv_step {w w' : Warm} (hi : WarmInv w) (hs : warmStep c w e = some w') (hcalm : TickReturns w e) :
    WarmInv w' := by
  refine ⟨accounted_step hi hs hcalm, ?_⟩
  unfold warmStep at hs
  obtain ⟨l', hmove, rfl⟩ := Option.map_eq_some_iff.mp hs
  exact loopInv_step c w.loop e l' hi.2 hmove

/-- A container that has not started yet. -/
def Warm.fresh (inbound : List InboundRow) (acks : List AckRow) (now : ℕ) : Warm := ⟨Loop.fresh inbound acks now, []⟩

/-- At the top of the loop, a claim is a row that a stream of this container left over, or one of a tick that
is still under way. -/
def ClaimsAccounted (w : Warm) : Prop :=
  w.loop.phase = .polling → ∀ id, Claimed w.loop.acks id → Elsewhere w.left w.loop.ticks id

/-- **What is still claimed at the top of the loop.** In every run of a container over any databases, in which
no tick throws once it has claimed its rows: whenever the loop is at its top, a row in status `processing` is one
that was pushed into a stream which ended or threw before its next result, or one of a tick that waits for its
scripts; and a tick that comes back after its stream is gone keeps no claim. -/
theorem claims_at_top {c : LoopConfig} {inbound : List InboundRow} {acks : List AckRow} {now : ℕ}
    {es : List LoopEvent} (hcalm : Trans.Along (warmStep c) TickReturns (Warm.fresh inbound acks now) es) :
    Trans.Always (warmStep c) (fun w => ClaimsAccounted w ∧
      ∀ tick ∈ w.loop.ticks, ∀ wakeAgent, w.loop.phase = .polling → w.loop.tickThrows tick wakeAgent = false →
        ∀ id ∈ tick.ids, ¬ Claimed (w.loop.tickScripts tick wakeAgent).acks id) (Warm.fresh inbound acks now) es := by
  refine Trans.always_of_along (J := WarmInv) (fun w hi => ⟨fun hp id hclaim => ?_, ?_⟩)
    (fun _ _ _ hi hs hc => warmInv_step hi hs hc) ⟨fun id _ => .inr trivial, loopInv_plain rfl⟩ hcalm
  · have hheld := hi.1 id hclaim
    rw [hp] at hheld
    exact hheld.resolve_right fun hfalse => hfalse
  · intro tick _ wakeAgent hp hret
    refine tick_settles (fun t q hstream => ?_) hret
    rw [hp] at hstream
    cases hstream

/-- A follow-up is pushed into a stream that ends without a result. -/
def silentFollowUp : List LoopEvent :=
  [.start, .poll, .scripts fun _ => true, .host [groupMessage 2 true, groupMessage 4 false], .tick,
    .tickScripts 0 fun _ => true, .streamEnd]

/-- Every claim of that run is accounted for. -/
theorem silent_followUp_accounted :
    Trans.Always (warmStep ⟨10, false⟩) (fun w => ClaimsAccounted w ∧
      ∀ tick ∈ w.loop.ticks, ∀ wakeAgent, w.loop.phase = .polling → w.loop.tickThrows tick wakeAgent = false →
        ∀ id ∈ tick.ids, ¬ Claimed (w.loop.tickScripts tick wakeAgent).acks id)
      (Warm.fresh [groupMessage 2 true] [] 0) silentFollowUp := by
  apply claims_at_top
  refine ⟨fun _ _ he => (nomatch he), fun _ h => ?_⟩
  obtain rfl := Option.some.inj h
  refine ⟨fun _ _ he => (nomatch he), fun _ h => ?_⟩
  obtain rfl := Option.some.inj h
  refine ⟨fun _ _ he => (nomatch he), fun _ h => ?_⟩
  obtain rfl := Option.some.inj h
  refine ⟨fun _ _ he => (nomatch he), fun _ h => ?_⟩
  obtain rfl := Option.some.inj h
  refine ⟨fun _ _ he => (nomatch he), fun _ h => ?_⟩
  obtain rfl := Option.some.inj h
  refine ⟨fun i wakeAgent he tick htick => ?_, fun _ h => ?_⟩
  · obtain ⟨rfl, rfl⟩ := LoopEvent.tickScripts.inj he
    obtain rfl := Option.some.inj htick
    rfl
  · obtain rfl := Option.some.inj h
    exact ⟨fun _ _ he => (nomatch he), fun _ _ => trivial⟩

/-- The follow-up is still claimed when the loop is at its top again. -/
theorem silent_followUp_stranded :
    ∃ l, Trans.run (loopStep ⟨10, false⟩) (Loop.fresh [groupMessage 2 true] [] 0) silentFollowUp = some l ∧
      l.phase = .polling ∧ l.aborted = false ∧ Claimed l.acks "om_4" := by
  have hrun : Trans.run (loopStep ⟨10, false⟩) (Loop.fresh [groupMessage 2 true] [] 0) silentFollowUp = some _ := rfl
  exact ⟨_, hrun, rfl, rfl, ⟨"om_4", .processing, 0⟩, .tail _ (.head _), rfl, rfl⟩

end AgentDesk
