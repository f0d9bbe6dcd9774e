/-
# The work the host wakes a container for, and the work a container takes

The host wakes a container when `countDueMessages` is positive: some trigger row is pending and due. A
container that has just started clears its stale claims and reads the newest pending rows that are due,
less those with an acknowledgement, less the answers to tools. The two agree on a row that the container
takes and then acknowledges. They do not agree on the answer to a question whose tool has stopped waiting,
on a trigger with a prompt's worth of newer rows, or on one whose acknowledgement is not copied yet.

The session is a machine of its own here: routing, tasks and retries on the host's side, claims,
acknowledgements and the question tool on the container's, answers in between.

* `wake_finds_work_iff`: in every state of every run, a wake finds work exactly when some row that counts
  can be taken.
* `late_answer_wakes_forever`: an answer that comes too late.
-/
import AgentDesk.DueTriggers
import AgentDesk.HostSweep
import AgentDesk.Sequence

namespace AgentDesk

open Js Latest

/-! ### One row, read by both -/

/-- A row as the runner reads it; a time that SQLite cannot read is never due. (The text of a content that
does not parse is not kept.) -/
def QueueRow.seen (r : QueueRow) : InboundRow :=
  { id := r.id, seq := r.seq, kind := r.kind
    pending := r.status = .pending && r.processAfter.all (·.sqlite.isSome)
    processAfter := r.processAfter.bind fun stamp => stamp.sqlite.map Int.toNat
    trigger := r.trigger, platformId := r.platformId, channelType := r.channelType, threadId := r.threadId
    raw := "", content := r.content, originUserId := r.originUserId }

theorem seen_due (r : QueueRow) (now : ℕ) :
    r.seen.due (now / 1000) = (decide (r.status = .pending) && r.due now) := by
  unfold InboundRow.due QueueRow.seen QueueRow.due
  rcases hp : r.processAfter with _ | ⟨sqlite, parsed⟩
  · simp
  · rcases sqlite with _ | t
    · simp
    · have hle : Int.toNat t ≤ now / 1000 ↔ t ≤ ((now / 1000 : ℕ) : ℤ) := Int.toNat_le
      simp [hle]

/-- An acknowledgement as the host reads it. -/
def AckRow.host (a : AckRow) : ProcessingAck := ⟨a.messageId, a.status, some (1000 * a.statusChanged)⟩

/-! ### The session -/

/-- The question tool while it waits. Its deadline is in milliseconds. -/
structure Asking where
  questionId : String
  deadline : ℕ

/-- A session: the host's queue and pending questions, the container's acknowledgements, and whether a
container runs. The clock is in milliseconds. -/
structure WorkState where
  sessionId : String
  now : ℕ
  rows : List QueueRow
  acks : List AckRow
  questions : List String
  asking : Option Asking
  running : Bool

def WorkState.fresh (sessionId : String) : WorkState := ⟨sessionId, 0, [], [], [], none, false⟩

inductive WorkEvent where
  | tick (ms : ℕ)
  /-- The router, another session, or any other caller of `writeSessionMessage`. -/
  | route (m : NewMessage) (processAfter : Option Stamp) (recurrence : Option String)
  | schedule (t : NewTask)
  | cancelTask (taskId : String)
  | pauseTask (taskId : String)
  | resumeTask (taskId : String)
  | updateTask (taskId : String) (u : TaskUpdate)
  /-- The host retries a row of a dead container. -/
  | retry (messageId : String)
  /-- The host copies the acknowledgements. -/
  | sync
  /-- The host has delivered the card of a question. -/
  | cardDelivered (questionId : String)
  /-- A click, or a cancellation, on a question that is pending. -/
  | answer (questionId rowId selectedOption userId : String)
  | wake
  | exit
  | claim (ids : List String)
  | release (ids : List String)
  | complete (ids : List String)
  | ask (questionId : String) (timeoutMs : ℕ)
  | pollAnswer
  | giveUp

/-- The row `resolvePendingQuestion` writes; `trigger` is the default. -/
def questionResponse (questionId rowId selectedOption userId : String) : NewMessage :=
  { id := rowId, kind := .system, platformId := none, channelType := none, threadId := none
    content := some (.obj [("type", .str "question_response"), ("questionId", .str questionId),
      ("selectedOption", .str selectedOption), ("userId", .str userId)])
    trigger := true, sourceSessionId := none, originUserId := none, conversationThreadId := none }

/-- `content LIKE '%"questionId":"…"%'`, of a content that is an object. -/
def mentions (questionId : String) : Content → Bool
  | some (.obj fields) => fields.any fun f => f.1 = "questionId" && Json.asString (some f.2) = some questionId
  | _ => false

/-- A pending answer that is not acknowledged yet. -/
def findQuestionResponse (rows : List QueueRow) (acks : List AckRow) (questionId : String) : Option QueueRow :=
  (rows.find? fun r => r.status = .pending && mentions questionId r.content).filter
    fun r => !acks.any fun a => a.messageId = r.id

def WorkState.insert (s : WorkState) (rows : Option (List QueueRow)) : WorkState := { s with rows := rows.getD s.rows }

def workStep (s : WorkState) : WorkEvent → Option WorkState
  | .tick ms => some { s with now := s.now + ms }
  | .route m processAfter recurrence => some (s.insert (insertMessage s.rows s.sessionId m processAfter recurrence))
  | .schedule t => some (s.insert (insertTask s.rows s.sessionId t))
  | .cancelTask taskId => some { s with rows := cancelTask s.rows taskId }
  | .pauseTask taskId => some { s with rows := pauseTask s.rows taskId }
  | .resumeTask taskId => some { s with rows := resumeTask s.rows taskId }
  | .updateTask taskId u => some (s.insert ((updateTask s.rows taskId u).map (·.1)))
  | .retry messageId => some { s with rows := resetRow s.rows s.now s.now messageId }
  | .sync => some { s with rows := syncProcessingAcks s.rows (s.acks.map (·.host)) }
  | .cardDelivered questionId => some { s with questions := s.questions ++ [questionId] }
  | .answer questionId rowId selectedOption userId =>
    if questionId ∉ s.questions then none
    -- the pending question is deleted once its answer is written
    else match insertMessage s.rows s.sessionId (questionResponse questionId rowId selectedOption userId) none none with
      | none => some s
      | some rows => some { s with rows, questions := s.questions.filter (· ≠ questionId) }
  | .wake =>
    if s.running then none
    else some { s with running := true, acks := clearStaleProcessingAcks s.acks, asking := none }
  | .exit => if s.running then some { s with running := false, asking := none } else none
  | .claim ids => if s.running then some { s with acks := markProcessing (s.now / 1000) s.acks ids } else none
  | .release ids => if s.running then some { s with acks := releaseProcessing s.acks ids } else none
  | .complete ids => if s.running then some { s with acks := markCompleted (s.now / 1000) s.acks ids } else none
  | .ask questionId timeoutMs =>
    if s.running && s.asking.isNone then some { s with asking := some ⟨questionId, s.now + timeoutMs⟩ } else none
  | .pollAnswer => match s.asking with
    | none => none
    | some a =>
      if a.deadline ≤ s.now then none
      else match findQuestionResponse s.rows s.acks a.questionId with
        | none => some s
        | some r => some { s with acks := markCompleted (s.now / 1000) s.acks [r.id], asking := none }
  | .giveUp => match s.asking with
    | none => none
    | some a => if a.deadline ≤ s.now then some { s with asking := none } else none

/-! ### Numbers -/

theorem lt_nextEvenSeq {rows : List MessageIn} {r : MessageIn} (h : r ∈ rows) : r.seq < nextEvenSeq rows := by
  have hle : r.seq ≤ maxSeq (rows.map (·.seq)) := le_maxSeq (List.mem_map_of_mem h)
  have heq : nextEvenSeq rows =
      if maxSeq (rows.map (·.seq)) < 2 then 2
      else maxSeq (rows.map (·.seq)) + 2 - maxSeq (rows.map (·.seq)) % 2 := rfl
  rw [heq]
  split <;> omega

/-- The numbers of the rows are distinct. -/
def SeqsDistinct (rows : List QueueRow) : Prop := (rows.map (·.seq)).Nodup

theorem seqs_insertRow {rows rows' : List QueueRow} {new : QueueRow} (h : SeqsDistinct rows)
    (hi : insertRow rows new = some rows') : SeqsDistinct rows' := by
  unfold insertRow at hi
  split at hi
  · cases hi
  · obtain rfl := Option.some.inj hi
    unfold SeqsDistinct
    rw [List.map_append, List.nodup_append]
    refine ⟨h, List.nodup_singleton _, fun n hn m hm hnm => ?_⟩
    obtain rfl := List.mem_singleton.mp hm
    obtain ⟨r, hr, rfl⟩ := List.mem_map.mp hn
    have hlt : r.seq < nextEvenSeq (rows.map (·.toMessageIn)) := lt_nextEvenSeq (List.mem_map_of_mem hr)
    exact absurd hnm hlt.ne

theorem seqs_insert {s : WorkState} {rows : Option (List QueueRow)} (h : SeqsDistinct s.rows)
    (hrows : ∀ rows', rows = some rows' → SeqsDistinct rows') : SeqsDistinct (s.insert rows).rows := by
  cases rows with
  | none => exact h
  | some rows' => exact hrows rows' rfl

theorem seqs_updateWhere {rows : List QueueRow} {p : QueueRow → Bool} {f : QueueRow → QueueRow}
    (h : SeqsDistinct rows) (hf : ∀ r, (f r).seq = r.seq) : SeqsDistinct (Table.updateWhere p f rows) := by
  unfold SeqsDistinct
  rw [Table.map_updateWhere hf]
  exact h

theorem seqs_resetRow {rows : List QueueRow} {start now : ℕ} {messageId : String} (h : SeqsDistinct rows) :
    SeqsDistinct (resetRow rows start now messageId) := by
  unfold resetRow
  split
  · exact h
  split
  · exact h
  split
  · unfold markMessageFailed
    rw [Table.update_eq]
    exact seqs_updateWhere h fun _ => rfl
  · unfold retryWithBackoff
    rw [Table.update_eq]
    exact seqs_updateWhere h fun _ => rfl

theorem seqs_step (s : WorkState) (e : WorkEvent) (s' : WorkState) (h : SeqsDistinct s.rows)
    (hs : workStep s e = some s') : SeqsDistinct s'.rows := by
  cases e with
  | tick | cardDelivered =>
    obtain rfl := Option.some.inj hs
    exact h
  | route m processAfter recurrence =>
    obtain rfl := Option.some.inj hs
    exact seqs_insert h fun rows' hi => seqs_insertRow h hi
  | schedule t =>
    obtain rfl := Option.some.inj hs
    exact seqs_insert h fun rows' hi => seqs_insertRow h hi
  | cancelTask | pauseTask | resumeTask =>
    obtain rfl := Option.some.inj hs
    exact seqs_updateWhere h fun _ => rfl
  | updateTask taskId u =>
    obtain rfl := Option.some.inj hs
    refine seqs_insert h fun rows' hu => ?_
    unfold AgentDesk.updateTask at hu
    dsimp only at hu
    split at hu
    · obtain rfl := Option.some.inj hu
      exact seqs_updateWhere h fun _ => rfl
    · cases hu
  | retry messageId =>
    obtain rfl := Option.some.inj hs
    exact seqs_resetRow h
  | sync =>
    obtain rfl := Option.some.inj hs
    dsimp only
    rw [syncProcessingAcks_eq]
    exact seqs_updateWhere h fun _ => rfl
  | answer questionId rowId selectedOption userId =>
    simp only [workStep] at hs
    split at hs
    · cases hs
    split at hs
    · obtain rfl := Option.some.inj hs
      exact h
    · rename_i rows hi
      obtain rfl := Option.some.inj hs
      exact seqs_insertRow h hi
  | wake | exit | claim | release | complete | ask =>
    simp only [workStep] at hs
    split at hs
    all_goals cases hs
    exact h
  | pollAnswer =>
    simp only [workStep] at hs
    split at hs
    · cases hs
    split at hs
    · cases hs
    split at hs
    all_goals
      obtain rfl := Option.some.inj hs
      exact h
  | giveUp =>
    simp only [workStep] at hs
    split at hs
    · cases hs
    split at hs
    · obtain rfl := Option.some.inj hs
      exact h
    · cases hs

/-! ### Wake and work -/

/-- The row counts for the host. -/
def QueueRow.counts (now : ℕ) (r : QueueRow) : Bool := r.status = .pending && r.trigger && r.due now

/-- The row answers no tool, and its acknowledgement, if it has one, is a claim of a container that is gone. -/
def QueueRow.takable (acks : List AckRow) (r : QueueRow) : Bool :=
  r.kind ≠ .system && !acks.any fun a => a.messageId = r.id && a.status ≠ .processing

/-- How many pending rows that are due, of any sort, are newer. -/
def QueueRow.behind (rows : List QueueRow) (now : ℕ) (r : QueueRow) : ℕ :=
  rows.countP fun b => b.status = .pending && b.due now && decide (r.seq < b.seq)

/-- What a container that starts now finds at its first poll. -/
def WorkState.firstBatch (limit : ℕ) (s : WorkState) : Option (List InboundRow) :=
  outerBatch (s.rows.map (·.seen)) (clearStaleProcessingAcks s.acks) limit (s.now / 1000)

/-- If the host counts due work, a container that starts now gets a batch with a trigger in it. -/
def WakeFindsWork (limit : ℕ) (s : WorkState) : Prop :=
  0 < countDueMessages s.rows s.now → ∃ batch, s.firstBatch limit = some batch ∧
    ∃ m ∈ batch, m.waits (clearStaleProcessingAcks s.acks) (s.now / 1000) = true

/-- If some row counts, then one that counts can be taken and has fewer newer rows than a prompt may hold. -/
def WorkWithinReach (limit : ℕ) (s : WorkState) : Prop :=
  (∃ r ∈ s.rows, r.counts s.now = true) →
    ∃ r ∈ s.rows, r.counts s.now = true ∧ r.takable s.acks = true ∧ r.behind s.rows s.now < limit

theorem countDue_pos {rows : List QueueRow} {now : ℕ} :
    0 < countDueMessages rows now ↔ ∃ r ∈ rows, r.counts now = true := by
  unfold countDueMessages
  rw [List.countP_pos_iff]
  rfl

theorem acked_clearStale (acks : List AckRow) (r : QueueRow) : acked (clearStaleProcessingAcks acks) r.seen =
    acks.any fun a => a.messageId = r.id && a.status ≠ .processing := by
  unfold acked clearStaleProcessingAcks
  rw [List.any_filter]
  congr 1
  funext a
  exact Bool.and_comm _ _

theorem waits_seen (acks : List AckRow) (now : ℕ) (r : QueueRow) :
    r.seen.waits (clearStaleProcessingAcks acks) (now / 1000) = (r.counts now && r.takable acks) := by
  have hdue := seen_due r now
  have hacked := acked_clearStale acks r
  unfold InboundRow.waits QueueRow.counts QueueRow.takable
  rw [hdue, hacked]
  show (_ && r.trigger && _ && _) = _
  have hkind : decide (r.seen.kind ≠ .system) = decide (r.kind ≠ .system) := rfl
  rw [hkind]
  cases decide (r.status = .pending) <;> cases r.due now <;> cases r.trigger <;> simp

theorem newerDue_seen (rows : List QueueRow) (now : ℕ) (r : QueueRow) :
    newerDue (rows.map (·.seen)) (now / 1000) r.seen = r.behind rows now := by
  unfold newerDue newer QueueRow.behind
  rw [List.countP_filter, List.countP_map]
  apply List.countP_congr
  intro b _
  have hdue := seen_due b now
  simp only [Function.comp_apply, hdue]
  show (decide (r.seq < b.seq) && _) = true ↔ _
  rw [Bool.and_comm]

theorem wakeFindsWork_iff {limit : ℕ} {s : WorkState} (h : SeqsDistinct s.rows) :
    WakeFindsWork limit s ↔ WorkWithinReach limit s := by
  have hseq : ((s.rows.map (·.seen)).map (·.seq)).Nodup := by
    rw [List.map_map]
    exact h
  unfold WakeFindsWork WorkWithinReach WorkState.firstBatch
  rw [countDue_pos, outerBatch_trigger_iff hseq]
  refine imp_congr_right fun _ => ?_
  constructor
  · rintro ⟨m, hm, hwaits, hreach⟩
    obtain ⟨r, hr, rfl⟩ := List.mem_map.mp hm
    rw [waits_seen, Bool.and_eq_true] at hwaits
    rw [newerDue_seen] at hreach
    exact ⟨r, hr, hwaits.1, hwaits.2, hreach⟩
  · rintro ⟨r, hr, hcounts, htakable, hreach⟩
    refine ⟨r.seen, List.mem_map_of_mem hr, ?_, ?_⟩
    · rw [waits_seen, hcounts, htakable]
      rfl
    · rw [newerDue_seen]
      exact hreach

/-- **A wake finds work exactly when some is within reach.** In every state of every run of a session with no
container running: if the host counts due work, a container that starts gets a batch with a trigger in it, if and
only if some row that counts answers no tool, is acknowledged nowhere but by a claim of a dead container, and has
fewer newer rows that are pending and due than a prompt may hold. -/
theorem wake_finds_work_iff {limit : ℕ} {sessionId : String} {es : List WorkEvent} {s : WorkState}
    (hr : Trans.run workStep (WorkState.fresh sessionId) es = some s) :
    (s.running = false → WakeFindsWork limit s) ↔ (s.running = false → WorkWithinReach limit s) := by
  have hfresh : SeqsDistinct (WorkState.fresh sessionId).rows := List.nodup_nil
  have hseqs : SeqsDistinct s.rows := Trans.run_inv (I := fun s => SeqsDistinct s.rows) seqs_step hfresh hr
  rw [wakeFindsWork_iff hseqs]

/-- A user's message in a direct chat. -/
def userMessage : NewMessage :=
  { id := "om_1", kind := .chat, platformId := some "oc_dm", channelType := some "feishu", threadId := none
    content := some (.obj [("text", .str "book it"), ("senderId", .str "ou_u")]), trigger := true
    sourceSessionId := none, originUserId := none, conversationThreadId := none }

/-- A message that waits is found. -/
theorem wake_finds_message :
    ∃ s, Trans.run workStep (WorkState.fresh "s") [.route userMessage none none] = some s ∧
      s.running = false ∧ 0 < countDueMessages s.rows s.now ∧
      ((s.running = false → WakeFindsWork 10 s) ↔ (s.running = false → WorkWithinReach 10 s)) := by
  have hrun : Trans.run workStep (WorkState.fresh "s") [.route userMessage none none] = some _ := rfl
  exact ⟨_, hrun, rfl, by decide, wake_finds_work_iff hrun⟩

/-- The agent asks; nobody answers in time; the turn ends and the container goes. Then comes the answer. -/
def lateAnswer : List WorkEvent :=
  [.route userMessage none none, .wake, .claim ["om_1"], .ask "msg-1" 1000, .cardDelivered "msg-1",
    .tick 1000, .giveUp, .complete ["om_1"], .exit, .sync, .answer "msg-1" "qr-msg-1-1000" "approve" "feishu:ou_u"]

/-- Wake a container, and let it find nothing and go. -/
def idleCycles : ℕ → List WorkEvent
  | 0 => []
  | n + 1 => .wake :: .exit :: idleCycles n

theorem run_idleCycles {s : WorkState} (h : Trans.run workStep s [.wake, .exit] = some s) :
    ∀ n, Trans.run workStep s (idleCycles n) = some s
  | 0 => rfl
  | n + 1 => by
    obtain ⟨s₁, hwake, hrest⟩ := Trans.run_cons.mp h
    obtain ⟨s₂, hexit, hend⟩ := Trans.run_cons.mp hrest
    obtain rfl : s₂ = s := Option.some.inj hend
    exact Trans.run_cons.mpr ⟨s₁, hwake, Trans.run_cons.mpr ⟨s₂, hexit, run_idleCycles h n⟩⟩

set_option maxRecDepth 10000 in
/-- The host counts the late answer as due work, however often it wakes a container for it: none finds work. -/
theorem late_answer_wakes_forever :
    ∃ s, Trans.run workStep (WorkState.fresh "s") lateAnswer = some s ∧ s.running = false ∧
      0 < countDueMessages s.rows s.now ∧ ¬ WakeFindsWork 10 s ∧
      ∀ n, Trans.run workStep s (idleCycles n) = some s := by
  have hrun : Trans.run workStep (WorkState.fresh "s") lateAnswer = some _ := rfl
  refine ⟨_, hrun, rfl, by decide, fun h => ?_, fun n => ?_⟩
  · obtain ⟨batch, hbatch, -⟩ := h (by decide)
    cases hbatch
  · exact run_idleCycles rfl n

end AgentDesk
