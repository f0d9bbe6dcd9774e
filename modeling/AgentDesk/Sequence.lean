/-
# The message numbers of a session

The host numbers the rows of `messages_in` (`nextEvenSeq`), the runner numbers
the rows of `messages_out` (`writeMessageOut`, `db/messages-out.ts` in the
container). The number is what the agent calls a message by, and
`getMessageIdBySeq` looks it up in both tables; so host rows are even and
runner rows odd. `writeOutboundDirect` (`session-manager.ts`) is a third
writer: a host row in `messages_out`, two after the largest number there.

That is an odd number once the runner has written, but 2 in an empty table,
which is the number of the session's first inbound row. Every later direct row
is even too until the runner writes.

* `direct_takes_two`: a session whose first message is a refused command.
* `seqs_apart_iff`: over every run the numbers stay apart exactly when no
  direct row goes into an empty `messages_out` of a session that has or gets an
  inbound row.

The runner's writers (the poll loop and the tools' server) read both maxima
and insert in three statements; every other writer may come in between.
-/
import AgentDesk.Delivered
import AgentDesk.Delivery
import AgentDesk.Trans

namespace AgentDesk

/-! ### The writers -/

/-- A row of `messages_out` with its number. -/
structure MessageOutRow extends OutboundMessage where
  seq : ℕ

/-- `COALESCE(MAX(seq), 0)`. -/
def maxSeq (seqs : List ℕ) : ℕ := seqs.foldr max 0

/-- A `writeMessageOut` between its statements: what it has read so far. -/
structure WritingOut where
  maxOut : ℕ
  maxIn : Option ℕ
  deriving DecidableEq, Repr

/-- The next odd number after both maxima. -/
def nextOddSeq (maxOut maxIn : ℕ) : ℕ :=
  let max := max maxOut maxIn
  if max % 2 = 0 then max + 1 else max + 2

/-- One session's two tables, and the runner's calls under way. -/
structure SeqDbs where
  messagesIn : List MessageIn
  messagesOut : List MessageOutRow
  writing : ℕ → Option WritingOut

def SeqDbs.empty : SeqDbs := ⟨[], [], fun _ => none⟩

def SeqDbs.inSeqs (s : SeqDbs) : List ℕ := s.messagesIn.map (·.seq)

def SeqDbs.outSeqs (s : SeqDbs) : List ℕ := s.messagesOut.map (·.seq)

/-- An insert breaks the primary key or `seq INTEGER UNIQUE`. -/
def outConflict (rows : List MessageOutRow) (id : String) (seq : ℕ) : Bool :=
  rows.any fun r => r.id = id || r.seq = seq

def inConflict (rows : List MessageIn) (id : String) (seq : ℕ) : Bool :=
  rows.any fun r => r.id = id || r.seq = seq

/-- What a caller gives `writeOutboundDirect`. -/
structure DirectMessage where
  id : String
  kind : OutboundKind
  platformId : Option String
  channelType : Option String
  threadId : Option String
  content : OutboundContent
  inReplyTo : Option String

def DirectMessage.row (m : DirectMessage) (timestamp : String) (seq : ℕ) : MessageOutRow :=
  { id := m.id, kind := m.kind, timestamp, platformId := m.platformId, channelType := m.channelType
    threadId := m.threadId, content := m.content, inReplyTo := m.inReplyTo, deliverAfter := none
    recurrence := none, originUserId := none, seq }

inductive SeqEvent where
  /-- The host's `insertMessage`, one transaction. -/
  | insertMessage (sessionId : String) (m : NewMessage)
  /-- The runner's call `i`: it reads `messages_out`, reads `messages_in`, inserts. -/
  | readOut (i : ℕ)
  | readIn (i : ℕ)
  | writeMessageOut (i : ℕ) (m : OutboundMessage)
  /-- A statement of call `i` throws, or its process dies. -/
  | abandon (i : ℕ)
  /-- One `INSERT OR IGNORE`; the database may be locked. -/
  | writeOutboundDirect (m : DirectMessage) (timestamp : String) (busy : Bool)

def SeqDbs.insertMessage (s : SeqDbs) (sessionId : String) (m : NewMessage) : SeqDbs :=
  let seq := nextEvenSeq s.messagesIn
  if inConflict s.messagesIn m.id seq then s
  else { s with messagesIn := s.messagesIn ++ [m.row sessionId seq m.content] }

/-- The seq of a direct row. -/
def SeqDbs.directSeq (s : SeqDbs) : ℕ := maxSeq s.outSeqs + 2

def SeqDbs.writeOutboundDirect (s : SeqDbs) (m : DirectMessage) (timestamp : String) (busy : Bool) : SeqDbs :=
  if busy || outConflict s.messagesOut m.id s.directSeq then s
  else { s with messagesOut := s.messagesOut ++ [m.row timestamp s.directSeq] }

def SeqDbs.insertOut (s : SeqDbs) (m : OutboundMessage) (seq : ℕ) : SeqDbs :=
  if outConflict s.messagesOut m.id seq then s
  else { s with messagesOut := s.messagesOut ++ [{ m with seq }] }

def SeqDbs.setWriting (s : SeqDbs) (i : ℕ) (x : Option WritingOut) : SeqDbs :=
  { s with writing := Function.update s.writing i x }

def seqStep (s : SeqDbs) : SeqEvent → Option SeqDbs
  | .insertMessage sessionId m => some (s.insertMessage sessionId m)
  | .readOut i => some (s.setWriting i (some ⟨maxSeq s.outSeqs, none⟩))
  | .readIn i => match s.writing i with
    | some ⟨maxOut, none⟩ => some (s.setWriting i (some ⟨maxOut, some (maxSeq s.inSeqs)⟩))
    | _ => none
  | .writeMessageOut i m => match s.writing i with
    | some ⟨maxOut, some maxIn⟩ => some ((s.insertOut m (nextOddSeq maxOut maxIn)).setWriting i none)
    | _ => none
  | .abandon i => some (s.setWriting i none)
  | .writeOutboundDirect m timestamp busy => some (s.writeOutboundDirect m timestamp busy)

/-! ### Looking a number up -/

/-- The platform id of a delivered row, else its own id. -/
def platformIdOf (delivered : List DeliveredRow) (outId : String) : String :=
  match (outcomeOf delivered outId).bind (·.platformMessageId) with
  | some pid => if pid = "" then outId else pid
  | none => outId

def getMessageIdBySeq (s : SeqDbs) (delivered : List DeliveredRow) (seq : ℕ) : Option String :=
  match Table.find MessageIn.seq s.messagesIn seq with
  | some inRow => some inRow.id
  | none => (Table.find MessageOutRow.seq s.messagesOut seq).map fun outRow => platformIdOf delivered outRow.id

/-- No number is used twice, in one table or in both, so each number is looked up to its own row. -/
structure OneMessageEach (s : SeqDbs) : Prop where
  apart : ∀ n ∈ s.inSeqs, n ∉ s.outSeqs
  inOnce : s.inSeqs.Nodup
  outOnce : s.outSeqs.Nodup
  findsIn : ∀ delivered, ∀ r ∈ s.messagesIn, getMessageIdBySeq s delivered r.seq = some r.id
  findsOut : ∀ delivered, ∀ o ∈ s.messagesOut,
    getMessageIdBySeq s delivered o.seq = some (platformIdOf delivered o.id)

theorem OneMessageEach.of_apart {s : SeqDbs} (hapart : ∀ n ∈ s.inSeqs, n ∉ s.outSeqs)
    (hin : s.inSeqs.Nodup) (hout : s.outSeqs.Nodup) : OneMessageEach s := by
  refine ⟨hapart, hin, hout, fun delivered r hr => ?_, fun delivered o ho => ?_⟩
  · unfold getMessageIdBySeq
    rw [Table.find_of_nodup hin hr]
  · have hnone : Table.find MessageIn.seq s.messagesIn o.seq = none := by
      rw [Table.find, List.find?_eq_none]
      intro r hr
      have hr' : r.seq ∈ s.inSeqs := List.mem_map.mpr ⟨r, hr, rfl⟩
      have ho' : o.seq ∈ s.outSeqs := List.mem_map.mpr ⟨o, ho, rfl⟩
      have hne : r.seq ≠ o.seq := fun he => hapart _ hr' (he ▸ ho')
      simpa using hne
    unfold getMessageIdBySeq
    rw [hnone, Table.find_of_nodup hout ho]
    rfl

/-! ### What the writers keep -/

theorem le_maxSeq {n : ℕ} : ∀ {l : List ℕ}, n ∈ l → n ≤ maxSeq l
  | a :: l, h => by
    show n ≤ max a (maxSeq l)
    rcases List.mem_cons.mp h with rfl | h
    · omega
    · have := le_maxSeq h
      omega

theorem maxSeq_mem : ∀ {l : List ℕ}, l ≠ [] → maxSeq l ∈ l
  | [a], _ => by simp [maxSeq]
  | a :: b :: l, _ => by
    have ih : maxSeq (b :: l) ∈ b :: l := maxSeq_mem (by simp)
    show max a (maxSeq (b :: l)) ∈ a :: b :: l
    rcases le_total (maxSeq (b :: l)) a with h | h
    · rw [max_eq_left h]
      exact List.mem_cons_self
    · rw [max_eq_right h]
      exact List.mem_cons_of_mem _ ih

/-- Inbound numbers are even and start at 2; the first even number in `messages_out` is 2. -/
structure SeqInv (s : SeqDbs) : Prop where
  inEven : ∀ n ∈ s.inSeqs, n % 2 = 0 ∧ 0 < n
  inTwo : s.messagesIn ≠ [] → 2 ∈ s.inSeqs
  inOnce : s.inSeqs.Nodup
  outPos : ∀ n ∈ s.outSeqs, 0 < n
  outTwo : ∀ n ∈ s.outSeqs, n % 2 = 0 → 2 ∈ s.outSeqs
  outOnce : s.outSeqs.Nodup

theorem seqInv_empty : SeqInv SeqDbs.empty := by
  refine ⟨?_, ?_, ?_, ?_, ?_, ?_⟩ <;> simp [SeqDbs.empty, SeqDbs.inSeqs, SeqDbs.outSeqs]

theorem oneMessageEach_iff {s : SeqDbs} (h : SeqInv s) :
    OneMessageEach s ↔ (s.messagesIn = [] ∨ 2 ∉ s.outSeqs) := by
  constructor
  · intro hone
    by_cases he : s.messagesIn = []
    · exact .inl he
    · exact .inr (hone.apart 2 (h.inTwo he))
  · intro hor
    refine OneMessageEach.of_apart (fun n hn hn' => ?_) h.inOnce h.outOnce
    rcases hor with he | h2
    · simp [SeqDbs.inSeqs, he] at hn
    · exact h2 (h.outTwo n hn' (h.inEven n hn).1)

theorem nextEvenSeq_spec {s : SeqDbs} (h : SeqInv s) :
    nextEvenSeq s.messagesIn % 2 = 0 ∧ (∀ n ∈ s.inSeqs, n < nextEvenSeq s.messagesIn) ∧
      (s.messagesIn = [] → nextEvenSeq s.messagesIn = 2) ∧ 0 < nextEvenSeq s.messagesIn := by
  have heq : nextEvenSeq s.messagesIn =
      if maxSeq s.inSeqs < 2 then 2 else maxSeq s.inSeqs + 2 - maxSeq s.inSeqs % 2 := rfl
  refine ⟨?_, fun n hn => ?_, fun he => ?_, ?_⟩
  · rw [heq]
    split <;> omega
  · have hle := le_maxSeq hn
    have heven := (h.inEven n hn).1
    rw [heq]
    split <;> omega
  · rw [he]
    rfl
  · rw [heq]
    split <;> omega

theorem nextOddSeq_odd (a b : ℕ) : nextOddSeq a b % 2 = 1 := by
  unfold nextOddSeq
  dsimp only
  split <;> omega

theorem SeqInv.append_out {s : SeqDbs} (h : SeqInv s) {o : MessageOutRow} (hpos : 0 < o.seq)
    (hnew : o.seq ∉ s.outSeqs) (htwo : o.seq % 2 = 0 → o.seq = 2 ∨ 2 ∈ s.outSeqs) :
    SeqInv { s with messagesOut := s.messagesOut ++ [o] } := by
  have houts : SeqDbs.outSeqs { s with messagesOut := s.messagesOut ++ [o] } = s.outSeqs ++ [o.seq] := by
    simp [SeqDbs.outSeqs]
  refine ⟨h.inEven, h.inTwo, h.inOnce, fun n hn => ?_, fun n hn heven => ?_, ?_⟩
  · rw [houts] at hn
    rcases List.mem_append.mp hn with hn | hn
    · exact h.outPos n hn
    · rwa [List.mem_singleton.mp hn]
  · rw [houts] at hn ⊢
    rcases List.mem_append.mp hn with hn | hn
    · exact List.mem_append_left _ (h.outTwo n hn heven)
    · rw [List.mem_singleton.mp hn] at heven
      rcases htwo heven with h2 | h2
      · simp [h2]
      · exact List.mem_append_left _ h2
  · rw [houts]
    refine List.nodup_append.mpr ⟨h.outOnce, by simp, fun a ha b hb => ?_⟩
    rw [List.mem_singleton.mp hb]
    exact fun he => hnew (he ▸ ha)

theorem SeqInv.setWriting {s : SeqDbs} (h : SeqInv s) (i : ℕ) (x : Option WritingOut) :
    SeqInv (s.setWriting i x) :=
  ⟨h.inEven, h.inTwo, h.inOnce, h.outPos, h.outTwo, h.outOnce⟩

theorem outConflict_false {rows : List MessageOutRow} {id : String} {seq : ℕ}
    (h : ¬ outConflict rows id seq = true) : seq ∉ rows.map (·.seq) := by
  simp only [outConflict, List.any_eq_true, not_exists, not_and] at h
  intro hmem
  obtain ⟨r, hr, hseq⟩ := List.mem_map.mp hmem
  exact h r hr (by simp [hseq])

theorem SeqInv.insertMessage {s : SeqDbs} (h : SeqInv s) (sessionId : String) (m : NewMessage) :
    SeqInv (s.insertMessage sessionId m) := by
  unfold SeqDbs.insertMessage
  dsimp only
  split
  · exact h
  · obtain ⟨heven, hlt, hfirst, hpos⟩ := nextEvenSeq_spec h
    set k := nextEvenSeq s.messagesIn
    have hins : SeqDbs.inSeqs { s with messagesIn := s.messagesIn ++ [m.row sessionId k m.content] } =
        s.inSeqs ++ [k] := by simp [SeqDbs.inSeqs, NewMessage.row]
    refine ⟨fun n hn => ?_, fun _ => ?_, ?_, h.outPos, h.outTwo, h.outOnce⟩
    · rw [hins] at hn
      rcases List.mem_append.mp hn with hn | hn
      · exact h.inEven n hn
      · rw [List.mem_singleton.mp hn]
        exact ⟨heven, hpos⟩
    · rw [hins]
      by_cases he : s.messagesIn = []
      · simp [hfirst he]
      · exact List.mem_append_left _ (h.inTwo he)
    · rw [hins]
      refine List.nodup_append.mpr ⟨h.inOnce, by simp, fun a ha b hb => ?_⟩
      rw [List.mem_singleton.mp hb]
      have := hlt a ha
      omega

theorem SeqInv.insertOut {s : SeqDbs} (h : SeqInv s) (m : OutboundMessage) {seq : ℕ} (hodd : seq % 2 = 1) :
    SeqInv (s.insertOut m seq) := by
  unfold SeqDbs.insertOut
  split
  · exact h
  · rename_i hc
    refine h.append_out ?_ (outConflict_false hc) fun heven => ?_
    · show 0 < seq
      omega
    · change seq % 2 = 0 at heven
      omega

theorem SeqInv.writeOutboundDirect {s : SeqDbs} (h : SeqInv s) (m : DirectMessage) (t : String) (busy : Bool) :
    SeqInv (s.writeOutboundDirect m t busy) := by
  unfold SeqDbs.writeOutboundDirect
  split
  · exact h
  · rename_i hc
    rw [Bool.or_eq_true, not_or] at hc
    refine h.append_out (Nat.succ_pos _) (outConflict_false hc.2) fun heven => ?_
    change (maxSeq s.outSeqs + 2) % 2 = 0 at heven
    by_cases he : s.outSeqs = []
    · left
      show maxSeq s.outSeqs + 2 = 2
      rw [he]
      rfl
    · exact .inr (h.outTwo _ (maxSeq_mem he) (by omega))

theorem seqStep_cases {s s' : SeqDbs} {e : SeqEvent} (h : seqStep s e = some s') :
    (∃ sid m, e = .insertMessage sid m ∧ s' = s.insertMessage sid m) ∨
    (∃ m t busy, e = .writeOutboundDirect m t busy ∧ s' = s.writeOutboundDirect m t busy) ∨
    (∃ i m maxOut maxIn, e = .writeMessageOut i m ∧
      s' = (s.insertOut m (nextOddSeq maxOut maxIn)).setWriting i none) ∨
    ((∃ i, e = .readOut i ∨ e = .readIn i ∨ e = .abandon i) ∧ ∃ i x, s' = s.setWriting i x) := by
  cases e with
  | insertMessage sid m => exact .inl ⟨sid, m, rfl, (Option.some.inj h).symm⟩
  | writeOutboundDirect m t busy => exact .inr (.inl ⟨m, t, busy, rfl, (Option.some.inj h).symm⟩)
  | readOut i => exact .inr (.inr (.inr ⟨⟨i, .inl rfl⟩, i, _, (Option.some.inj h).symm⟩))
  | abandon i => exact .inr (.inr (.inr ⟨⟨i, .inr (.inr rfl)⟩, i, _, (Option.some.inj h).symm⟩))
  | readIn i =>
    simp only [seqStep] at h
    split at h
    · exact .inr (.inr (.inr ⟨⟨i, .inr (.inl rfl)⟩, i, _, (Option.some.inj h).symm⟩))
    · exact absurd h (by simp)
  | writeMessageOut i m =>
    simp only [seqStep] at h
    split at h
    · exact .inr (.inr (.inl ⟨i, m, _, _, rfl, (Option.some.inj h).symm⟩))
    · exact absurd h (by simp)

theorem seqInv_step (s : SeqDbs) (e : SeqEvent) (s' : SeqDbs) (h : SeqInv s) (hs : seqStep s e = some s') :
    SeqInv s' := by
  obtain ⟨sid, m, -, rfl⟩ | ⟨m, t, busy, -, rfl⟩ | ⟨i, m, maxOut, maxIn, -, rfl⟩ | ⟨-, i, x, rfl⟩ :=
    seqStep_cases hs
  · exact h.insertMessage sid m
  · exact h.writeOutboundDirect m t busy
  · exact (h.insertOut m (nextOddSeq_odd maxOut maxIn)).setWriting i none
  · exact h.setWriting i x

/-! ### Where the numbers meet -/

/-- An inbound row lands only while `messages_out` has no number 2, and a direct row lands in an empty
`messages_out` only while there is no inbound row. -/
def StaysApart (s : SeqDbs) : SeqEvent → Prop
  | .insertMessage _ m => inConflict s.messagesIn m.id (nextEvenSeq s.messagesIn) = false → 2 ∉ s.outSeqs
  | .writeOutboundDirect _ _ busy => busy = false → s.messagesOut = [] → s.messagesIn = []
  | _ => True

theorem staysApart_insertMessage {s : SeqDbs} (h : SeqInv s) (hone : OneMessageEach s) (sid : String)
    (m : NewMessage) :
    OneMessageEach (s.insertMessage sid m) ↔ StaysApart s (.insertMessage sid m) := by
  rw [oneMessageEach_iff (h.insertMessage sid m)]
  unfold SeqDbs.insertMessage StaysApart
  dsimp only
  by_cases hc : inConflict s.messagesIn m.id (nextEvenSeq s.messagesIn) = true
  · rw [if_pos hc]
    have hor := (oneMessageEach_iff h).mp hone
    simp [hc, hor]
  · rw [if_neg hc]
    simp [hc, SeqDbs.outSeqs]

theorem oneMessageEach_insertOut {s : SeqDbs} (h : SeqInv s) (hone : OneMessageEach s) (m : OutboundMessage)
    {seq : ℕ} (hodd : seq % 2 = 1) : OneMessageEach (s.insertOut m seq) := by
  rw [oneMessageEach_iff (h.insertOut m hodd)]
  have hor := (oneMessageEach_iff h).mp hone
  unfold SeqDbs.insertOut
  split
  · exact hor
  · rcases hor with he | h2
    · exact .inl he
    · right
      have : 2 ≠ seq := by omega
      simpa [SeqDbs.outSeqs, this] using h2

theorem staysApart_direct {s : SeqDbs} (h : SeqInv s) (hone : OneMessageEach s) (m : DirectMessage)
    (t : String) (busy : Bool) :
    OneMessageEach (s.writeOutboundDirect m t busy) ↔ StaysApart s (.writeOutboundDirect m t busy) := by
  have hor := (oneMessageEach_iff h).mp hone
  rw [oneMessageEach_iff (h.writeOutboundDirect m t busy)]
  unfold SeqDbs.writeOutboundDirect StaysApart
  by_cases hb : busy = true
  · simp [hb, hor]
  · by_cases he : s.messagesOut = []
    · -- the first row of `messages_out` gets the number 2
      have hseq : s.directSeq = 2 := by simp [SeqDbs.directSeq, SeqDbs.outSeqs, he, maxSeq]
      simp [hb, he, outConflict, SeqDbs.outSeqs, DirectMessage.row, hseq]
    · have hne : s.outSeqs ≠ [] := by simpa [SeqDbs.outSeqs] using he
      have hpos := h.outPos _ (maxSeq_mem hne)
      refine ⟨fun _ _ hnil => absurd hnil he, fun _ => ?_⟩
      split
      · exact hor
      · rcases hor with hin | h2
        · exact .inl hin
        · right
          have : 2 ≠ s.directSeq := by
            unfold SeqDbs.directSeq
            omega
          simpa [SeqDbs.outSeqs, DirectMessage.row, this] using h2

theorem oneMessageEach_setWriting {s : SeqDbs} (i : ℕ) (x : Option WritingOut) :
    OneMessageEach (s.setWriting i x) ↔ OneMessageEach s :=
  ⟨fun h => ⟨h.apart, h.inOnce, h.outOnce, h.findsIn, h.findsOut⟩,
    fun h => ⟨h.apart, h.inOnce, h.outOnce, h.findsIn, h.findsOut⟩⟩

theorem staysApart_step (s : SeqDbs) (e : SeqEvent) (s' : SeqDbs) (h : SeqInv s) (hone : OneMessageEach s)
    (hs : seqStep s e = some s') : OneMessageEach s' ↔ StaysApart s e := by
  obtain ⟨sid, m, rfl, rfl⟩ | ⟨m, t, busy, rfl, rfl⟩ | ⟨i, m, maxOut, maxIn, rfl, rfl⟩ | ⟨⟨j, he⟩, i, x, rfl⟩ :=
    seqStep_cases hs
  · exact staysApart_insertMessage h hone sid m
  · exact staysApart_direct h hone m t busy
  · rw [oneMessageEach_setWriting]
    have hodd := nextOddSeq_odd maxOut maxIn
    exact ⟨fun _ => trivial, fun _ => oneMessageEach_insertOut h hone m hodd⟩
  · rw [oneMessageEach_setWriting]
    have htriv : StaysApart s e := by rcases he with rfl | rfl | rfl <;> trivial
    exact ⟨fun _ => htriv, fun _ => hone⟩

/-- **When the numbers stay apart.** A run of a session's writers from empty databases keeps every
number to one message in every state exactly when each inbound row lands while `messages_out` has no
number 2, and each direct row that opens `messages_out` lands before the first inbound row. -/
theorem seqs_apart_iff {es : List SeqEvent} {s : SeqDbs} (hrun : Trans.run seqStep SeqDbs.empty es = some s) :
    Trans.Always seqStep OneMessageEach SeqDbs.empty es ↔ Trans.Along seqStep StaysApart SeqDbs.empty es := by
  have hempty : OneMessageEach SeqDbs.empty := (oneMessageEach_iff seqInv_empty).mpr (.inl rfl)
  exact Trans.always_iff_along seqInv_step staysApart_step seqInv_empty hempty hrun

/-- The refusal of `/clear` by somebody who is not an admin. -/
def denial : DirectMessage :=
  ⟨"deny-1", .chat, some "feishu:oc_a", some "feishu", none,
    ⟨48, .ok (.obj [("text", .str "Permission denied: /clear requires admin access.")])⟩, none⟩

def hello : NewMessage :=
  ⟨"om_1:ag-front", .chat, some "feishu:oc_a", some "feishu", none, some (.obj [("text", .str "hello")]),
    true, none, none, none⟩

def answer : OutboundMessage :=
  ⟨"msg-1", .chat, "2026-01-01 00:00:01", some "feishu:oc_a", some "feishu", none,
    ⟨16, .ok (.obj [("text", .str "hi")])⟩, none, none, none, none⟩

/-- A session that starts with a refused command: the refusal and the first message both have the
number 2, and the agent that edits the refusal's number edits the message. -/
theorem direct_takes_two :
    ∃ s, Trans.run seqStep SeqDbs.empty
        [.writeOutboundDirect denial "2026-01-01 00:00:00" false, .insertMessage "sess-1" hello] = some s ∧
      ¬ OneMessageEach s ∧ s.inSeqs = [2] ∧ s.outSeqs = [2] ∧
      ∀ delivered, getMessageIdBySeq s delivered 2 = some "om_1:ag-front" := by
  refine ⟨_, rfl, fun h => ?_, rfl, rfl, fun _ => rfl⟩
  exact absurd (by decide) (h.apart 2 (by decide))

/-- Three writers that keep apart: a message, an answer, then a refusal. -/
theorem seqs_apart_iff_sample :
    ∃ s, Trans.run seqStep SeqDbs.empty
        [.insertMessage "sess-1" hello, .readOut 0, .readIn 0, .writeMessageOut 0 answer,
          .writeOutboundDirect denial "2026-01-01 00:00:02" false] = some s ∧
      s.inSeqs = [2] ∧ s.outSeqs = [3, 5] ∧ OneMessageEach s := by
  have hrun : Trans.run seqStep SeqDbs.empty
      [.insertMessage "sess-1" hello, .readOut 0, .readIn 0, .writeMessageOut 0 answer,
        .writeOutboundDirect denial "2026-01-01 00:00:02" false] = some _ := rfl
  refine ⟨_, hrun, rfl, rfl, (seqs_apart_iff hrun).mpr ?_ _ [] _ (List.append_nil _).symm hrun⟩
  refine ⟨fun _ => by decide, fun s₁ h₁ => ?_⟩
  obtain rfl := Option.some.inj h₁
  refine ⟨trivial, fun s₂ h₂ => ?_⟩
  obtain rfl := Option.some.inj h₂
  refine ⟨trivial, fun s₃ h₃ => ?_⟩
  obtain rfl := Option.some.inj h₃
  refine ⟨trivial, fun s₄ h₄ => ?_⟩
  obtain rfl := Option.some.inj h₄
  exact ⟨fun _ hnil => absurd (congrArg List.length hnil) (by decide), fun _ _ => trivial⟩

end AgentDesk
