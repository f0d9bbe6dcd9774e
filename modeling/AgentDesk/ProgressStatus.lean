/-
# Progress reactions

`src/modules/progress-status`: a message that wakes an agent gets a reaction, which is removed when the first
reply lands. The reaction of a session is its row of `progress_reactions`.

A start asks whether there is a row, waits for the adapter to add the reaction, and saves it; a clear reads the
row, waits for the adapter to remove the reaction, and deletes whatever row there is by then. Two starts that
overlap both find no row, and the second overwrites the first one's; a clear deletes what a start has saved while
it waited. And a reaction that could not be removed loses its row too.

The adapter is the platform's business: when it places and removes reactions, whether it tells the id of one it has
placed, and whether a call comes back at all, are events. A reaction has an id of its own.

* `nothing_leaked_iff`: over every run, each reaction is recorded or its add is on its way, exactly when no row
  that is overwritten or deleted records one that is still there, and no placed one goes untold.
* `overlapping_starts`: two messages of one session.
-/
import Mathlib.Data.List.Basic
import Mathlib.Logic.Function.Basic
import AgentDesk.Js
import AgentDesk.Table
import AgentDesk.Trans

namespace AgentDesk

open Js

/-! ### The module -/

/-- `AGENTDESK_PROGRESS_STATUS_CHANNELS` and `AGENTDESK_PROGRESS_STATUS_FEISHU_EMOJI`. -/
structure ProgressEnv where
  channels : Option String
  feishuEmoji : Option String

/-- A row of `progress_reactions`, without its session. -/
structure ProgressReaction where
  channelType : String
  platformId : String
  threadId : Option String
  sourceMessageId : String
  reactionId : String
  emoji : String
  deriving DecidableEq, Repr

/-- The channel names are ASCII. -/
def lowerCase (s : String) : String := String.ofList (s.toList.map Char.toLower)

def parseEnabledChannels (raw : Option String) : List String :=
  let normalized := lowerCase (trim (raw.getD ""))
  if !truthy raw || normalized = "" || normalized = "default" then ["feishu"]
  else if normalized ∈ ["none", "off", "false"] then []
  else ((normalized.toList.splitOn ',').map fun value => trim (String.ofList value)).filter (· ≠ "")

def ProgressEnv.enabledFor (env : ProgressEnv) (channelType : String) : Bool :=
  lowerCase channelType ∈ parseEnabledChannels env.channels

def ProgressEnv.resolveReactionEmoji (env : ProgressEnv) (channelType : String) : Option String :=
  if lowerCase channelType = "feishu" then
    let emoji := trim (env.feishuEmoji.getD "")
    some (if emoji = "" then "THINKING" else emoji)
  else none

/-- A start that waits for the adapter; `placed` is the id of the reaction that the platform has made of it. -/
structure AddCall where
  sessionId : String
  channelType : String
  platformId : String
  threadId : Option String
  sourceMessageId : String
  emoji : String
  placed : Option String
  deriving DecidableEq, Repr

def AddCall.reaction (call : AddCall) (reactionId : String) : ProgressReaction :=
  { channelType := call.channelType, platformId := call.platformId, threadId := call.threadId
    sourceMessageId := call.sourceMessageId, reactionId, emoji := call.emoji }

/-- A clear that waits for the adapter, with the row it has read. -/
structure ClearCall where
  sessionId : String
  entry : ProgressReaction
  deriving DecidableEq, Repr

/-- A reaction on a message, and whose start it comes from. -/
structure PlacedReaction where
  sessionId : String
  messageId : String
  reactionId : String
  deriving DecidableEq, Repr

/-- The table, the calls that wait, the reactions that are there, and all the ids of reactions so far. -/
structure ProgressDesk where
  rows : String → Option ProgressReaction
  adds : ℕ → Option AddCall
  clears : ℕ → Option ClearCall
  reactions : List PlacedReaction
  issued : List String

def ProgressDesk.empty : ProgressDesk := ⟨fun _ => none, fun _ => none, fun _ => none, [], []⟩

inductive ProgressEvent where
  /-- `maybeStartProgressStatus`, up to the adapter's call. -/
  | start (j : ℕ) (sessionId channelType platformId : String) (threadId sourceMessageId : Option String)
      (adapter : Bool)
  /-- The platform places the reaction. -/
  | place (j : ℕ) (reactionId : String)
  /-- The adapter's call comes back, with the id of what it has placed if it is told. -/
  | addReturns (j : ℕ) (told : Bool)
  | addThrows (j : ℕ)
  /-- `markProgressStatusCompleted` and `markProgressStatusFailed`, up to the adapter's call. -/
  | clear (k : ℕ) (sessionId : String) (adapter : Bool)
  /-- The platform removes the reaction. -/
  | unplace (k : ℕ)
  /-- The adapter's call comes back, or throws. -/
  | clearEnds (k : ℕ)

/-- The emoji of a start that gets to the adapter. -/
def ProgressDesk.startEmoji (env : ProgressEnv) (st : ProgressDesk) (sessionId channelType : String)
    (sourceMessageId : Option String) (adapter : Bool) : Option String :=
  if !adapter || !env.enabledFor channelType || !truthy sourceMessageId || (st.rows sessionId).isSome then none
  else env.resolveReactionEmoji channelType

def progressStep (env : ProgressEnv) (st : ProgressDesk) : ProgressEvent → Option ProgressDesk
  | .start j sessionId channelType platformId threadId sourceMessageId adapter =>
    if (st.adds j).isSome then none
    else match st.startEmoji env sessionId channelType sourceMessageId adapter with
      | none => some st
      | some emoji =>
        let call : AddCall :=
          ⟨sessionId, channelType, platformId, threadId, sourceMessageId.getD "", emoji, none⟩
        some { st with adds := Function.update st.adds j (some call) }
  | .place j reactionId => (st.adds j).bind fun call =>
    if call.placed = none ∧ reactionId ≠ "" ∧ reactionId ∉ st.issued then
      some { st with
        adds := Function.update st.adds j (some { call with placed := some reactionId })
        reactions := st.reactions ++ [⟨call.sessionId, call.sourceMessageId, reactionId⟩]
        issued := reactionId :: st.issued }
    else none
  | .addReturns j told => (st.adds j).map fun call =>
    let st := { st with adds := Function.update st.adds j none }
    match call.placed, told with
    | some reactionId, true =>
      { st with rows := Function.update st.rows call.sessionId (some (call.reaction reactionId)) }
    -- nothing is saved without an id
    | _, _ => st
  | .addThrows j => (st.adds j).map fun _ => { st with adds := Function.update st.adds j none }
  | .clear k sessionId adapter =>
    if (st.clears k).isSome then none
    else match st.rows sessionId with
      | none => some st
      | some entry =>
        if adapter then some { st with clears := Function.update st.clears k (some ⟨sessionId, entry⟩) }
        else some { st with rows := Function.update st.rows sessionId none }
  | .unplace k => (st.clears k).map fun call =>
    { st with reactions := st.reactions.filter fun r => r.reactionId ≠ call.entry.reactionId }
  | .clearEnds k => (st.clears k).map fun call =>
    { st with
      clears := Function.update st.clears k none
      rows := Function.update st.rows call.sessionId none }

/-! ### What is left behind -/

/-- The start that has placed the reaction has not come back. -/
def ProgressDesk.InFlight (st : ProgressDesk) (r : PlacedReaction) : Prop :=
  ∃ j call, st.adds j = some call ∧ call.sessionId = r.sessionId ∧ call.sourceMessageId = r.messageId ∧
    call.placed = some r.reactionId

def ProgressDesk.Recorded (st : ProgressDesk) (r : PlacedReaction) : Prop :=
  ∃ row, st.rows r.sessionId = some row ∧ row.sourceMessageId = r.messageId ∧ row.reactionId = r.reactionId

def NothingLeaked (st : ProgressDesk) : Prop := ∀ r ∈ st.reactions, st.InFlight r ∨ st.Recorded r

/-- The row of the session records a reaction that is still there. -/
def ProgressDesk.Live (st : ProgressDesk) (sessionId : String) : Prop :=
  ∃ row, st.rows sessionId = some row ∧ ∃ r ∈ st.reactions, r.sessionId = sessionId ∧ r.reactionId = row.reactionId

/-- An add that has placed a reaction comes back with its id, and finds no row of a reaction that is still there; and
a row is deleted when the reaction is gone. -/
def KeepsRecord (st : ProgressDesk) : ProgressEvent → Prop
  | .addReturns j told => ∀ call, st.adds j = some call → call.placed ≠ none → told = true ∧ ¬ st.Live call.sessionId
  | .addThrows j => ∀ call, st.adds j = some call → call.placed = none
  | .clear _ sessionId adapter => adapter = false → ¬ st.Live sessionId
  | .clearEnds k => ∀ call, st.clears k = some call → ¬ st.Live call.sessionId
  | _ => True

/-- What the ids are worth: a reaction whose start has not come back is there, and nobody else knows it. -/
structure ProgressInv (st : ProgressDesk) : Prop where
  rowIssued : ∀ s row, st.rows s = some row → row.reactionId ∈ st.issued
  clearIssued : ∀ k call, st.clears k = some call → call.entry.reactionId ∈ st.issued
  addIssued : ∀ j call id, st.adds j = some call → call.placed = some id → id ∈ st.issued
  there : ∀ j call id, st.adds j = some call → call.placed = some id →
    ⟨call.sessionId, call.sourceMessageId, id⟩ ∈ st.reactions
  sole : ∀ i j call call' id, st.adds i = some call → st.adds j = some call' → call.placed = some id →
    call'.placed = some id → i = j
  unrecorded : ∀ j call id, st.adds j = some call → call.placed = some id → ∀ s row, st.rows s = some row →
    row.reactionId ≠ id
  unread : ∀ j call id, st.adds j = some call → call.placed = some id → ∀ k call', st.clears k = some call' →
    call'.entry.reactionId ≠ id

theorem progressInv_empty : ProgressInv .empty :=
  ⟨nofun, nofun, nofun, nofun, nofun, nofun, nofun⟩

variable {env : ProgressEnv} {st st' : ProgressDesk} {e : ProgressEvent}

theorem ProgressInv.back (h : ProgressInv st) (j : ℕ) : ProgressInv { st with adds := Function.update st.adds j none } := by
  have hold : ∀ i call, Function.update st.adds j none i = some call → st.adds i = some call := by
    intro i call hi
    rcases Table.eq_of_update hi with ⟨-, hcall⟩ | ⟨-, hcall⟩
    · cases hcall
    · exact hcall
  exact ⟨h.rowIssued, h.clearIssued, fun i call id hi => h.addIssued i call id (hold i call hi),
    fun i call id hi => h.there i call id (hold i call hi),
    fun i i' call call' id hi hi' => h.sole i i' call call' id (hold i call hi) (hold i' call' hi'),
    fun i call id hi => h.unrecorded i call id (hold i call hi), fun i call id hi => h.unread i call id (hold i call hi)⟩

theorem ProgressInv.unsave (h : ProgressInv st) (s : String) :
    ProgressInv { st with rows := Function.update st.rows s none } := by
  have hold : ∀ s' row, Function.update st.rows s none s' = some row → st.rows s' = some row := by
    intro s' row hs
    rcases Table.eq_of_update hs with ⟨-, hrow⟩ | ⟨-, hrow⟩
    · cases hrow
    · exact hrow
  exact ⟨fun s' row hs => h.rowIssued s' row (hold s' row hs), h.clearIssued, h.addIssued, h.there, h.sole,
    fun j call id hj hid s' row hs => h.unrecorded j call id hj hid s' row (hold s' row hs), h.unread⟩

theorem ProgressInv.begins (h : ProgressInv st) (j : ℕ) {call : AddCall} (hcall : call.placed = none) :
    ProgressInv { st with adds := Function.update st.adds j (some call) } := by
  have hold : ∀ i call' id, Function.update st.adds j (some call) i = some call' → call'.placed = some id →
      st.adds i = some call' := by
    intro i call' id hi hid
    rcases Table.eq_of_update hi with ⟨-, he⟩ | ⟨-, hi'⟩
    · rw [← Option.some.inj he, hcall] at hid
      cases hid
    · exact hi'
  exact ⟨h.rowIssued, h.clearIssued, fun i call' id hi hid => h.addIssued i call' id (hold i call' id hi hid) hid,
    fun i call' id hi hid => h.there i call' id (hold i call' id hi hid) hid,
    fun i i' c c' id hi hi' hid hid' => h.sole i i' c c' id (hold i c id hi hid) (hold i' c' id hi' hid') hid hid',
    fun i call' id hi hid => h.unrecorded i call' id (hold i call' id hi hid) hid,
    fun i call' id hi hid => h.unread i call' id (hold i call' id hi hid) hid⟩

theorem ProgressInv.places (h : ProgressInv st) {j : ℕ} {call : AddCall} {id : String}
    (hnew : id ∉ st.issued) : ProgressInv { st with
      adds := Function.update st.adds j (some { call with placed := some id })
      reactions := st.reactions ++ [⟨call.sessionId, call.sourceMessageId, id⟩]
      issued := id :: st.issued } := by
  have hcases : ∀ {i call' id'}, Function.update st.adds j (some { call with placed := some id }) i = some call' →
      call'.placed = some id' → (i = j ∧ call' = { call with placed := some id } ∧ id' = id) ∨
        (i ≠ j ∧ st.adds i = some call' ∧ id' ∈ st.issued) := by
    intro i call' id' hi hid
    rcases Table.eq_of_update hi with ⟨hij, he⟩ | ⟨hij, hi'⟩
    · obtain rfl := Option.some.inj he
      exact .inl ⟨hij, rfl, (Option.some.inj hid).symm⟩
    · exact .inr ⟨hij, hi', h.addIssued i call' id' hi' hid⟩
  refine ⟨fun s row hs => .tail _ (h.rowIssued s row hs), fun k c hk => .tail _ (h.clearIssued k c hk), ?_, ?_, ?_,
    ?_, ?_⟩
  · intro i call' id' hi hid
    rcases hcases hi hid with ⟨-, -, rfl⟩ | ⟨-, -, hmem⟩
    · exact .head _
    · exact .tail _ hmem
  · intro i call' id' hi hid
    rcases hcases hi hid with ⟨-, rfl, rfl⟩ | ⟨-, hi', -⟩
    · exact List.mem_append_right _ (List.mem_singleton_self _)
    · exact List.mem_append_left _ (h.there i call' id' hi' hid)
  · intro i i' c c' id' hi hi' hid hid'
    rcases hcases hi hid with ⟨hij, -, he⟩ | ⟨-, hold, hmem⟩
    · rcases hcases hi' hid' with ⟨hij', -, -⟩ | ⟨-, -, hmem⟩
      · rw [hij, hij']
      · rw [he] at hmem
        exact absurd hmem hnew
    · rcases hcases hi' hid' with ⟨-, -, he⟩ | ⟨-, hold', -⟩
      · rw [he] at hmem
        exact absurd hmem hnew
      · exact h.sole i i' c c' id' hold hold' hid hid'
  · intro i call' id' hi hid s row hs
    rcases hcases hi hid with ⟨-, -, rfl⟩ | ⟨-, hi', -⟩
    · intro he
      exact hnew (he ▸ h.rowIssued s row hs)
    · exact h.unrecorded i call' id' hi' hid s row hs
  · intro i call' id' hi hid k c hk
    rcases hcases hi hid with ⟨-, -, rfl⟩ | ⟨-, hi', -⟩
    · intro he
      exact hnew (he ▸ h.clearIssued k c hk)
    · exact h.unread i call' id' hi' hid k c hk

theorem ProgressInv.saves (h : ProgressInv st) {j : ℕ} {call : AddCall} {id : String} (hj : st.adds j = some call)
    (hid : call.placed = some id) : ProgressInv { st with
      adds := Function.update st.adds j none
      rows := Function.update st.rows call.sessionId (some (call.reaction id)) } := by
  have hback := h.back j
  have hrow : ∀ {s row}, Function.update st.rows call.sessionId (some (call.reaction id)) s = some row →
      row.reactionId = id ∨ st.rows s = some row := by
    intro s row hs
    rcases Table.eq_of_update hs with ⟨-, he⟩ | ⟨-, hs'⟩
    · rw [← Option.some.inj he]
      exact .inl rfl
    · exact .inr hs'
  refine ⟨fun s row hs => ?_, hback.clearIssued, hback.addIssued, hback.there, hback.sole,
    fun i call' id' hi hid' s row hs => ?_, hback.unread⟩
  · rcases hrow hs with he | hs'
    · rw [he]
      exact h.addIssued j call id hj hid
    · exact h.rowIssued s row hs'
  · rcases hrow hs with he | hs'
    · rintro rfl
      rcases Table.eq_of_update hi with ⟨-, hnone⟩ | ⟨hij, hi'⟩
      · cases hnone
      · rw [he] at hid'
        exact hij (h.sole i j call' call id hi' hj hid' hid)
    · exact hback.unrecorded i call' id' hi hid' s row hs'

theorem ProgressInv.reads (h : ProgressInv st) {s : String} {entry : ProgressReaction} (k : ℕ)
    (hs : st.rows s = some entry) :
    ProgressInv { st with clears := Function.update st.clears k (some ⟨s, entry⟩) } := by
  refine ⟨h.rowIssued, fun k' c hk => ?_, h.addIssued, h.there, h.sole, h.unrecorded, fun j call id hj hid k' c hk => ?_⟩
  · rcases Table.eq_of_update hk with ⟨-, he⟩ | ⟨-, hk'⟩
    · rw [← Option.some.inj he]
      exact h.rowIssued s entry hs
    · exact h.clearIssued k' c hk'
  · rcases Table.eq_of_update hk with ⟨-, he⟩ | ⟨-, hk'⟩
    · rw [← Option.some.inj he]
      exact h.unrecorded j call id hj hid s entry hs
    · exact h.unread j call id hj hid k' c hk'

theorem ProgressInv.removes (h : ProgressInv st) {k : ℕ} {call : ClearCall} (hk : st.clears k = some call) :
    ProgressInv { st with reactions := st.reactions.filter fun r => r.reactionId ≠ call.entry.reactionId } := by
  refine ⟨h.rowIssued, h.clearIssued, h.addIssued, fun j c id hj hid => ?_, h.sole, h.unrecorded, h.unread⟩
  refine List.mem_filter.mpr ⟨h.there j c id hj hid, ?_⟩
  simpa using (h.unread j c id hj hid k call hk).symm

theorem ProgressInv.ends (h : ProgressInv st) (k : ℕ) : ProgressInv { st with clears := Function.update st.clears k none } := by
  have hold : ∀ {k' c}, Function.update st.clears k none k' = some c → st.clears k' = some c := by
    intro k' c hk
    rcases Table.eq_of_update hk with ⟨-, he⟩ | ⟨-, hk'⟩
    · cases he
    · exact hk'
  exact ⟨h.rowIssued, fun k' c hk => h.clearIssued k' c (hold hk), h.addIssued, h.there, h.sole, h.unrecorded,
    fun j call id hj hid k' c hk => h.unread j call id hj hid k' c (hold hk)⟩

/-- What an event does. -/
inductive ProgressMove (env : ProgressEnv) (st : ProgressDesk) : ProgressEvent → ProgressDesk → Prop where
  | idle {j s ch pf th src adapter} (hj : st.adds j = none) :
    ProgressMove env st (.start j s ch pf th src adapter) st
  | begins {j s ch pf th src adapter} (call : AddCall) (hj : st.adds j = none) (hcall : call.placed = none) :
    ProgressMove env st (.start j s ch pf th src adapter) { st with adds := Function.update st.adds j (some call) }
  | places {j id} (call : AddCall) (hj : st.adds j = some call) (hcall : call.placed = none) (hnew : id ∉ st.issued) :
    ProgressMove env st (.place j id) { st with
      adds := Function.update st.adds j (some { call with placed := some id })
      reactions := st.reactions ++ [⟨call.sessionId, call.sourceMessageId, id⟩]
      issued := id :: st.issued }
  | saves {j} (call : AddCall) (id : String) (hj : st.adds j = some call) (hid : call.placed = some id) :
    ProgressMove env st (.addReturns j true) { st with
      adds := Function.update st.adds j none
      rows := Function.update st.rows call.sessionId (some (call.reaction id)) }
  | untold {j told} (call : AddCall) (hj : st.adds j = some call) (hno : call.placed = none ∨ told = false) :
    ProgressMove env st (.addReturns j told) { st with adds := Function.update st.adds j none }
  | throws {j} (call : AddCall) (hj : st.adds j = some call) :
    ProgressMove env st (.addThrows j) { st with adds := Function.update st.adds j none }
  | nothing {k s adapter} (hs : st.rows s = none) : ProgressMove env st (.clear k s adapter) st
  | reads {k s} (entry : ProgressReaction) (hk : st.clears k = none) (hs : st.rows s = some entry) :
    ProgressMove env st (.clear k s true) { st with clears := Function.update st.clears k (some ⟨s, entry⟩) }
  | drops {k s} (entry : ProgressReaction) (hs : st.rows s = some entry) :
    ProgressMove env st (.clear k s false) { st with rows := Function.update st.rows s none }
  | removes {k} (call : ClearCall) (hk : st.clears k = some call) :
    ProgressMove env st (.unplace k)
      { st with reactions := st.reactions.filter fun r => r.reactionId ≠ call.entry.reactionId }
  | deletes {k} (call : ClearCall) (hk : st.clears k = some call) :
    ProgressMove env st (.clearEnds k) { st with
      clears := Function.update st.clears k none
      rows := Function.update st.rows call.sessionId none }

theorem progressStep_move (h : progressStep env st e = some st') : ProgressMove env st e st' := by
  cases e with
  | start j s ch pf th src adapter =>
    simp only [progressStep] at h
    split at h
    · cases h
    · rename_i hj
      have hj' : st.adds j = none := by simpa using hj
      split at h
      · obtain rfl := Option.some.inj h
        exact .idle hj'
      · obtain rfl := Option.some.inj h
        exact .begins _ hj' rfl
  | place j id =>
    obtain ⟨call, hj, hcall⟩ := Option.bind_eq_some_iff.mp h
    split at hcall
    · rename_i hnew
      obtain rfl := Option.some.inj hcall
      exact .places call hj hnew.1 hnew.2.2
    · cases hcall
  | addReturns j told =>
    obtain ⟨call, hj, rfl⟩ := Option.map_eq_some_iff.mp h
    cases hid : call.placed with
    | none => exact .untold call hj (.inl hid)
    | some id =>
      cases told with
      | true => exact .saves call id hj hid
      | false => exact .untold call hj (.inr rfl)
  | addThrows j =>
    obtain ⟨call, hj, rfl⟩ := Option.map_eq_some_iff.mp h
    exact .throws call hj
  | clear k s adapter =>
    simp only [progressStep] at h
    split at h
    · cases h
    · rename_i hk
      split at h
      · rename_i hs
        obtain rfl := Option.some.inj h
        exact .nothing hs
      · rename_i entry hs
        cases adapter with
        | true =>
          obtain rfl := Option.some.inj h
          exact .reads entry (by simpa using hk) hs
        | false =>
          obtain rfl := Option.some.inj h
          exact .drops entry hs
  | unplace k =>
    obtain ⟨call, hk, rfl⟩ := Option.map_eq_some_iff.mp h
    exact .removes call hk
  | clearEnds k =>
    obtain ⟨call, hk, rfl⟩ := Option.map_eq_some_iff.mp h
    exact .deletes call hk

theorem progressInv_step (env : ProgressEnv) (st : ProgressDesk) (e : ProgressEvent) (st' : ProgressDesk)
    (hi : ProgressInv st) (hs : progressStep env st e = some st') : ProgressInv st' := by
  cases progressStep_move hs with
  | idle => exact hi
  | begins call _ hcall => exact hi.begins _ hcall
  | places call _ _ hnew => exact hi.places hnew
  | saves call id hj hid => exact hi.saves hj hid
  | untold => exact hi.back _
  | throws => exact hi.back _
  | nothing => exact hi
  | reads entry _ hrow => exact hi.reads _ hrow
  | drops => exact hi.unsave _
  | removes call hk => exact hi.removes hk
  | deletes call hk => exact (hi.ends _).unsave _

/-! ### Leaks -/

theorem leaked_back (hi : ProgressInv st) (hl : NothingLeaked st) {j : ℕ} {call : AddCall}
    (hj : st.adds j = some call) :
    NothingLeaked { st with adds := Function.update st.adds j none } ↔ call.placed = none := by
  constructor
  · intro h
    by_contra hplaced
    obtain ⟨id, hid⟩ := Option.ne_none_iff_exists'.mp hplaced
    rcases h _ (hi.there j call id hj hid) with ⟨i, c, hc, -, -, hcid⟩ | ⟨row, hrow, -, hrowid⟩
    · rcases Table.eq_of_update hc with ⟨-, he⟩ | ⟨hij, hc'⟩
      · cases he
      · exact hij (hi.sole i j c call id hc' hj hcid hid)
    · exact hi.unrecorded j call id hj hid _ row hrow hrowid
  · intro hnone r hr
    rcases hl r hr with ⟨i, c, hc, hcs, hcm, hcid⟩ | hrec
    · refine .inl ⟨i, c, ?_, hcs, hcm, hcid⟩
      have hij : i ≠ j := by
        rintro rfl
        rw [hj] at hc
        rw [← Option.some.inj hc, hnone] at hcid
        cases hcid
      show Function.update st.adds j none i = some c
      rw [Function.update_of_ne hij, hc]
    · exact .inr hrec

theorem leaked_saves (hi : ProgressInv st) (hl : NothingLeaked st) {j : ℕ} {call : AddCall} {id : String}
    (hj : st.adds j = some call) (hid : call.placed = some id) :
    NothingLeaked { st with
      adds := Function.update st.adds j none
      rows := Function.update st.rows call.sessionId (some (call.reaction id)) } ↔ ¬ st.Live call.sessionId := by
  constructor
  · rintro h ⟨row, hrow, r, hr, hrs, hrid⟩
    have hne : row.reactionId ≠ id := hi.unrecorded j call id hj hid _ row hrow
    rcases h r hr with ⟨i, c, hc, -, -, hcid⟩ | ⟨row', hrow', -, hrowid'⟩
    · rcases Table.eq_of_update hc with ⟨-, he⟩ | ⟨-, hc'⟩
      · cases he
      · exact hi.unrecorded i c r.reactionId hc' hcid _ row hrow hrid.symm
    · change Function.update st.rows call.sessionId (some (call.reaction id)) r.sessionId = some row' at hrow'
      rw [hrs, Function.update_self] at hrow'
      rw [← Option.some.inj hrow'] at hrowid'
      exact hne (hrid.symm.trans hrowid'.symm)
  · intro hlive r hr
    rcases hl r hr with ⟨i, c, hc, hcs, hcm, hcid⟩ | ⟨row, hrow, hrowm, hrowid⟩
    · by_cases hij : i = j
      · -- its own reaction, which the row records now
        subst hij
        obtain rfl := Option.some.inj (hj.symm.trans hc)
        obtain rfl := Option.some.inj (hid.symm.trans hcid)
        refine .inr ⟨call.reaction r.reactionId, ?_, hcm, rfl⟩
        show Function.update st.rows call.sessionId _ r.sessionId = _
        rw [hcs, Function.update_self]
      · refine .inl ⟨i, c, ?_, hcs, hcm, hcid⟩
        show Function.update st.adds j none i = some c
        rw [Function.update_of_ne hij, hc]
    · refine .inr ⟨row, ?_, hrowm, hrowid⟩
      have hs : r.sessionId ≠ call.sessionId := by
        intro he
        exact hlive ⟨row, he ▸ hrow, r, hr, he, hrowid.symm⟩
      show Function.update st.rows call.sessionId _ r.sessionId = some row
      rw [Function.update_of_ne hs, hrow]

theorem leaked_unsave (hi : ProgressInv st) (hl : NothingLeaked st) (s : String) :
    NothingLeaked { st with rows := Function.update st.rows s none } ↔ ¬ st.Live s := by
  constructor
  · rintro h ⟨row, hrow, r, hr, hrs, hrid⟩
    rcases h r hr with ⟨i, c, hc, -, -, hcid⟩ | ⟨row', hrow', -, -⟩
    · exact hi.unrecorded i c r.reactionId hc hcid _ row hrow hrid.symm
    · change Function.update st.rows s none r.sessionId = some row' at hrow'
      rw [hrs, Function.update_self] at hrow'
      cases hrow'
  · intro hlive r hr
    rcases hl r hr with hflight | ⟨row, hrow, hrowm, hrowid⟩
    · exact .inl hflight
    · refine .inr ⟨row, ?_, hrowm, hrowid⟩
      have hs : r.sessionId ≠ s := by
        intro he
        exact hlive ⟨row, he ▸ hrow, r, hr, he, hrowid.symm⟩
      show Function.update st.rows s none r.sessionId = some row
      rw [Function.update_of_ne hs, hrow]

theorem leaked_step (hi : ProgressInv st) (hl : NothingLeaked st) (hs : progressStep env st e = some st') :
    NothingLeaked st' ↔ KeepsRecord st e := by
  cases progressStep_move hs with
  | idle => exact ⟨fun _ => trivial, fun _ => hl⟩
  | @begins j _ _ _ _ _ _ call hj hcall =>
    refine ⟨fun _ => trivial, fun _ r hr => (hl r hr).imp_left ?_⟩
    rintro ⟨i, c, hc, hwhose⟩
    have hij : i ≠ j := by
      rintro rfl
      rw [hj] at hc
      cases hc
    exact ⟨i, c, (Function.update_of_ne hij _ _).trans hc, hwhose⟩
  | @places j id call hj hcall hnew =>
    refine ⟨fun _ => trivial, fun _ r hr => ?_⟩
    rcases List.mem_append.mp hr with hr | hr
    · refine (hl r hr).imp_left ?_
      rintro ⟨i, c, hc, hcs, hcm, hcid⟩
      have hij : i ≠ j := by
        rintro rfl
        rw [hj] at hc
        rw [← Option.some.inj hc, hcall] at hcid
        cases hcid
      exact ⟨i, c, (Function.update_of_ne hij _ _).trans hc, hcs, hcm, hcid⟩
    · rw [List.mem_singleton.mp hr]
      exact .inl ⟨j, _, Function.update_self .., rfl, rfl, rfl⟩
  | @saves j call id hj hid =>
    rw [leaked_saves hi hl hj hid]
    constructor
    · intro hlive c hc _
      obtain rfl := Option.some.inj (hj.symm.trans hc)
      exact ⟨rfl, hlive⟩
    · exact fun h => (h call hj (by simp [hid])).2
  | @untold j told call hj hno =>
    rw [leaked_back hi hl hj]
    constructor
    · intro hnone c hc hplaced
      obtain rfl := Option.some.inj (hj.symm.trans hc)
      exact absurd hnone hplaced
    · intro h
      by_contra hplaced
      have htold := (h call hj hplaced).1
      rcases hno with hnone | hfalse
      · exact hplaced hnone
      · rw [htold] at hfalse
        cases hfalse
  | @throws j call hj =>
    rw [leaked_back hi hl hj]
    constructor
    · intro hnone c hc
      obtain rfl := Option.some.inj (hj.symm.trans hc)
      exact hnone
    · exact fun h => h call hj
  | @nothing k s adapter hrow =>
    refine ⟨fun _ _ => ?_, fun _ => hl⟩
    rintro ⟨row, hrow', -⟩
    rw [hrow] at hrow'
    cases hrow'
  | reads => exact ⟨fun _ => nofun, fun _ => hl⟩
  | @drops k s entry hrow =>
    rw [leaked_unsave hi hl]
    exact ⟨fun hlive _ => hlive, fun h => h rfl⟩
  | @removes k call hk =>
    refine ⟨fun _ => trivial, fun _ r hr => ?_⟩
    exact hl r (List.mem_filter.mp hr).1
  | @deletes k call hk =>
    have hended := leaked_unsave (hi.ends k) (fun r hr => hl r hr) call.sessionId
    rw [hended]
    constructor
    · intro hlive c hc
      obtain rfl := Option.some.inj (hk.symm.trans hc)
      exact hlive
    · exact fun h => h call hk

/-- A completion of the session comes to its end with the event. -/
def Completes (st : ProgressDesk) (s : String) : ProgressEvent → Prop
  | .clear _ s' adapter => s' = s ∧ (adapter = false ∨ st.rows s = none)
  | .clearEnds k => ∃ call, st.clears k = some call ∧ call.sessionId = s
  | _ => False

/-- No start of the session is on its way. -/
def NoStarts (st : ProgressDesk) (s : String) : Prop := ∀ j call, st.adds j = some call → call.sessionId ≠ s

theorem completes_row {s : String} (hs : progressStep env st e = some st') (hc : Completes st s e) :
    st'.rows s = none ∧ st'.adds = st.adds := by
  cases progressStep_move hs with
  | nothing hrow =>
    obtain ⟨rfl, -⟩ := hc
    exact ⟨hrow, rfl⟩
  | reads entry _ hrow =>
    obtain ⟨rfl, hadapter | hnone⟩ := hc
    · cases hadapter
    · rw [hrow] at hnone
      cases hnone
  | drops entry hrow =>
    obtain ⟨rfl, -⟩ := hc
    exact ⟨Function.update_self .., rfl⟩
  | deletes call hk =>
    obtain ⟨c, hk', rfl⟩ := hc
    obtain rfl := Option.some.inj (hk.symm.trans hk')
    exact ⟨Function.update_self .., rfl⟩
  | idle => exact hc.elim
  | begins => exact hc.elim
  | places => exact hc.elim
  | saves => exact hc.elim
  | untold => exact hc.elim
  | throws => exact hc.elim
  | removes => exact hc.elim

/-- Once all starts have come back, a completion leaves none of the session's reactions. -/
def CompletionsClear (env : ProgressEnv) (es : List ProgressEvent) : Prop :=
  ∀ es₁ e es₂ st st' s, es = es₁ ++ e :: es₂ → Trans.run (progressStep env) .empty es₁ = some st →
    progressStep env st e = some st' → Completes st s e → NoStarts st s → ∀ r ∈ st'.reactions, r.sessionId ≠ s

theorem completionsClear_of_always {es : List ProgressEvent}
    (h : Trans.Always (progressStep env) NothingLeaked .empty es) : CompletionsClear env es := by
  intro es₁ e es₂ st st' s hes hrun hstep hdone hquiet r hr hrs
  obtain ⟨hrow, hadds⟩ := completes_row hstep hdone
  have hrun' := Trans.run_snoc hrun hstep
  have hnow := h (es₁ ++ [e]) es₂ st' (by rw [hes, List.append_assoc]; rfl) hrun'
  rcases hnow r hr with ⟨j, call, hj, hcall, -⟩ | ⟨row, hrow', -⟩
  · rw [hadds] at hj
    exact hquiet j call hj (hcall.trans hrs)
  · rw [hrs, hrow] at hrow'
    cases hrow'

/-- **No reaction is leaked.** In every run of starts and clears, with whatever the adapter does: each reaction that
is there is recorded or its start is on its way, and a completion after all starts leaves none; exactly when every
step of the run keeps the record. -/
theorem nothing_leaked_iff {es : List ProgressEvent} (h : Trans.run (progressStep env) .empty es = some st) :
    (Trans.Always (progressStep env) NothingLeaked .empty es ∧ CompletionsClear env es) ↔
      Trans.Along (progressStep env) KeepsRecord .empty es := by
  have hnone : NothingLeaked .empty := nofun
  have hiff := Trans.always_iff_along (progressInv_step env)
    (fun s e s' hi hl hs => @leaked_step env s s' e hi hl hs) progressInv_empty hnone h
  rw [← hiff]
  exact and_iff_left_of_imp completionsClear_of_always

def progressSampleEnv : ProgressEnv := ⟨none, none⟩

/-- A message of session `s` in a Feishu chat. -/
def startReaction (j : ℕ) (messageId : String) : ProgressEvent :=
  .start j "s" "feishu" "feishu:oc_1" none (some messageId) true

/-- One message, and the reply to it. -/
def oneReaction : List ProgressEvent :=
  [startReaction 0 "om_1", .place 0 "r1", .addReturns 0 true, .clear 0 "s" true, .unplace 0, .clearEnds 0]

theorem nothing_leaked_iff_sample :
    Trans.Always (progressStep progressSampleEnv) NothingLeaked .empty oneReaction ∧
      CompletionsClear progressSampleEnv oneReaction := by
  have hrun : ∃ st, Trans.run (progressStep progressSampleEnv) .empty oneReaction = some st := ⟨_, rfl⟩
  obtain ⟨st, hst⟩ := hrun
  refine (nothing_leaked_iff hst).mpr ?_
  -- the row is saved where there was none, and deleted when the reaction is gone
  refine ⟨trivial, fun s₁ h₁ => ?_⟩
  obtain rfl := Option.some.inj h₁
  refine ⟨trivial, fun s₂ h₂ => ?_⟩
  obtain rfl := Option.some.inj h₂
  refine ⟨fun call hcall _ => ⟨rfl, ?_⟩, fun s₃ h₃ => ?_⟩
  · obtain rfl := Option.some.inj hcall
    rintro ⟨row, hrow, -⟩
    cases hrow
  obtain rfl := Option.some.inj h₃
  refine ⟨nofun, fun s₄ h₄ => ?_⟩
  obtain rfl := Option.some.inj h₄
  refine ⟨trivial, fun s₅ h₅ => ?_⟩
  obtain rfl := Option.some.inj h₅
  refine ⟨fun call hcall => ?_, fun _ _ => trivial⟩
  rintro ⟨row, -, r, hr, -⟩
  have hgone : r ∈ ([] : List PlacedReaction) := hr
  cases hgone

/-- Two messages of one session, whose starts overlap. -/
def overlappingStarts : List ProgressEvent :=
  [startReaction 0 "om_1", startReaction 1 "om_2", .place 0 "r1", .addReturns 0 true, .place 1 "r2",
    .addReturns 1 true, .clear 0 "s" true, .unplace 0]

/-- The second overwrites the row of the first, and the completion after both leaves a reaction that nobody has on
record. -/
theorem overlapping_starts : ∃ st st',
    Trans.run (progressStep progressSampleEnv) .empty overlappingStarts = some st ∧
      progressStep progressSampleEnv st (.clearEnds 0) = some st' ∧ Completes st "s" (.clearEnds 0) ∧
      st.adds 0 = none ∧ st.adds 1 = none ∧ st'.reactions = [⟨"s", "om_1", "r1"⟩] ∧ ¬ NothingLeaked st ∧
      ¬ NothingLeaked st' := by
  refine ⟨_, _, rfl, rfl, ⟨_, rfl, rfl⟩, rfl, rfl, rfl, fun h => ?_, fun h => ?_⟩
  · rcases h ⟨"s", "om_1", "r1"⟩ (.head _) with ⟨j, call, hj, -⟩ | ⟨row, hrow, hmessage, -⟩
    · by_cases h0 : j = 0
      · subst h0
        cases hj
      · by_cases h1 : j = 1
        · subst h1
          cases hj
        · simp [Function.update_of_ne h0, Function.update_of_ne h1, ProgressDesk.empty] at hj
    · obtain rfl := Option.some.inj hrow
      revert hmessage
      decide
  · rcases h ⟨"s", "om_1", "r1"⟩ (.head _) with ⟨j, call, hj, -⟩ | ⟨row, hrow, -⟩
    · by_cases h0 : j = 0
      · subst h0
        cases hj
      · by_cases h1 : j = 1
        · subst h1
          cases hj
        · simp [Function.update_of_ne h0, Function.update_of_ne h1, ProgressDesk.empty] at hj
    · cases hrow

end AgentDesk
