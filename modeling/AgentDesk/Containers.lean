/-
# One container per session

`src/container-runner.ts`: `wakeContainer` starts a container for a session
unless one is registered or on its way, up to a cap over both;
`spawnContainer` registers the process under its session; the process's `error`
and `close` handlers release the session's entry.

A spawned process is live until the host is told that it could not be started
(`error`) or that it ended (`close`). For one failed spawn both arrive. An
`error` also arrives for a process that could not be killed, which goes on
running. The release is by session, not by process (`releaseContainer`), so two
of these events hit an entry that is not theirs to take: the late `close` of a
failed spawn, when the session's next process is registered already, and the
`error` of a process that is still running. Either leaves a live process without
an entry, and the next wake starts a second one (`successor_released`).

* `containers_unique_iff`: over every run, each session has at most one live
  process, no more than the cap are live, and the registered sessions are those
  with a live process, exactly when neither of the two events happens.

The admission queue, the exit labels and what a spawn prepares are left out: a
queued session comes back as one more wake.
-/
import Mathlib.Data.List.Nodup
import Mathlib.Data.List.Perm.Subperm
import AgentDesk.Table
import AgentDesk.Trans

namespace AgentDesk

/-- What the host was told about a process. -/
inductive ProcessState where
  | live
  /-- `error`: it could not be started; its `close` is still to come. -/
  | failed
  | closed
  deriving DecidableEq, Repr

structure Process where
  sessionId : String
  state : ProcessState
  deriving DecidableEq, Repr

/-- How far a wake is. -/
inductive Wake where
  | preparing
  /-- The spawn is through, or given up; the promise is about to settle. -/
  | done
  deriving DecidableEq, Repr

/-- `activeContainers`, `wakePromises`, and every process started so far. -/
structure Runner where
  active : List (String × ℕ)
  wakes : List (String × Wake)
  processes : List Process

def Runner.empty : Runner := ⟨[], [], []⟩

inductive RunnerEvent where
  | wake (sessionId : String)
  /-- No agent group, or a throw before the spawn. -/
  | spawnFailed (sessionId : String)
  | spawn (sessionId : String)
  /-- The `finally` of the wake's promise. -/
  | settle (sessionId : String)
  | kill (sessionId : String)
  /-- `error` of a process that could not be started. -/
  | spawnError (process : ℕ)
  /-- `error` of a process that could not be killed. -/
  | killError (process : ℕ)
  | close (process : ℕ)

/-- The process registered for a session. -/
def Runner.entry (r : Runner) (sessionId : String) : Option ℕ :=
  (Table.find Prod.fst r.active sessionId).map (·.2)

def shouldAdmitWake (activeCount inflightCount cap : ℕ) : Bool := activeCount + inflightCount < cap

def registerContainer (registry : List (String × ℕ)) (sessionId : String) (process : ℕ) : List (String × ℕ) :=
  Table.upsert Prod.fst registry (sessionId, process) fun _ => (sessionId, process)

def releaseContainer (registry : List (String × ℕ)) (sessionId : String) : List (String × ℕ) :=
  Table.delete Prod.fst registry sessionId

/-- The handlers of `error` and `close`: the session's entry goes, whoever's it is. -/
def Runner.exit (r : Runner) (i : ℕ) (p : Process) (state : ProcessState) : Runner :=
  { r with active := releaseContainer r.active p.sessionId
           processes := r.processes.set i { p with state := state } }

def runnerStep (cap : ℕ) (r : Runner) : RunnerEvent → Option Runner
  | .wake s =>
    if (r.entry s).isSome then some r
    else if (Table.find Prod.fst r.wakes s).isSome then some r
    else if shouldAdmitWake r.active.length r.wakes.length cap then
      some { r with wakes := r.wakes ++ [(s, .preparing)] }
    else some r
  | .spawnFailed s =>
    if Table.find Prod.fst r.wakes s = some (s, .preparing) then
      some { r with wakes := Table.update Prod.fst r.wakes s fun _ => (s, .done) }
    else none
  | .spawn s =>
    if Table.find Prod.fst r.wakes s = some (s, .preparing) then
      some { active := registerContainer r.active s r.processes.length
             wakes := Table.update Prod.fst r.wakes s fun _ => (s, .done)
             processes := r.processes ++ [⟨s, .live⟩] }
    else none
  | .settle s =>
    if Table.find Prod.fst r.wakes s = some (s, .done) then
      some { r with wakes := Table.delete Prod.fst r.wakes s }
    else none
  -- `stopContainer` asks the process to end; that it did is its `close`
  | .kill _ => some r
  | .spawnError i => match r.processes[i]? with
    | some p => if p.state = .live then some (r.exit i p .failed) else none
    | none => none
  | .killError i => match r.processes[i]? with
    | some p => if p.state = .live then some (r.exit i p .live) else none
    | none => none
  | .close i => match r.processes[i]? with
    | some p => if p.state ≠ .closed then some (r.exit i p .closed) else none
    | none => none

/-- Everything a step can do, with what it needs. -/
inductive RunnerMove (cap : ℕ) (r : Runner) : RunnerEvent → Runner → Prop
  | turnedAway (s : String) : RunnerMove cap r (.wake s) r
  | admitted {s : String} (hentry : r.entry s = none) (hroom : r.active.length + r.wakes.length < cap) :
      RunnerMove cap r (.wake s) { r with wakes := r.wakes ++ [(s, .preparing)] }
  | spawnFailed {s : String} (hw : Table.find Prod.fst r.wakes s = some (s, .preparing)) :
      RunnerMove cap r (.spawnFailed s)
        { r with wakes := Table.update Prod.fst r.wakes s fun _ => (s, .done) }
  | spawn {s : String} (hw : Table.find Prod.fst r.wakes s = some (s, .preparing)) :
      RunnerMove cap r (.spawn s)
        { active := registerContainer r.active s r.processes.length
          wakes := Table.update Prod.fst r.wakes s fun _ => (s, .done)
          processes := r.processes ++ [⟨s, .live⟩] }
  | settle (s : String) : RunnerMove cap r (.settle s) { r with wakes := Table.delete Prod.fst r.wakes s }
  | kill (s : String) : RunnerMove cap r (.kill s) r
  | spawnError {i : ℕ} {p : Process} (hp : r.processes[i]? = some p) (hlive : p.state = .live) :
      RunnerMove cap r (.spawnError i) (r.exit i p .failed)
  | killError {i : ℕ} {p : Process} (hp : r.processes[i]? = some p) :
      RunnerMove cap r (.killError i) (r.exit i p .live)
  | close {i : ℕ} {p : Process} (hp : r.processes[i]? = some p) :
      RunnerMove cap r (.close i) (r.exit i p .closed)

theorem runnerStep_move {cap : ℕ} {r r' : Runner} {e : RunnerEvent} (hs : runnerStep cap r e = some r') :
    RunnerMove cap r e r' := by
  cases e with
  | wake s =>
    simp only [runnerStep] at hs
    split at hs
    · obtain rfl := Option.some.inj hs
      exact .turnedAway s
    rename_i hentry
    split at hs
    · obtain rfl := Option.some.inj hs
      exact .turnedAway s
    split at hs
    · rename_i hadmit
      obtain rfl := Option.some.inj hs
      exact .admitted (by simpa using hentry) (by simpa [shouldAdmitWake] using hadmit)
    · obtain rfl := Option.some.inj hs
      exact .turnedAway s
  | spawnFailed s =>
    simp only [runnerStep] at hs
    split at hs
    · rename_i hw
      obtain rfl := Option.some.inj hs
      exact .spawnFailed hw
    · cases hs
  | spawn s =>
    simp only [runnerStep] at hs
    split at hs
    · rename_i hw
      obtain rfl := Option.some.inj hs
      exact .spawn hw
    · cases hs
  | settle s =>
    simp only [runnerStep] at hs
    split at hs
    · obtain rfl := Option.some.inj hs
      exact .settle s
    · cases hs
  | kill s =>
    obtain rfl := Option.some.inj hs
    exact .kill s
  | spawnError i =>
    simp only [runnerStep] at hs
    split at hs
    · rename_i p hp
      split at hs
      · rename_i hlive
        obtain rfl := Option.some.inj hs
        exact .spawnError hp hlive
      · cases hs
    · cases hs
  | killError i =>
    simp only [runnerStep] at hs
    split at hs
    · rename_i p hp
      split at hs
      · obtain rfl := Option.some.inj hs
        exact .killError hp
      · cases hs
    · cases hs
  | close i =>
    simp only [runnerStep] at hs
    split at hs
    · rename_i p hp
      split at hs
      · obtain rfl := Option.some.inj hs
        exact .close hp
      · cases hs
    · cases hs

/-! ### The property and the condition -/

/-- Process `i` is live, of session `s`. -/
def Runner.Live (r : Runner) (i : ℕ) (s : String) : Prop := r.processes[i]? = some ⟨s, .live⟩

/-- The live processes. -/
def Runner.live (r : Runner) : List ℕ :=
  (List.range r.processes.length).filter fun i => r.processes[i]?.any (·.state = .live)

/-- At most one live process for each session, at most `cap` in all, and an entry exactly for the
sessions that have one. -/
structure OneLiveEach (cap : ℕ) (r : Runner) : Prop where
  one : ∀ i j s, r.Live i s → r.Live j s → i = j
  cap : r.live.length ≤ cap
  entries : ∀ s, (r.entry s).isSome = true ↔ ∃ i, r.Live i s

/-- The event is not a `close` that finds the entry of another process, nor the `error` of a running
process. -/
def OwnEntryOnly (r : Runner) : RunnerEvent → Prop
  | .close i => ∀ p, r.processes[i]? = some p → ∀ j, r.entry p.sessionId = some j → j = i
  | .killError _ => False
  | _ => True

/-! ### What holds in every run -/

def Runner.preparing (r : Runner) : List (String × Wake) := r.wakes.filter (·.2 = .preparing)

/-- Registered processes are live ones of their session; a session being woken has none; and what is
registered or being prepared fits the cap. -/
structure RunnerInv (cap : ℕ) (r : Runner) : Prop where
  registered : ∀ s i, r.entry s = some i → r.Live i s
  waking : ∀ w ∈ r.preparing, r.entry w.1 = none
  room : r.active.length + r.preparing.length ≤ cap

variable {cap : ℕ} {r r' : Runner}

theorem runnerInv_empty (cap : ℕ) : RunnerInv cap Runner.empty := by
  refine ⟨?_, ?_, ?_⟩ <;> simp [Runner.empty, Runner.entry, Runner.preparing, Table.find]

theorem entry_release (registry : List (String × ℕ)) (s s' : String) :
    (Table.find Prod.fst (releaseContainer registry s) s').map (·.2) =
      if s' = s then none else (Table.find Prod.fst registry s').map (·.2) := by
  unfold releaseContainer
  rw [Table.find_delete]
  split <;> rfl

theorem entry_register (registry : List (String × ℕ)) (s s' : String) (i : ℕ)
    (h : Table.find Prod.fst registry s = none) :
    (Table.find Prod.fst (registerContainer registry s i) s').map (·.2) =
      if s' = s then some i else (Table.find Prod.fst registry s').map (·.2) := by
  have he : registerContainer registry s i = registry ++ [(s, i)] := by
    simp [registerContainer, Table.upsert, h]
  rw [he, Table.find_append_new h]
  split <;> rfl

theorem Runner.entry_exit (r : Runner) (i : ℕ) (p : Process) (st : ProcessState) (s : String) :
    (r.exit i p st).entry s = if s = p.sessionId then none else r.entry s :=
  entry_release r.active p.sessionId s

theorem Runner.live_exit_of_ne {i j : ℕ} (hne : j ≠ i) (p : Process) (st : ProcessState) (s : String) :
    (r.exit i p st).Live j s ↔ r.Live j s := by
  simp [Runner.Live, Runner.exit, hne.symm]

theorem Runner.live_exit_self {i : ℕ} {p : Process} (hp : r.processes[i]? = some p) {st : ProcessState}
    {s : String} : (r.exit i p st).Live i s ↔ p.sessionId = s ∧ st = .live := by
  obtain ⟨hlt, -⟩ := List.getElem?_eq_some_iff.mp hp
  simp [Runner.Live, Runner.exit, hlt]

theorem releaseContainer_length (registry : List (String × ℕ)) (s : String) :
    (releaseContainer registry s).length ≤ registry.length :=
  List.length_filter_le ..

theorem RunnerInv.exit (hI : RunnerInv cap r) {i : ℕ} {p : Process} (hp : r.processes[i]? = some p)
    (st : ProcessState) : RunnerInv cap (r.exit i p st) := by
  refine ⟨fun s j hj => ?_, fun w hw => ?_, ?_⟩
  · rw [Runner.entry_exit] at hj
    split at hj
    · cases hj
    · rename_i hs
      have hlive := hI.registered s j hj
      have hne : j ≠ i := by
        rintro rfl
        rw [Runner.Live, hp] at hlive
        exact hs (congrArg Process.sessionId (Option.some.inj hlive)).symm
      exact (Runner.live_exit_of_ne hne p st s).mpr hlive
  · rw [Runner.entry_exit]
    split
    · rfl
    · exact hI.waking w hw
  · have hle := releaseContainer_length r.active p.sessionId
    have := hI.room
    change (releaseContainer r.active p.sessionId).length + r.preparing.length ≤ cap
    omega

theorem preparing_done (wakes : List (String × Wake)) (s : String) :
    (Table.update Prod.fst wakes s fun _ => (s, Wake.done)).filter (·.2 = .preparing) =
      (wakes.filter (·.2 = .preparing)).filter (·.1 ≠ s) := by
  unfold Table.update
  rw [List.filter_map, List.filter_filter]
  have hp : ((fun w : String × Wake => decide (w.2 = .preparing)) ∘ fun w => if w.1 = s then (s, .done) else w) =
      fun w => decide (w.1 ≠ s) && decide (w.2 = .preparing) := by
    funext w
    by_cases hw : w.1 = s <;> simp [hw]
  rw [hp]
  conv_rhs => rw [← List.map_id (List.filter _ wakes)]
  refine List.map_congr_left fun w hw => ?_
  have hboth := (List.mem_filter.mp hw).2
  simp only [Bool.and_eq_true, decide_eq_true_eq] at hboth
  simp [hboth.1]

theorem RunnerInv.preparing_lt {s : String} (hw : Table.find Prod.fst r.wakes s = some (s, .preparing)) :
    ((Table.update Prod.fst r.wakes s fun _ => (s, Wake.done)).filter (·.2 = .preparing)).length <
      r.preparing.length := by
  rw [preparing_done]
  refine List.length_filter_lt_length_iff_exists.mpr ⟨(s, .preparing), ?_, by simp⟩
  exact List.mem_filter.mpr ⟨(Table.find_spec hw).1, by simp⟩

theorem Runner.live_append (r : Runner) (p : Process) {j : ℕ} {s : String} :
    (Runner.mk r.active r.wakes (r.processes ++ [p])).Live j s ↔
      r.Live j s ∨ (j = r.processes.length ∧ p = ⟨s, .live⟩) := by
  simp only [Runner.Live, List.getElem?_append]
  split
  · rename_i hlt
    constructor
    · exact .inl
    · rintro (h | ⟨rfl, -⟩)
      · exact h
      · exact (Nat.lt_irrefl _ hlt).elim
  · rename_i hge
    have hnone : r.processes[j]? = none := List.getElem?_eq_none (Nat.le_of_not_lt hge)
    rw [hnone]
    constructor
    · intro h
      obtain ⟨hlt, hget⟩ := List.getElem?_eq_some_iff.mp h
      simp only [List.length_singleton] at hlt
      exact .inr ⟨by omega, by simpa using hget⟩
    · rintro (h | ⟨rfl, rfl⟩)
      · cases h
      · simp

theorem RunnerInv.unregistered (hI : RunnerInv cap r) {s : String}
    (hw : Table.find Prod.fst r.wakes s = some (s, .preparing)) : Table.find Prod.fst r.active s = none := by
  have hmem : (s, Wake.preparing) ∈ r.preparing := List.mem_filter.mpr ⟨(Table.find_spec hw).1, by simp⟩
  have hnone := hI.waking _ hmem
  simpa [Runner.entry] using hnone

theorem Runner.mem_preparing_done {s : String} {w : String × Wake}
    (hw : w ∈ (Table.update Prod.fst r.wakes s fun _ => (s, Wake.done)).filter (·.2 = .preparing)) :
    w ∈ r.preparing ∧ w.1 ≠ s := by
  rw [preparing_done] at hw
  obtain ⟨hw, hne⟩ := List.mem_filter.mp hw
  exact ⟨hw, by simpa using hne⟩

theorem RunnerInv.admitted (hI : RunnerInv cap r) {s : String} (hentry : r.entry s = none)
    (hroom : r.active.length + r.wakes.length < cap) :
    RunnerInv cap { r with wakes := r.wakes ++ [(s, .preparing)] } := by
  have happ : Runner.preparing { r with wakes := r.wakes ++ [(s, .preparing)] } =
      r.preparing ++ [(s, Wake.preparing)] := by
    simp [Runner.preparing]
  refine ⟨hI.registered, fun w hw => ?_, ?_⟩
  · rw [happ] at hw
    rcases List.mem_append.mp hw with hw | hw
    · exact hI.waking w hw
    · rw [List.mem_singleton.mp hw]
      exact hentry
  · have hlen : r.preparing.length ≤ r.wakes.length := List.length_filter_le ..
    rw [happ, List.length_append, List.length_singleton]
    change r.active.length + (r.preparing.length + 1) ≤ cap
    omega

theorem RunnerInv.spawnFailed (hI : RunnerInv cap r) {s : String}
    (hw : Table.find Prod.fst r.wakes s = some (s, .preparing)) :
    RunnerInv cap { r with wakes := Table.update Prod.fst r.wakes s fun _ => (s, .done) } := by
  refine ⟨hI.registered, fun w hw' => hI.waking w (Runner.mem_preparing_done hw').1, ?_⟩
  have hlt := RunnerInv.preparing_lt hw
  have hroom := hI.room
  change r.active.length + ((Table.update Prod.fst r.wakes s fun _ => (s, Wake.done)).filter
    (·.2 = .preparing)).length ≤ cap
  omega

theorem RunnerInv.settle (hI : RunnerInv cap r) (s : String) :
    RunnerInv cap { r with wakes := Table.delete Prod.fst r.wakes s } := by
  have hsub : ((Table.delete Prod.fst r.wakes s).filter (·.2 = .preparing)).Sublist r.preparing :=
    List.filter_sublist.filter _
  refine ⟨hI.registered, fun w hw => hI.waking w (hsub.subset hw), ?_⟩
  have hroom := hI.room
  have hlen := hsub.length_le
  change r.active.length + ((Table.delete Prod.fst r.wakes s).filter (·.2 = .preparing)).length ≤ cap
  omega

theorem RunnerInv.spawn (hI : RunnerInv cap r) {s : String}
    (hw : Table.find Prod.fst r.wakes s = some (s, .preparing)) :
    RunnerInv cap { active := registerContainer r.active s r.processes.length
                    wakes := Table.update Prod.fst r.wakes s fun _ => (s, .done)
                    processes := r.processes ++ [⟨s, .live⟩] } := by
  have hnone := hI.unregistered hw
  have hentry : ∀ s', (Table.find Prod.fst (registerContainer r.active s r.processes.length) s').map (·.2) =
      if s' = s then some r.processes.length else r.entry s' := fun s' =>
    entry_register r.active s s' r.processes.length hnone
  refine ⟨fun s' i hi => ?_, fun w hw' => ?_, ?_⟩
  · rw [Runner.entry, hentry] at hi
    refine (Runner.live_append r ⟨s, .live⟩).mpr ?_
    split at hi
    · rename_i hs
      exact .inr ⟨(Option.some.inj hi).symm, by rw [hs]⟩
    · exact .inl (hI.registered s' i hi)
  · obtain ⟨hmem, hne⟩ := Runner.mem_preparing_done hw'
    rw [Runner.entry, hentry, if_neg hne]
    exact hI.waking w hmem
  · have hlt := RunnerInv.preparing_lt hw
    have hroom := hI.room
    have hlen : (registerContainer r.active s r.processes.length).length = r.active.length + 1 := by
      simp [registerContainer, Table.upsert, hnone]
    change (registerContainer r.active s r.processes.length).length +
      ((Table.update Prod.fst r.wakes s fun _ => (s, Wake.done)).filter (·.2 = .preparing)).length ≤ cap
    omega

theorem runnerInv_step (cap : ℕ) (r : Runner) (e : RunnerEvent) (r' : Runner) (hI : RunnerInv cap r)
    (hs : runnerStep cap r e = some r') : RunnerInv cap r' := by
  cases runnerStep_move hs with
  | turnedAway s => exact hI
  | admitted hentry hroom => exact hI.admitted hentry hroom
  | spawnFailed hw => exact hI.spawnFailed hw
  | spawn hw => exact hI.spawn hw
  | settle s => exact hI.settle s
  | kill s => exact hI
  | spawnError hp hlive => exact hI.exit hp _
  | killError hp => exact hI.exit hp _
  | close hp => exact hI.exit hp _

/-! ### Live processes and their entries -/

/-- Every live process is the one registered for its session. -/
def AllRegistered (r : Runner) : Prop := ∀ i s, r.Live i s → r.entry s = some i

theorem Runner.mem_live {i : ℕ} : i ∈ r.live ↔ ∃ s, r.Live i s := by
  simp only [Runner.live, List.mem_filter, List.mem_range, Runner.Live]
  constructor
  · rintro ⟨hlt, hany⟩
    cases hp : r.processes[i]? with
    | none =>
      rw [hp] at hany
      cases hany
    | some p =>
      have hlive : p.state = .live := by simpa [hp] using hany
      exact ⟨p.sessionId, by rw [← hlive]⟩
  · rintro ⟨s, hs⟩
    obtain ⟨hlt, -⟩ := List.getElem?_eq_some_iff.mp hs
    exact ⟨hlt, by simp [hs]⟩

theorem live_length_le (h : AllRegistered r) : r.live.length ≤ r.active.length := by
  have hnd : r.live.Nodup := List.nodup_range.filter _
  have hsub : ∀ i ∈ r.live, i ∈ r.active.map Prod.snd := by
    intro i hi
    obtain ⟨s, hs⟩ := Runner.mem_live.mp hi
    obtain ⟨e, he, rfl⟩ := Option.map_eq_some_iff.mp (h i s hs)
    exact List.mem_map.mpr ⟨e, (Table.find_spec he).1, rfl⟩
  have hle := (hnd.subperm hsub).length_le
  simpa using hle

theorem RunnerInv.oneLiveEach_iff (hI : RunnerInv cap r) : OneLiveEach cap r ↔ AllRegistered r := by
  constructor
  · intro h i s hi
    obtain ⟨j, hj⟩ := Option.isSome_iff_exists.mp ((h.entries s).mpr ⟨i, hi⟩)
    have hij : i = j := h.one i j s hi (hI.registered s j hj)
    rw [hj, hij]
  · intro h
    refine ⟨fun i j s hi hj => ?_, ?_, fun s => ⟨fun hs => ?_, fun ⟨i, hi⟩ => ?_⟩⟩
    · exact Option.some.inj ((h i s hi).symm.trans (h j s hj))
    · have hlen := live_length_le h
      have hroom := hI.room
      omega
    · obtain ⟨i, hi⟩ := Option.isSome_iff_exists.mp hs
      exact ⟨i, hI.registered s i hi⟩
    · rw [h i s hi]
      rfl

/-- A handler keeps every live process registered exactly when it ends its own process, if that was
live, and finds no other's entry. -/
theorem allRegistered_exit (hI : RunnerInv cap r) (h : AllRegistered r) {i : ℕ} {p : Process}
    (hp : r.processes[i]? = some p) (st : ProcessState) :
    AllRegistered (r.exit i p st) ↔ st ≠ .live ∧ ∀ j, r.entry p.sessionId = some j → j = i := by
  constructor
  · intro h'
    constructor
    · intro hlive
      have hself := h' i p.sessionId ((Runner.live_exit_self hp).mpr ⟨rfl, hlive⟩)
      rw [Runner.entry_exit, if_pos rfl] at hself
      cases hself
    · intro j hj
      by_contra hne
      have hjlive := (Runner.live_exit_of_ne hne p st _).mpr (hI.registered p.sessionId j hj)
      have hother := h' j p.sessionId hjlive
      rw [Runner.entry_exit, if_pos rfl] at hother
      cases hother
  · rintro ⟨hdead, hown⟩ j s hj
    have hne : j ≠ i := by
      rintro rfl
      exact hdead ((Runner.live_exit_self hp).mp hj).2
    have hjlive := h j s ((Runner.live_exit_of_ne hne p st s).mp hj)
    rw [Runner.entry_exit, if_neg]
    · exact hjlive
    · rintro rfl
      exact hne (hown j hjlive)

theorem allRegistered_spawn (hI : RunnerInv cap r) (h : AllRegistered r) {s : String}
    (hw : Table.find Prod.fst r.wakes s = some (s, .preparing)) :
    AllRegistered { active := registerContainer r.active s r.processes.length
                    wakes := Table.update Prod.fst r.wakes s fun _ => (s, .done)
                    processes := r.processes ++ [⟨s, .live⟩] } := by
  have hnone := hI.unregistered hw
  intro i s' hi
  rw [Runner.entry, entry_register r.active s s' _ hnone]
  rcases (Runner.live_append r ⟨s, .live⟩).mp hi with hi | ⟨rfl, he⟩
  · have hentry := h i s' hi
    rw [if_neg]
    · exact hentry
    · rintro rfl
      rw [Runner.entry, hnone] at hentry
      cases hentry
  · rw [if_pos (congrArg Process.sessionId he).symm]

theorem allRegistered_step (r : Runner) (e : RunnerEvent) (r' : Runner) (hI : RunnerInv cap r)
    (h : AllRegistered r) (hs : runnerStep cap r e = some r') : AllRegistered r' ↔ OwnEntryOnly r e := by
  cases runnerStep_move hs with
  | turnedAway s => exact ⟨fun _ => trivial, fun _ => h⟩
  | admitted hentry hroom => exact ⟨fun _ => trivial, fun _ => h⟩
  | spawnFailed hw => exact ⟨fun _ => trivial, fun _ => h⟩
  | spawn hw => exact ⟨fun _ => trivial, fun _ => allRegistered_spawn hI h hw⟩
  | settle s => exact ⟨fun _ => trivial, fun _ => h⟩
  | kill s => exact ⟨fun _ => trivial, fun _ => h⟩
  | @spawnError i p hp hlive =>
    rw [allRegistered_exit hI h hp]
    refine ⟨fun _ => trivial, fun _ => ⟨by simp, fun j hj => ?_⟩⟩
    -- the process was live, so the entry is its own
    have hi : r.Live i p.sessionId := by rw [Runner.Live, hp, ← hlive]
    exact (Option.some.inj ((h i _ hi).symm.trans hj)).symm
  | killError hp =>
    rw [allRegistered_exit hI h hp]
    exact ⟨fun hc => hc.1 rfl, fun hc => hc.elim⟩
  | @close i p hp =>
    rw [allRegistered_exit hI h hp]
    refine ⟨fun hc q hq => ?_, fun hc => ⟨by simp, hc p hp⟩⟩
    obtain rfl : p = q := Option.some.inj (hp.symm.trans hq)
    exact hc.2

/-- **When containers are unique.** Over every run of wakes, spawns, kills and the events of the
processes: in every state each session has at most one live process, no more than the cap are live,
and the entries are those of the sessions with a live process, exactly when no `close` finds the
entry of another process and no `error` comes from a process that is still running. -/
theorem containers_unique_iff (cap : ℕ) {es : List RunnerEvent} {r : Runner}
    (hrun : Trans.run (runnerStep cap) Runner.empty es = some r) :
    Trans.Always (runnerStep cap) (OneLiveEach cap) Runner.empty es ↔
      Trans.Along (runnerStep cap) OwnEntryOnly Runner.empty es := by
  have hempty : AllRegistered Runner.empty := by
    intro i s h
    simp [Runner.Live, Runner.empty] at h
  refine Trans.always_iff_along (runnerInv_step cap) (fun s e s' hI hP hs => ?_) (runnerInv_empty cap)
    ((runnerInv_empty cap).oneLiveEach_iff.mpr hempty) hrun
  rw [(runnerInv_step cap s e s' hI hs).oneLiveEach_iff]
  exact allRegistered_step s e s' hI (hI.oneLiveEach_iff.mp hP) hs

/-- Two sessions woken under a cap of one, the first container ends, the second starts. -/
theorem containers_unique_iff_sample :
    ∃ r, Trans.run (runnerStep 1) Runner.empty
        [.wake "a", .wake "b", .spawn "a", .settle "a", .close 0, .wake "b", .spawn "b"] = some r ∧
      r.live = [1] ∧
      (Trans.Always (runnerStep 1) (OneLiveEach 1) Runner.empty
          [.wake "a", .wake "b", .spawn "a", .settle "a", .close 0, .wake "b", .spawn "b"] ↔
        Trans.Along (runnerStep 1) OwnEntryOnly Runner.empty
          [.wake "a", .wake "b", .spawn "a", .settle "a", .close 0, .wake "b", .spawn "b"]) := by
  have hrun : Trans.run (runnerStep 1) Runner.empty
      [.wake "a", .wake "b", .spawn "a", .settle "a", .close 0, .wake "b", .spawn "b"] = some _ := rfl
  exact ⟨_, hrun, rfl, containers_unique_iff 1 hrun⟩

/-- The first process of session `a` cannot be started; the second is registered before the first
one's `close` arrives, which takes the entry; the next wake starts a third. -/
theorem successor_released :
    ∃ r, Trans.run (runnerStep 10) Runner.empty
        [.wake "a", .spawn "a", .settle "a", .spawnError 0, .wake "a", .spawn "a", .settle "a", .close 0,
         .wake "a", .spawn "a"] = some r ∧
      r.Live 1 "a" ∧ r.Live 2 "a" ∧ ¬ OneLiveEach 10 r := by
  have hrun : Trans.run (runnerStep 10) Runner.empty
      [.wake "a", .spawn "a", .settle "a", .spawnError 0, .wake "a", .spawn "a", .settle "a", .close 0,
       .wake "a", .spawn "a"] = some _ := rfl
  refine ⟨_, hrun, rfl, rfl, fun h => ?_⟩
  have htwo : (1 : ℕ) = 2 := h.one 1 2 "a" rfl rfl
  cases htwo

end AgentDesk
