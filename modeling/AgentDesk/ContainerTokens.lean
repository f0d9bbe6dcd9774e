/-
# What a dead container leaves its successor

A spawn (`src/container-runner.ts`) prepares, mints a token for the signing proxy,
waits for the container's arguments, then starts the process, registers it and
marks the session as running. The process's `error` and `close` handlers release
the entry, mark the session as stopped and revoke its tokens, all three by
session. A failed spawn has both events, and a wake that comes between them has
minted its token, or started its container, when the second arrives.

The processes and their events are those of `Containers`, the token table that
of `ProxyTokens`; here they are put together, with the status column. A kill asks
the registered process to end and changes none of the three. A group without a
signing key spawns without minting.

* `successors_spared_iff`: in a run, the handlers of a container take neither the
  token nor the status nor the entry of a later one exactly when each `error` and
  `close` comes while no later container of its session runs and no wake of the
  session has minted its token.
* `successor_disabled`: the late `close` of a failed spawn takes all three.
-/
import Mathlib.Logic.Function.Basic
import AgentDesk.Containers
import AgentDesk.ProxyTokens

namespace AgentDesk

open Trans

/-! ### The host -/

inductive ContainerStatus where
  | running | idle | stopped
  deriving DecidableEq, Repr

structure ContainerHost where
  runner : Runner
  /-- The table of proxy tokens. -/
  rows : List TokenRow
  /-- The sessions' `container_status`. -/
  status : String → ContainerStatus
  /-- The token of a wake that has minted it and not started its process. -/
  prepared : List (String × MintedProxyToken)
  /-- The token of each process, in the order of the processes. -/
  tokens : List (Option MintedProxyToken)

def ContainerHost.empty : ContainerHost := ⟨Runner.empty, [], fun _ => .stopped, [], []⟩

inductive ContainerEvent where
  /-- A wake on its way mints. A throw is the wake's `spawnFailed`. -/
  | mint (sessionId agentGroupId : String) (ttlMs now : ℤ) (jti secret : String)
  | runner (e : RunnerEvent) (now : ℤ)

def ContainerHost.preparedToken (h : ContainerHost) (sessionId : String) : Option MintedProxyToken :=
  (Table.find Prod.fst h.prepared sessionId).map (·.2)

/-- `markContainerStopped` and `cleanupSigningProxyForSession`. -/
def ContainerHost.exited (h : ContainerHost) (sessionId : String) (now : ℤ) : ContainerHost :=
  { h with rows := (revokeProxyTokensForSession h.rows sessionId now).2
           status := Function.update h.status sessionId .stopped }

/-- What the host does beside the registry, which is `r` after the event. -/
def ContainerHost.follow (h : ContainerHost) (e : RunnerEvent) (now : ℤ) (r : Runner) : ContainerHost :=
  match e with
  | .spawn s =>
    { h with runner := r
             status := Function.update h.status s .running
             prepared := Table.delete Prod.fst h.prepared s
             tokens := h.tokens ++ [h.preparedToken s] }
  | .spawnFailed s => { h with runner := r, prepared := Table.delete Prod.fst h.prepared s }
  | .wake _ | .settle _ | .kill _ => { h with runner := r }
  | .spawnError i | .killError i | .close i => match h.runner.processes[i]? with
    | some p => { h.exited p.sessionId now with runner := r }
    | none => h

def containerStep (cap : ℕ) (h : ContainerHost) : ContainerEvent → Option ContainerHost
  | .mint s agentGroupId ttlMs now jti secret =>
    if Table.find Prod.fst h.runner.wakes s = some (s, .preparing) ∧ h.preparedToken s = none then
      (mintSessionProxyToken h.rows s agentGroupId ttlMs now jti secret).map fun (minted, rows) =>
        { h with rows := rows, prepared := h.prepared ++ [(s, minted)] }
    else none
  | .runner e now => (runnerStep cap h.runner e).map (h.follow e now)

/-! ### The property and the condition -/

/-- The process whose `error` or `close` the event is. -/
def RunnerEvent.exitOf : RunnerEvent → Option ℕ
  | .spawnError i | .killError i | .close i => some i
  | _ => none

def ContainerEvent.exitOf : ContainerEvent → Option ℕ
  | .mint .. => none
  | .runner e _ => e.exitOf

/-- The token was minted for a container of the session that is later than process `i`: one that is being
prepared, or a later process. -/
def ContainerHost.LaterToken (h : ContainerHost) (i : ℕ) (sessionId : String) (m : MintedProxyToken) : Prop :=
  h.preparedToken sessionId = some m ∨
    ∃ j > i, ∃ state, h.runner.processes[j]? = some ⟨sessionId, state⟩ ∧ h.tokens[j]? = some (some m)

/-- From `h` to `h'`, nothing was taken from the containers of the session that are later than process `i`. -/
structure SparesSuccessors (h h' : ContainerHost) (i : ℕ) (sessionId : String) : Prop where
  token : ∀ m, h.LaterToken i sessionId m → ∀ row ∈ h.rows, row.jti = m.jti → row.revokedAt = none → row ∈ h'.rows
  status : ∀ j > i, h.runner.Live j sessionId → h'.status sessionId ≠ .stopped
  entry : ∀ j > i, h.runner.entry sessionId = some j → h'.runner.entry sessionId = some j

/-- The event of a process spares the later containers of its session. -/
def Spares (cap : ℕ) (h : ContainerHost) (e : ContainerEvent) : Prop :=
  ∀ h' i p, containerStep cap h e = some h' → e.exitOf = some i → h.runner.processes[i]? = some p →
    SparesSuccessors h h' i p.sessionId

/-- An `error` or a `close` comes while no later container of its session runs and no wake of it has minted. -/
def BeforeSuccessor (h : ContainerHost) (e : ContainerEvent) : Prop :=
  ∀ i p, e.exitOf = some i → h.runner.processes[i]? = some p →
    h.preparedToken p.sessionId = none ∧ ∀ j > i, ¬ h.runner.Live j p.sessionId

/-! ### Everything a step can do -/

inductive ContainerMove (cap : ℕ) (h : ContainerHost) : ContainerEvent → ContainerHost → Prop
  | mint {s g : String} {ttlMs now : ℤ} {jti secret : String} {m : MintedProxyToken} {rows : List TokenRow}
      (hnone : h.preparedToken s = none)
      (hmint : mintSessionProxyToken h.rows s g ttlMs now jti secret = some (m, rows)) :
      ContainerMove cap h (.mint s g ttlMs now jti secret)
        { h with rows := rows, prepared := h.prepared ++ [(s, m)] }
  | spawn {s : String} {now : ℤ} {r : Runner} (hr : runnerStep cap h.runner (.spawn s) = some r)
      (hprocs : r.processes = h.runner.processes ++ [⟨s, .live⟩]) :
      ContainerMove cap h (.runner (.spawn s) now)
        { h with runner := r
                 status := Function.update h.status s .running
                 prepared := Table.delete Prod.fst h.prepared s
                 tokens := h.tokens ++ [h.preparedToken s] }
  | exit {e : RunnerEvent} {now : ℤ} {i : ℕ} {p : Process} {state : ProcessState} (he : e.exitOf = some i)
      (hp : h.runner.processes[i]? = some p) (hr : runnerStep cap h.runner e = some (h.runner.exit i p state)) :
      ContainerMove cap h (.runner e now) { h.exited p.sessionId now with runner := h.runner.exit i p state }
  | other {e : RunnerEvent} {now : ℤ} {r : Runner} {prepared : List (String × MintedProxyToken)}
      (he : e.exitOf = none) (hr : runnerStep cap h.runner e = some r) (hprocs : r.processes = h.runner.processes)
      (hprepared : prepared = h.prepared ∨ ∃ s, prepared = Table.delete Prod.fst h.prepared s) :
      ContainerMove cap h (.runner e now) { h with runner := r, prepared := prepared }

variable {cap : ℕ} {h h' : ContainerHost}

theorem containerStep_move {e : ContainerEvent} (hs : containerStep cap h e = some h') :
    ContainerMove cap h e h' := by
  cases e with
  | mint s g ttlMs now jti secret =>
    simp only [containerStep] at hs
    split at hs
    · rename_i hguard
      obtain ⟨⟨m, rows⟩, hmint, rfl⟩ := Option.map_eq_some_iff.mp hs
      exact .mint hguard.2 hmint
    · cases hs
  | runner e now =>
    obtain ⟨r, hr, rfl⟩ := Option.map_eq_some_iff.mp hs
    have hmove := runnerStep_move hr
    cases hmove with
    | turnedAway s => exact .other rfl hr rfl (.inl rfl)
    | admitted hentry hroom => exact .other rfl hr rfl (.inl rfl)
    | settle s => exact .other rfl hr rfl (.inl rfl)
    | kill s => exact .other rfl hr rfl (.inl rfl)
    | spawnFailed hw => exact .other rfl hr rfl (.inr ⟨_, rfl⟩)
    | spawn hw => exact .spawn hr rfl
    | spawnError hp hlive =>
      have hmove : ContainerMove cap h (.runner _ now) _ := .exit rfl hp hr
      simpa only [ContainerHost.follow, hp] using hmove
    | killError hp =>
      have hmove : ContainerMove cap h (.runner _ now) _ := .exit rfl hp hr
      simpa only [ContainerHost.follow, hp] using hmove
    | close hp =>
      have hmove : ContainerMove cap h (.runner _ now) _ := .exit rfl hp hr
      simpa only [ContainerHost.follow, hp] using hmove

/-! ### The invariant of the runs that meet the condition -/

/-- The row of a token. -/
def HasTokenRow (rows : List TokenRow) (sessionId : String) (m : MintedProxyToken) (P : TokenRow → Prop) : Prop :=
  ∃ row ∈ rows, row.jti = m.jti ∧ row.sessionId = sessionId ∧ P row

/-- A prepared token is unrevoked; the token of a process that is not live is revoked. -/
structure ContainerHost.Inv (cap : ℕ) (h : ContainerHost) : Prop where
  runner : RunnerInv cap h.runner
  jtis : (h.rows.map (·.jti)).Nodup
  length : h.tokens.length = h.runner.processes.length
  prepared : ∀ s m, h.preparedToken s = some m → HasTokenRow h.rows s m fun row => row.revokedAt = none
  handed : ∀ (i : ℕ) (p : Process) (m : MintedProxyToken),
    h.runner.processes[i]? = some p → h.tokens[i]? = some (some m) →
    HasTokenRow h.rows p.sessionId m fun row => p.state ≠ .live → row.revokedAt ≠ none

theorem ContainerHost.inv_empty (cap : ℕ) : ContainerHost.empty.Inv cap where
  runner := runnerInv_empty cap
  jtis := List.nodup_nil
  length := rfl
  prepared := by simp [ContainerHost.empty, ContainerHost.preparedToken, Table.find]
  handed := by simp [ContainerHost.empty]

theorem HasTokenRow.revoke {rows : List TokenRow} {s : String} {m : MintedProxyToken} {Q : Prop}
    (hrow : HasTokenRow rows s m fun row => Q → row.revokedAt ≠ none) (p : TokenRow → Bool) (now : ℤ) :
    HasTokenRow (revokeLive p now rows).2 s m fun row => Q → row.revokedAt ≠ none := by
  obtain ⟨row, hmem, hjti, hsession, hdead⟩ := hrow
  obtain ⟨row', hmem', hjti', hsession', hrevoked, -⟩ := revokeLive_keeps hmem p now
  exact ⟨row', hmem', hjti'.trans hjti, hsession'.trans hsession, fun hQ => hrevoked (.inr (hdead hQ))⟩

theorem HasTokenRow.revoke_other {rows : List TokenRow} {s s' : String} {m : MintedProxyToken}
    (hrow : HasTokenRow rows s m fun row => row.revokedAt = none) (hne : s ≠ s') (now : ℤ) :
    HasTokenRow (revokeProxyTokensForSession rows s' now).2 s m fun row => row.revokedAt = none := by
  obtain ⟨row, hmem, hjti, hsession, hlive⟩ := hrow
  have hout : decide (row.sessionId = s') = false := by
    rw [hsession]
    exact decide_eq_false hne
  obtain ⟨row', hmem', -, -, -, hsame⟩ := revokeLive_keeps hmem (fun r => r.sessionId = s') now
  obtain rfl := hsame hout
  exact ⟨row', hmem', hjti, hsession, hlive⟩

theorem HasTokenRow.append {rows : List TokenRow} {s : String} {m : MintedProxyToken} {P : TokenRow → Prop}
    (hrow : HasTokenRow rows s m P) (new : List TokenRow) : HasTokenRow (rows ++ new) s m P := by
  obtain ⟨row, hmem, hrest⟩ := hrow
  exact ⟨row, List.mem_append_left new hmem, hrest⟩

theorem preparedToken_delete {s s' : String} :
    (Table.find Prod.fst (Table.delete Prod.fst h.prepared s) s').map (·.2) =
      if s' = s then none else h.preparedToken s' := by
  rw [Table.find_delete]
  split <;> rfl

theorem ContainerHost.Inv.prepared_delete (hI : h.Inv cap) (s : String) (s' : String) (m : MintedProxyToken)
    (hm : (Table.find Prod.fst (Table.delete Prod.fst h.prepared s) s').map (·.2) = some m) :
    HasTokenRow h.rows s' m fun row => row.revokedAt = none := by
  rw [preparedToken_delete] at hm
  split at hm
  · cases hm
  · exact hI.prepared s' m hm
theorem ContainerHost.Inv.mint (hI : h.Inv cap) {s g : String} {ttlMs now : ℤ} {jti secret : String}
    {m : MintedProxyToken} {rows : List TokenRow} (hnone : h.preparedToken s = none)
    (hmint : mintSessionProxyToken h.rows s g ttlMs now jti secret = some (m, rows)) :
    ContainerHost.Inv cap { h with rows := rows, prepared := h.prepared ++ [(s, m)] } := by
  have hjtis := mintProxyToken_jtis hmint hI.jtis
  obtain ⟨-, -, rfl⟩ := mintProxyToken_spec hmint
  refine ⟨hI.runner, hjtis, hI.length, fun s' m' hm' => ?_, fun i p m' hp hm' => ?_⟩
  · have hfind : Table.find Prod.fst h.prepared (s, m).1 = none := by
      simpa [ContainerHost.preparedToken] using hnone
    change (Table.find Prod.fst (h.prepared ++ [(s, m)]) s').map (·.2) = some m' at hm'
    rw [Table.find_append_new hfind] at hm'
    by_cases hs : s' = s
    · rw [if_pos hs] at hm'
      obtain rfl : m = m' := Option.some.inj hm'
      exact ⟨_, List.mem_append_right _ (.head _), rfl, hs.symm, rfl⟩
    · rw [if_neg hs] at hm'
      exact ((hI.prepared s' m' hm').revoke_other hs now).append _
  · exact ((hI.handed i p m' hp hm').revoke _ now).append _

theorem ContainerHost.Inv.spawn (hI : h.Inv cap) {s : String} {r : Runner}
    (hr : runnerStep cap h.runner (.spawn s) = some r) (hprocs : r.processes = h.runner.processes ++ [⟨s, .live⟩]) :
    ContainerHost.Inv cap { h with runner := r
                                   status := Function.update h.status s .running
                                   prepared := Table.delete Prod.fst h.prepared s
                                   tokens := h.tokens ++ [h.preparedToken s] } := by
  refine ⟨runnerInv_step cap _ _ _ hI.runner hr, hI.jtis, ?_, hI.prepared_delete s, fun i p m hp hm => ?_⟩
  · rw [hprocs, List.length_append, List.length_append, hI.length]
    rfl
  · change r.processes[i]? = some p at hp
    change (h.tokens ++ [h.preparedToken s])[i]? = some (some m) at hm
    rw [hprocs] at hp
    rcases Nat.lt_or_ge i h.runner.processes.length with hlt | hge
    · rw [List.getElem?_append_left hlt] at hp
      rw [List.getElem?_append_left (by rw [hI.length]; exact hlt)] at hm
      exact hI.handed i p m hp hm
    · rw [List.getElem?_append_right hge] at hp
      rw [List.getElem?_append_right (by rw [hI.length]; exact hge), hI.length] at hm
      have hi : i - h.runner.processes.length = 0 := by
        have hlt := (List.getElem?_eq_some_iff.mp hp).1
        rw [List.length_singleton] at hlt
        omega
      rw [hi] at hp hm
      obtain rfl : ⟨s, .live⟩ = p := by simpa using hp
      have hm' : h.preparedToken s = some m := by simpa using hm
      obtain ⟨row, hmem, hjti, hsession, -⟩ := hI.prepared s m hm'
      exact ⟨row, hmem, hjti, hsession, fun hdead => absurd rfl hdead⟩

theorem ContainerHost.Inv.exit (hI : h.Inv cap) {e : RunnerEvent} {now : ℤ} {i : ℕ} {p : Process}
    {state : ProcessState} (hp : h.runner.processes[i]? = some p)
    (hr : runnerStep cap h.runner e = some (h.runner.exit i p state)) (hnone : h.preparedToken p.sessionId = none) :
    ContainerHost.Inv cap { h.exited p.sessionId now with runner := h.runner.exit i p state } := by
  have hjtis : (revokeProxyTokensForSession h.rows p.sessionId now).2.map (·.jti) = h.rows.map (·.jti) :=
    map_revokeLive (fun _ => rfl) _ _
  refine ⟨runnerInv_step cap _ _ _ hI.runner hr, ?_, ?_, fun s m hm => ?_, fun j q m hq hm => ?_⟩
  · change ((revokeProxyTokensForSession h.rows p.sessionId now).2.map (·.jti)).Nodup
    rw [hjtis]
    exact hI.jtis
  · change h.tokens.length = (h.runner.processes.set i { p with state := state }).length
    rw [List.length_set]
    exact hI.length
  · have hne : s ≠ p.sessionId := by
      rintro rfl
      change h.preparedToken p.sessionId = some m at hm
      rw [hnone] at hm
      cases hm
    exact (hI.prepared s m hm).revoke_other hne now
  · change (h.runner.processes.set i { p with state := state })[j]? = some q at hq
    rw [List.getElem?_set] at hq
    split at hq
    · rename_i hij
      subst hij
      have hlt : i < h.runner.processes.length := (List.getElem?_eq_some_iff.mp hp).1
      rw [if_pos hlt] at hq
      obtain rfl := Option.some.inj hq
      -- its own token is of the session that is revoked
      obtain ⟨row, hmem, hjti, hsession, -⟩ := hI.handed i p m hp hm
      obtain ⟨row', hmem', hjti', hsession', hrevoked, -⟩ :=
        revokeLive_keeps hmem (fun r => r.sessionId = p.sessionId) now
      exact ⟨row', hmem', hjti'.trans hjti, hsession'.trans hsession,
        fun _ => hrevoked (.inl (by simpa using hsession))⟩
    · exact (hI.handed j q m hq hm).revoke _ now

theorem ContainerHost.inv_step (cap : ℕ) (h : ContainerHost) (e : ContainerEvent) (h' : ContainerHost)
    (hI : h.Inv cap) (hs : containerStep cap h e = some h') (hbefore : BeforeSuccessor h e) : h'.Inv cap := by
  cases containerStep_move hs with
  | mint hnone hmint => exact hI.mint hnone hmint
  | spawn hr hprocs => exact hI.spawn hr hprocs
  | @exit _ _ i p _ he hp hr => exact hI.exit hp hr (hbefore i p he hp).1
  | other he hr hprocs hprepared =>
    have hrunner := runnerInv_step cap _ _ _ hI.runner hr
    have hlength := hI.length
    rw [← hprocs] at hlength
    refine ⟨hrunner, hI.jtis, hlength, fun s m hm => ?_, fun i p m hp hm => ?_⟩
    · rcases hprepared with rfl | ⟨s₀, rfl⟩
      · exact hI.prepared s m hm
      · exact hI.prepared_delete s₀ s m hm
    · change _ = some p at hp
      rw [hprocs] at hp
      exact hI.handed i p m hp hm

/-! ### When the successors are spared -/

theorem spares_exit_iff (hI : h.Inv cap) {i : ℕ} {p : Process} {state : ProcessState} {now : ℤ} :
    SparesSuccessors h { h.exited p.sessionId now with runner := h.runner.exit i p state } i p.sessionId ↔
      h.preparedToken p.sessionId = none ∧ ∀ j > i, ¬ h.runner.Live j p.sessionId := by
  constructor
  · intro hspares
    constructor
    · cases hm : h.preparedToken p.sessionId with
      | none => rfl
      | some m =>
        obtain ⟨row, hmem, hjti, hsession, hlive⟩ := hI.prepared _ m hm
        have hkept := hspares.token m (.inl hm) row hmem hjti hlive
        -- an unrevoked row of the session is not left by the revocation
        obtain ⟨row', -, -, hsame⟩ := mem_revokeLive hkept
        obtain ⟨rfl, hother⟩ := hsame hlive
        simp [hsession] at hother
    · intro j hj hlive
      exact hspares.status j hj hlive (Function.update_self ..)
  · rintro ⟨hnone, hrun⟩
    refine ⟨fun m hm row hmem hjti hlive => ?_, fun j hj hlive => absurd hlive (hrun j hj), fun j hj hentry => ?_⟩
    · rcases hm with hm | ⟨j, hj, state', hq, hm⟩
      · rw [hnone] at hm
        cases hm
      · obtain ⟨row', hmem', hjti', -, hdead⟩ := hI.handed j _ m hq hm
        obtain rfl : row' = row := List.inj_on_of_nodup_map hI.jtis hmem' hmem (hjti'.trans hjti.symm)
        have hstopped : state' ≠ .live := by
          rintro rfl
          exact hrun j hj hq
        exact absurd hlive (hdead hstopped)
    · exact absurd (hI.runner.registered _ j hentry) (hrun j hj)

theorem spares_of_no_exit {e : ContainerEvent} (he : e.exitOf = none) : Spares cap h e ↔ BeforeSuccessor h e := by
  have hno : ∀ i, e.exitOf ≠ some i := fun i hi => by
    rw [he] at hi
    cases hi
  exact ⟨fun _ i p hi => absurd hi (hno i), fun _ h' i p _ hi => absurd hi (hno i)⟩

theorem spares_iff (hI : h.Inv cap) {e : ContainerEvent} (hs : containerStep cap h e = some h') :
    Spares cap h e ↔ BeforeSuccessor h e := by
  cases containerStep_move hs with
  | mint hnone hmint => exact spares_of_no_exit rfl
  | spawn hr hprocs => exact spares_of_no_exit rfl
  | other he hr hprocs hprepared => exact spares_of_no_exit he
  | @exit e now i p state he hp hr =>
    constructor
    · intro hspares j q hj hq
      obtain rfl : i = j := Option.some.inj (he.symm.trans hj)
      obtain rfl : p = q := Option.some.inj (hp.symm.trans hq)
      exact (spares_exit_iff hI).mp (hspares _ i p hs he hp)
    · intro hbefore h'' j q hs' hj hq
      obtain rfl := Option.some.inj (hs.symm.trans hs')
      obtain rfl : i = j := Option.some.inj (he.symm.trans hj)
      obtain rfl : p = q := Option.some.inj (hp.symm.trans hq)
      exact (spares_exit_iff hI).mpr (hbefore i p he hp)

/-- **When a dead container disables its successor.** Over every run of wakes, mints, spawns, kills and the
events of the processes: the `error` and `close` of a container leave every later container of its session its
unrevoked token, its status while it runs and its entry, exactly when each of them comes while no later
container of the session runs and no wake of the session has minted its token. -/
theorem successors_spared_iff (cap : ℕ) {es : List ContainerEvent}
    (hrun : run (containerStep cap) ContainerHost.empty es = some h) :
    Along (containerStep cap) (Spares cap) ContainerHost.empty es ↔
      Along (containerStep cap) BeforeSuccessor ContainerHost.empty es :=
  along_iff_along (ContainerHost.inv_step cap) (fun _ _ _ hI hs => spares_iff hI hs)
    (ContainerHost.inv_empty cap) hrun

/-- A container mints, starts and ends; the next one mints and starts. -/
theorem successors_spared_iff_sample :
    ∃ h, run (containerStep 1) ContainerHost.empty
        [.runner (.wake "a") 0, .mint "a" "g" 1000 0 "j" "x", .runner (.spawn "a") 0, .runner (.settle "a") 0,
         .runner (.close 0) 5, .runner (.wake "a") 6, .mint "a" "g" 1000 6 "k" "y", .runner (.spawn "a") 7] = some h ∧
      (h.rows.map (·.revokedAt)) = [some 5, none] ∧
      (Along (containerStep 1) (Spares 1) ContainerHost.empty
        [.runner (.wake "a") 0, .mint "a" "g" 1000 0 "j" "x", .runner (.spawn "a") 0, .runner (.settle "a") 0,
         .runner (.close 0) 5, .runner (.wake "a") 6, .mint "a" "g" 1000 6 "k" "y", .runner (.spawn "a") 7] ↔
      Along (containerStep 1) BeforeSuccessor ContainerHost.empty
        [.runner (.wake "a") 0, .mint "a" "g" 1000 0 "j" "x", .runner (.spawn "a") 0, .runner (.settle "a") 0,
         .runner (.close 0) 5, .runner (.wake "a") 6, .mint "a" "g" 1000 6 "k" "y", .runner (.spawn "a") 7]) := by
  have hrun : run (containerStep 1) ContainerHost.empty
      [.runner (.wake "a") 0, .mint "a" "g" 1000 0 "j" "x", .runner (.spawn "a") 0, .runner (.settle "a") 0,
       .runner (.close 0) 5, .runner (.wake "a") 6, .mint "a" "g" 1000 6 "k" "y", .runner (.spawn "a") 7] =
      some _ := rfl
  exact ⟨_, hrun, rfl, successors_spared_iff 1 hrun⟩

/-- The first process of session `a` cannot be started; the next wake mints and starts its process; then the
first one's `close` arrives, and takes the entry, the status and the token. -/
theorem successor_disabled :
    ∃ h h', run (containerStep 10) ContainerHost.empty
        [.runner (.wake "a") 0, .runner (.spawn "a") 0, .runner (.settle "a") 0, .runner (.spawnError 0) 1,
         .runner (.wake "a") 2, .mint "a" "g" 3600000 2 "j" "x", .runner (.spawn "a") 3,
         .runner (.settle "a") 3] = some h ∧
      containerStep 10 h (.runner (.close 0) 4) = some h' ∧
      h.runner.Live 1 "a" ∧ h.runner.entry "a" = some 1 ∧ h'.runner.entry "a" = none ∧
      h.status "a" = .running ∧ h'.status "a" = .stopped ∧
      h.rows.map (·.revokedAt) = [none] ∧ h'.rows.map (·.revokedAt) = [some 4] ∧
      ¬ Spares 10 h (.runner (.close 0) 4) := by
  have hrun : run (containerStep 10) ContainerHost.empty
      [.runner (.wake "a") 0, .runner (.spawn "a") 0, .runner (.settle "a") 0, .runner (.spawnError 0) 1,
       .runner (.wake "a") 2, .mint "a" "g" 3600000 2 "j" "x", .runner (.spawn "a") 3,
       .runner (.settle "a") 3] = some _ := rfl
  refine ⟨_, _, hrun, rfl, rfl, rfl, rfl, rfl, rfl, rfl, rfl, fun hspares => ?_⟩
  have hentry := (hspares _ 0 _ rfl rfl rfl).entry 1 (by omega) rfl
  cases hentry

end AgentDesk
