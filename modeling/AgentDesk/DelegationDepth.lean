/-
# How deep delegations go

A delegation from one agent group to another is refused when its source is at the cap on the spawn depth
(`routeAgentMessage`, `src/modules/agent-to-agent/agent-route.ts`), so that the session it may create is at most at
the cap. The same check meets the reply, before anybody knows that it creates nothing: a session the cap allowed, if
it is just at the cap, cannot answer. And a message of a group to itself is not checked at all, which is right as
long as its own session is found; where that is no longer active a new one is created, one deeper.

* `delegation_sound_iff`: over any run of deliveries, delegations and changes of the session table, the sessions
  created are at most at the cap, one deeper than their source, and able to answer it, exactly when every call that
  creates a session has a source two below the cap, or below it and writes to itself.
* `answer_refused`: a front desk, a worker and its helper, with the cap of 2.
-/
import AgentDesk.OwnerIsolation

namespace AgentDesk

open Js

/-! ### The depth check -/

/-- A message to another group, from a session at the cap. -/
def refusesDepth (c : Central) (session : Session) (target : String) : Bool :=
  target ≠ session.agentGroupId && decide (resolveMaxSpawnDepth c ≤ session.spawnDepth)

theorem resolveMaxSpawnDepth_pos (c : Central) : 0 < resolveMaxSpawnDepth c := by
  unfold resolveMaxSpawnDepth
  split
  · split <;> omega
  · omega

theorem checkEdge_ok_iff {c : Central} {msg : RoutableAgentMessage} {session : Session} {target : String} :
    checkEdge c msg session = .ok target ↔
      checkEdge c msg { session with spawnDepth := 0 } = .ok target ∧ refusesDepth c session target = false := by
  have hzero : ¬(resolveMaxSpawnDepth c ≤ 0) := by
    have := resolveMaxSpawnDepth_pos c
    omega
  unfold checkEdge refusesDepth
  cases msg.platformId with
  | none => simp
  | some g =>
    simp only [hzero, decide_false, Bool.and_false, Bool.false_eq_true, if_false]
    split
    · exact ⟨fun h => (nomatch h), fun h => (nomatch h.1)⟩
    split
    · exact ⟨fun h => (nomatch h), fun h => (nomatch h.1)⟩
    split
    · exact ⟨fun h => (nomatch h), fun h => (nomatch h.1)⟩
    split
    · exact ⟨fun h => (nomatch h), fun h => (nomatch h.1)⟩
    split
    · rename_i hdeep
      refine ⟨fun h => (nomatch h), fun ⟨hg, hno⟩ => ?_⟩
      rw [← Except.ok.inj hg, hdeep] at hno
      cases hno
    · rename_i hshallow
      refine ⟨fun hg => ⟨hg, ?_⟩, fun h => h.1⟩
      rw [← Except.ok.inj hg]
      exact Bool.not_eq_true _ ▸ hshallow

theorem checkEdge_target {c : Central} {msg : RoutableAgentMessage} {session : Session} {target : String}
    (h : checkEdge c msg session = .ok target) : msg.platformId = some target := by
  unfold checkEdge at h
  cases hp : msg.platformId with
  | none =>
    rw [hp] at h
    cases h
  | some g =>
    rw [hp] at h
    simp only at h
    split at h
    · cases h
    split at h
    · cases h
    split at h
    · cases h
    split at h
    · cases h
    split at h
    · cases h
    exact congrArg some (Except.ok.inj h)

/-! ### Delegations that create a session -/

/-- The columns of a session row that the depth check reads, and its id. -/
def SameDepth (s b : Session) : Prop := s.id = b.id ∧ s.agentGroupId = b.agentGroupId ∧ s.spawnDepth = b.spawnDepth

/-- A session created by a delegation, the session it came from, and the cap of the moment. -/
structure Delegation where
  source : Session
  created : Session
  cap : ℕ

/-- The world, and the delegations so far that created a session. -/
structure DelegationDesk where
  world : World
  delegations : List Delegation

def DelegationDesk.empty : DelegationDesk := ⟨World.empty, []⟩

/-- The sessions a delegation has created. -/
def DelegationDesk.delegated (st : DelegationDesk) (w' : World) : RouteEvent → List Delegation
  | .route c _ _ _ sessionId _ => match getSession st.world.sessions sessionId with
    | some source =>
      (w'.born.drop st.world.born.length).map fun created => ⟨source, created, resolveMaxSpawnDepth c⟩
    | none => []
  | _ => []

def delegationStep (st : DelegationDesk) (e : RouteEvent) : Option DelegationDesk :=
  (routeStep st.world e).map fun w' => ⟨w', st.delegations ++ st.delegated w' e⟩

/-- One deeper than its source, at most at the cap, and not refused when it answers. -/
structure Delegation.Sound (x : Delegation) : Prop where
  next : x.created.spawnDepth = x.source.spawnDepth + 1
  capped : x.created.spawnDepth ≤ x.cap
  answers : ∀ c, resolveMaxSpawnDepth c = x.cap → refusesDepth c x.created x.source.agentGroupId = false

def DelegationsSound (st : DelegationDesk) : Prop := ∀ x ∈ st.delegations, x.Sound

/-- A call that creates a session has a source two below the cap, or below it and writes to its own group. -/
def LeavesRoom (st : DelegationDesk) : RouteEvent → Prop
  | .route c d io mid sessionId msg => ∀ source w', getSession st.world.sessions sessionId = some source →
      routeStep st.world (.route c d io mid sessionId msg) = some w' → w'.born ≠ st.world.born →
        if msg.platformId = some source.agentGroupId then source.spawnDepth < resolveMaxSpawnDepth c
        else source.spawnDepth + 1 < resolveMaxSpawnDepth c
  | _ => True

/-! ### What a step can do -/

variable {st st' : DelegationDesk} {e : RouteEvent} {w w' : World}

theorem SameDepth.refl (s : Session) : SameDepth s s := ⟨rfl, rfl, rfl⟩

theorem SameDepth.trans {a b c : Session} (h : SameDepth a b) (h' : SameDepth b c) : SameDepth a c :=
  ⟨h.1.trans h'.1, h.2.1.trans h'.2.1, h.2.2.trans h'.2.2⟩

theorem sameDepth_of_thread {db db' : List Session} {id : String}
    (h : db' = db ∨ ∃ conv, db' = setSessionConversationThreadId db id conv) :
    (∀ s ∈ db', ∃ s₀ ∈ db, SameDepth s s₀) ∧ ∀ s₀ ∈ db, ∃ s ∈ db', SameDepth s s₀ := by
  rcases h with rfl | ⟨conv, rfl⟩
  · exact ⟨fun s hs => ⟨s, hs, .refl s⟩, fun s hs => ⟨s, hs, .refl s⟩⟩
  · refine ⟨fun s hs => ?_, fun s₀ hs₀ => ⟨_, List.mem_map.mpr ⟨s₀, hs₀, rfl⟩, ?_⟩⟩
    · obtain ⟨s₀, hs₀, rfl | rfl⟩ := mem_setSessionConversationThreadId hs
      · exact ⟨s, hs₀, .refl s⟩
      · exact ⟨s₀, hs₀, rfl, rfl, rfl⟩
    · split
      · exact ⟨rfl, rfl, rfl⟩
      · exact .refl s₀

theorem route_created {c : Central} {d : Draw} {io : Io} {mid sid : String} {msg : RoutableAgentMessage}
    {source : Session} (h : LaneInv w) (hsource : getSession w.sessions sid = some source)
    (hs : routeStep w (.route c d io mid sid msg) = some w') :
    (w'.born = w.born ∧ ∀ s ∈ w'.sessions, ∃ s₀ ∈ w.sessions, SameDepth s s₀) ∨
      ∃ t, w'.born = w.born ++ [t] ∧ msg.platformId = some t.agentGroupId ∧
        t.spawnDepth = source.spawnDepth + 1 ∧ refusesDepth c source t.agentGroupId = false ∧
        (∃ s ∈ w'.sessions, SameDepth s t) ∧ ∀ s ∈ w'.sessions, ∃ s₀ ∈ w.sessions ++ [t], SameDepth s s₀ := by
  simp only [routeStep, hsource, Option.map_some] at hs
  split at hs
  · cases hs
  have hroute := Option.some.inj hs
  rcases routeAgentMessage_cases (h.root_ne (find_spec hsource).1) (Prod.eta _).symm with
    ⟨hw, -⟩ | ⟨target, db, q, hedge, hq, hcase⟩
  · rw [hw] at hroute
    subst hroute
    exact .inl ⟨rfl, fun s hs => ⟨s, hs, .refl s⟩⟩
  · rw [hroute] at hcase
    -- the rows are those of the table the target was resolved in
    obtain ⟨hborn, hrows, hkept⟩ : w'.born = (w.withSessions db).born ∧
        (∀ s ∈ w'.sessions, ∃ s₀ ∈ db, SameDepth s s₀) ∧ ∀ s₀ ∈ db, ∃ s ∈ w'.sessions, SameDepth s s₀ := by
      rcases hcase with ⟨hw, -⟩ | ⟨t, b, seq, content, stored, -, -, hborn, -, -, hdb⟩
      · rw [hw]
        exact ⟨rfl, fun s hs => ⟨s, hs, .refl s⟩, fun s hs => ⟨s, hs, .refl s⟩⟩
      · exact ⟨hborn, sameDepth_of_thread hdb⟩
    rcases hq with ⟨rfl, -⟩ | ⟨t, rfl, hcreated, -, -⟩
    · exact .inl ⟨by simpa using hborn, hrows⟩
    · have hnew : t.agentGroupId = target ∧ t.spawnDepth = source.spawnDepth + 1 := by
        rcases hcreated with rfl | ⟨-, rfl⟩ <;> exact ⟨rfl, rfl⟩
      refine .inr ⟨t, by simpa using hborn, ?_, hnew.2, ?_, hkept t (by simp), hrows⟩
      · rw [hnew.1]
        exact checkEdge_target hedge
      · rw [hnew.1]
        exact (checkEdge_ok_iff.mp hedge).2

theorem routeStep_rows (h : LaneInv w) (hs : routeStep w e = some w') :
    ∃ new, w'.born = w.born ++ new ∧ ∀ s ∈ w'.sessions, ∃ s₀ ∈ w.sessions ++ new, SameDepth s s₀ := by
  have hsame : ∀ {db : List Session}, (∀ s ∈ db, ∃ s₀ ∈ w.sessions, SameDepth s s₀) →
      ∀ s ∈ db, ∃ s₀ ∈ w.sessions ++ [], SameDepth s s₀ := by
    intro db hdb
    simpa using hdb
  cases e with
  | deliver d io x =>
    simp only [routeStep] at hs
    split at hs
    · cases hs
    have hw := Option.some.inj hs
    obtain ⟨db, hdb, hcase⟩ := World.deliverToAgent_cases (Prod.eta (w.deliverToAgent d io x)).symm
    rw [hw] at hcase
    obtain ⟨hborn, hsess⟩ : w'.born = (w.withSessions db).born ∧ w'.sessions = db := by
      rcases hcase with hw | ⟨s, seq, content, -, hw⟩ <;> rw [hw] <;> exact ⟨rfl, rfl⟩
    rcases hdb with rfl | ⟨rfl, -⟩
    · exact ⟨[], by simpa using hborn, hsame fun s hs => ⟨s, hsess ▸ hs, .refl s⟩⟩
    · exact ⟨[x.newSession d], by simpa using hborn, fun s hs => ⟨s, hsess ▸ hs, .refl s⟩⟩
  | route c d io mid sid msg =>
    cases hsource : getSession w.sessions sid with
    | none =>
      simp only [routeStep, hsource, Option.map_none] at hs
      split at hs <;> cases hs
    | some source =>
      rcases route_created h hsource hs with ⟨hborn, hrows⟩ | ⟨t, hborn, -, -, -, -, hrows⟩
      · exact ⟨[], by simpa using hborn, hsame hrows⟩
      · exact ⟨[t], hborn, hrows⟩
  | updateStatus sid status =>
    obtain rfl := Option.some.inj hs
    refine ⟨[], by simp, hsame fun s hs => ?_⟩
    obtain ⟨s₀, hs₀, rfl⟩ := List.mem_map.mp hs
    refine ⟨s₀, hs₀, ?_⟩
    split
    · exact ⟨rfl, rfl, rfl⟩
    · exact .refl s₀
  | deleteSession sid =>
    obtain rfl := Option.some.inj hs
    exact ⟨[], by simp, hsame fun s hs => ⟨s, (List.mem_filter.mp hs).1, .refl s⟩⟩

theorem delegationStep_some (hs : delegationStep st e = some st') :
    routeStep st.world e = some st'.world ∧ st'.delegations = st.delegations ++ st.delegated st'.world e := by
  obtain ⟨w', hw, rfl⟩ := Option.map_eq_some_iff.mp hs
  exact ⟨hw, rfl⟩

/-! ### Runs -/

/-- A session of the table has the depth it was created with. -/
structure DelegationInv (st : DelegationDesk) : Prop where
  lanes : LaneInv st.world
  rows : ∀ s ∈ st.world.sessions, ∃ b ∈ st.world.born, SameDepth s b
  born : ∀ x ∈ st.delegations, x.created ∈ st.world.born

theorem delegationInv_step (st : DelegationDesk) (e : RouteEvent) (st' : DelegationDesk) (h : DelegationInv st)
    (hs : delegationStep st e = some st') : DelegationInv st' := by
  obtain ⟨hw, hdel⟩ := delegationStep_some hs
  obtain ⟨new, hborn, hrows⟩ := routeStep_rows h.lanes hw
  refine ⟨laneInv_step _ _ _ h.lanes hw, fun s hs => ?_, fun x hx => ?_⟩
  · obtain ⟨s₀, hs₀, hsame⟩ := hrows s hs
    rw [hborn]
    rcases List.mem_append.mp hs₀ with hs₀ | hs₀
    · obtain ⟨b, hb, hsb⟩ := h.rows s₀ hs₀
      exact ⟨b, List.mem_append_left _ hb, hsame.trans hsb⟩
    · exact ⟨s₀, List.mem_append_right _ hs₀, hsame⟩
  · rw [hdel] at hx
    rcases List.mem_append.mp hx with hx | hx
    · rw [hborn]
      exact List.mem_append_left _ (h.born x hx)
    · cases e with
      | route c d io mid sid msg =>
        simp only [DelegationDesk.delegated] at hx
        split at hx
        · obtain ⟨t, ht, rfl⟩ := List.mem_map.mp hx
          exact List.mem_of_mem_drop ht
        · cases hx
      | deliver _ _ _ | updateStatus _ _ | deleteSession _ => cases hx

theorem DelegationInv.same (h : DelegationInv st) {b : Session} (hb : b ∈ st.world.born) {s : Session}
    (hs : s ∈ st.world.sessions) (hid : s.id = b.id) : SameDepth s b := by
  obtain ⟨b', hb', hsame⟩ := h.rows s hs
  rwa [h.lanes.ids b hb b' hb' (hid.symm.trans hsame.1)]

theorem sound_iff {c : Central} {source t : Session} (hnext : t.spawnDepth = source.spawnDepth + 1) :
    Delegation.Sound ⟨source, t, resolveMaxSpawnDepth c⟩ ↔
      if t.agentGroupId = source.agentGroupId then source.spawnDepth < resolveMaxSpawnDepth c
      else source.spawnDepth + 1 < resolveMaxSpawnDepth c := by
  by_cases hown : t.agentGroupId = source.agentGroupId
  · rw [if_pos hown]
    constructor
    · intro h
      have hcap := h.capped
      simp only [hnext] at hcap
      exact hcap
    · intro hroom
      refine ⟨hnext, ?_, fun c' _ => by simp [refusesDepth, hown]⟩
      simp only [hnext]
      exact hroom
  · rw [if_neg hown]
    constructor
    · intro h
      have hanswer := h.answers c rfl
      simp only [refusesDepth, hnext, Ne.symm hown, ne_eq, not_false_eq_true, decide_true, Bool.true_and,
        decide_eq_false_iff_not, not_le] at hanswer
      exact hanswer
    · intro hroom
      refine ⟨hnext, ?_, fun c' hcap => ?_⟩
      · simp only [hnext]
        exact hroom.le
      · simp only at hcap
        rw [refusesDepth, hcap, hnext]
        simp [hroom]

theorem delegationsSound_step (st : DelegationDesk) (e : RouteEvent) (st' : DelegationDesk) (h : DelegationInv st)
    (hP : DelegationsSound st) (hs : delegationStep st e = some st') : DelegationsSound st' ↔ LeavesRoom st e := by
  obtain ⟨hw, hdel⟩ := delegationStep_some hs
  have hiff : DelegationsSound st' ↔ ∀ x ∈ st.delegated st'.world e, x.Sound := by
    unfold DelegationsSound
    rw [hdel, List.forall_mem_append]
    exact and_iff_right hP
  rw [hiff]
  cases e with
  | deliver _ _ _ | updateStatus _ _ | deleteSession _ => exact ⟨fun _ => trivial, fun _ x hx => by cases hx⟩
  | route c d io mid sid msg =>
    cases hsource : getSession st.world.sessions sid with
    | none =>
      simp only [routeStep, hsource, Option.map_none] at hw
      split at hw <;> cases hw
    | some source =>
      simp only [DelegationDesk.delegated, hsource]
      rcases route_created h.lanes hsource hw with ⟨hborn, -⟩ | ⟨t, hborn, htarget, hnext, -, -, -⟩
      · -- no session is created
        refine ⟨fun _ source' w' _ hw' hne => ?_, fun _ x hx => ?_⟩
        · obtain rfl := Option.some.inj (hw.symm.trans hw')
          exact (hne hborn).elim
        · simp [hborn] at hx
      · have hone : (st'.world.born.drop st.world.born.length).map
            (fun created => (⟨source, created, resolveMaxSpawnDepth c⟩ : Delegation)) =
              [⟨source, t, resolveMaxSpawnDepth c⟩] := by simp [hborn]
        rw [hone, List.forall_mem_singleton, sound_iff hnext]
        have hgroup : t.agentGroupId = source.agentGroupId ↔ msg.platformId = some source.agentGroupId := by
          rw [htarget, Option.some.injEq]
        simp only [hgroup]
        constructor
        · intro hroom source' w' hsource' hw' _
          obtain rfl := Option.some.inj (hsource.symm.trans hsource')
          exact hroom
        · exact fun hC => hC source st'.world hsource hw (by simp [hborn])

/-- **When delegations are sound.** In every run, a session created by a delegation keeps its depth and its group;
and the sessions created are one deeper than their source, at most at the cap and not refused when they answer, in
every state of the run, exactly when every call of it that creates a session leaves room. -/
theorem delegation_sound_iff {es : List RouteEvent} {st : DelegationDesk}
    (hrun : Trans.run delegationStep DelegationDesk.empty es = some st) :
    (∀ x ∈ st.delegations, ∀ s ∈ st.world.sessions, s.id = x.created.id → SameDepth s x.created) ∧
      (Trans.Always delegationStep DelegationsSound DelegationDesk.empty es ↔
        Trans.Along delegationStep LeavesRoom DelegationDesk.empty es) := by
  have hempty : DelegationInv DelegationDesk.empty :=
    ⟨laneInv_empty, fun _ hs => (nomatch hs), fun _ hx => (nomatch hx)⟩
  have hinv : DelegationInv st := Trans.run_inv delegationInv_step hempty hrun
  refine ⟨fun x hx s hs hid => hinv.same (hinv.born x hx) hs hid, ?_⟩
  exact Trans.always_iff_along delegationInv_step delegationsSound_step hempty (fun _ hx => by cases hx) hrun

/-! ### A chain of two -/

/-- A front desk, a worker and its helper; a helper may write to the worker. -/
def chainCentral : Central :=
  { agentGroups := [⟨"ag-front", none, .ok none⟩, ⟨"ag-work", none, .ok (some .rootSession)⟩,
      ⟨"ag-help", none, .ok (some .rootSession)⟩]
    destinations := [⟨"ag-front", .agent, "ag-work"⟩, ⟨"ag-work", .agent, "ag-help"⟩, ⟨"ag-help", .agent, "ag-work"⟩]
    maxSpawnDepthEnv := none }

/-- A message to a group. -/
def chainMessage (target : String) : RoutableAgentMessage :=
  ⟨"out-1", some target, some (.obj [("text", .str "do it")]), none, none⟩

/-- The front desk's session asks the worker. -/
def chainRun : List RouteEvent :=
  [.deliver (sampleDraw 1) Io.idle sampleDelivery,
   .route chainCentral (sampleDraw 2) Io.idle "a2a-2" "sess-1-aaaaaa" (chainMessage "ag-work")]

theorem delegation_sound_iff_sample :
    ∃ st, Trans.run delegationStep DelegationDesk.empty chainRun = some st ∧
      (∀ x ∈ st.delegations, ∀ s ∈ st.world.sessions, s.id = x.created.id → SameDepth s x.created) ∧
        (Trans.Always delegationStep DelegationsSound DelegationDesk.empty chainRun ↔
          Trans.Along delegationStep LeavesRoom DelegationDesk.empty chainRun) := by
  have hrun : Trans.run delegationStep DelegationDesk.empty chainRun = some _ := rfl
  exact ⟨_, hrun, delegation_sound_iff hrun⟩

/-- The worker asks its helper, whose session is at the cap; the helper's answer is refused for its depth. -/
theorem answer_refused :
    ∃ st x, Trans.run delegationStep DelegationDesk.empty
        (chainRun ++ [.route chainCentral (sampleDraw 3) Io.idle "a2a-3" "sess-2-aaaaaa" (chainMessage "ag-help")]) =
          some st ∧
      x ∈ st.delegations ∧ x.source.agentGroupId = "ag-work" ∧ x.created.agentGroupId = "ag-help" ∧
      x.created.spawnDepth = x.cap ∧
      checkEdge chainCentral (chainMessage "ag-work") x.created =
        .error ("spawn-depth cap exceeded: source ag-help session sess-3-aaaaaa is at depth 2, " ++
          "AGENTDESK_MAX_SPAWN_DEPTH=2") := by
  have hrun : Trans.run delegationStep DelegationDesk.empty
      (chainRun ++ [.route chainCentral (sampleDraw 3) Io.idle "a2a-3" "sess-2-aaaaaa" (chainMessage "ag-help")]) =
        some _ := rfl
  exact ⟨_, _, hrun, .tail _ (.head _), rfl, rfl, rfl, by decide⟩

end AgentDesk
