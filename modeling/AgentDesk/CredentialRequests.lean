/-
# Who approves a credential

`src/modules/approvals/onecli-approvals.ts`: the gateway holds a request that needs a credential and calls the host,
which sends an approver a card. The request waits, in a map by the id on its card, for a click
(`handleApprovalsResponse`) or for its timer.

* `approved_iff`: in every run, a request is approved exactly when an approving click on its card came while it waited.
* `no_request_hangs_iff`: in every state of a run each request that waits is answered by the next click on its card, and
  by its timer, exactly when the handler is not stopped while one waits, no id is drawn that one waits with, and no
  click on one's card meets a failing write.

What is awaited ends one step and begins another: the search for an approver, the delivery of the card. The ids are
random. The rows of `pending_approvals` are left out: a click is looked up in the map first.
-/
import AgentDesk.Table
import AgentDesk.Trans

namespace AgentDesk

inductive CredentialDecision where
  | approve | deny
  deriving DecidableEq, Repr

/-- A request of the gateway. -/
inductive HeldRequest where
  /-- An approver whom a message reaches is looked for. -/
  | addressing
  | delivering (approvalId : String)
  | waiting (approvalId : String)
  | decided (decision : CredentialDecision)
  deriving DecidableEq, Repr

/-- An entry of the map: the promise and the timer are those of a request. -/
structure PendingState where
  approvalId : String
  request : ℕ
  deriving DecidableEq, Repr

/-- The handler: whether it is started, the requests so far, the map and the timers that run. -/
structure Credentials where
  started : Bool
  requests : List HeldRequest
  pending : List PendingState
  timers : List PendingState
  deriving DecidableEq, Repr

inductive CredentialEvent where
  | start
  | stop
  | request
  /-- The approver is found, or nobody is, and an id drawn. -/
  | addressed (request : ℕ) (approvalId : Option String)
  /-- The card is delivered and the row written, or one of them fails. -/
  | delivered (request : ℕ) (ok : Bool)
  | timer (request : ℕ)
  /-- A click on a card, and whether the writes go through that come before the answer. -/
  | click (approvalId value : String) (ok : Bool)

namespace Credentials

def empty : Credentials := ⟨false, [], [], []⟩

def put (s : Credentials) (request : ℕ) (h : HeldRequest) : Credentials :=
  { s with requests := s.requests.set request h }

/-- The promise of a request is resolved, which it is once. -/
def resolve (s : Credentials) (request : ℕ) (decision : CredentialDecision) : Credentials :=
  match s.requests[request]? with
  | some (.waiting _) => s.put request (.decided decision)
  | _ => s

/-- `resolveOneCLIApproval`; when a write throws, nothing is resolved any more. -/
def resolveOneCLIApproval (s : Credentials) (approvalId value : String) (ok : Bool) : Credentials :=
  match Table.find PendingState.approvalId s.pending approvalId with
  | none => s
  | some state =>
    let s' := { s with
      pending := Table.delete PendingState.approvalId s.pending approvalId
      timers := s.timers.filter fun t => t.request ≠ state.request }
    if ok then s'.resolve state.request (if value = "approve" then .approve else .deny) else s'

/-- The timer of a request, which looks its id up in the map. -/
def fire (s : Credentials) (state : PendingState) : Credentials :=
  let s' := { s with timers := s.timers.filter fun t => t.request ≠ state.request }
  match Table.find PendingState.approvalId s.pending state.approvalId with
  | none => s'
  | some _ =>
    { s' with pending := Table.delete PendingState.approvalId s.pending state.approvalId }.resolve state.request .deny

def step (s : Credentials) : CredentialEvent → Option Credentials
  | .start => some { s with started := true }
  | .stop => some { s with
      started := false, pending := []
      timers := s.timers.filter fun t => !s.pending.any fun p => p.request = t.request }
  | .request => some { s with requests := s.requests ++ [if s.started then .addressing else .decided .deny] }
  | .addressed i approvalId => match s.requests[i]?, approvalId with
    | some .addressing, some id => some (s.put i (if s.started then .delivering id else .decided .deny))
    | some .addressing, none => some (s.put i (.decided .deny))
    | _, _ => none
  | .delivered i ok => match s.requests[i]? with
    | some (.delivering id) => some (if ok then
        { s.put i (.waiting id) with
          pending := Table.delete PendingState.approvalId s.pending id ++ [⟨id, i⟩]
          timers := s.timers ++ [⟨id, i⟩] }
        else s.put i (.decided .deny))
    | _ => none
  | .timer i => (Table.find PendingState.request s.timers i).map s.fire
  | .click approvalId value ok => some (s.resolveOneCLIApproval approvalId value ok)

/-- A request whose timer runs waits, and the timer of what is in the map runs. -/
structure Inv (s : Credentials) : Prop where
  timers : ∀ t ∈ s.timers, s.requests[t.request]? = some (.waiting t.approvalId)
  timed : ∀ p ∈ s.pending, p ∈ s.timers
  keys : (s.pending.map PendingState.approvalId).Nodup

/-- The next click on the card of a request that waits answers it, and its timer refuses it. -/
def Answerable (s : Credentials) : Prop :=
  ∀ i id, s.requests[i]? = some (.waiting id) →
    (∀ value, (s.resolveOneCLIApproval id value true).requests[i]? =
      some (.decided (if value = "approve" then .approve else .deny))) ∧
    ∃ s', s.step (.timer i) = some s' ∧ s'.requests[i]? = some (.decided .deny)

/-- The handler does not stop while a request waits, a card has an id that nothing waits with, and the writes of a click
go through. -/
def Undisturbed (s : Credentials) : CredentialEvent → Prop
  | .stop => s.pending = []
  | .delivered i ok => ok = true → ∀ id, s.requests[i]? = some (.delivering id) → ∀ p ∈ s.pending, p.approvalId ≠ id
  | .click approvalId _ ok => (∃ p ∈ s.pending, p.approvalId = approvalId) → ok = true
  | _ => True

/-- In the run an approving click came on the card of the request while it waited. -/
def Heard (es : List CredentialEvent) (i : ℕ) : Prop :=
  ∃ es₁ id es₂ s, es = es₁ ++ .click id "approve" true :: es₂ ∧ Trans.run step empty es₁ = some s ∧
    s.requests[i]? = some (.waiting id) ∧ ⟨id, i⟩ ∈ s.pending

/-! ### What a step does -/

variable {s s' : Credentials} {e : CredentialEvent}

theorem Inv.pending (hinv : Inv s) : ∀ p ∈ s.pending, s.requests[p.request]? = some (.waiting p.approvalId) :=
  fun p hp => hinv.timers p (hinv.timed p hp)

/-- A request is answered, and is no longer in the map. -/
def settled (s : Credentials) (t : PendingState) (decision : CredentialDecision) : Credentials where
  started := s.started
  requests := s.requests.set t.request (.decided decision)
  pending := Table.delete PendingState.approvalId s.pending t.approvalId
  timers := s.timers.filter fun t' => t'.request ≠ t.request

/-- What an event leaves. -/
inductive Moved (s : Credentials) : CredentialEvent → Credentials → Prop where
  | started : Moved s .start { s with started := true }
  | stopped : Moved s .stop { s with
      started := false, pending := []
      timers := s.timers.filter fun t => !s.pending.any fun p => p.request = t.request }
  | came (h : HeldRequest) (hnew : h = .addressing ∨ h = .decided .deny) :
      Moved s .request { s with requests := s.requests ++ [h] }
  | went {e : CredentialEvent} {i : ℕ} {h h' : HeldRequest} (hi : s.requests[i]? = some h)
      (hold : h = .addressing ∨ ∃ id, h = .delivering id) (hnew : h' = .decided .deny ∨ ∃ id, h' = .delivering id)
      (hfree : s.Undisturbed e) : Moved s e (s.put i h')
  | asked {i : ℕ} {id : String} (hi : s.requests[i]? = some (.delivering id)) : Moved s (.delivered i true)
      { s.put i (.waiting id) with
        pending := Table.delete PendingState.approvalId s.pending id ++ [⟨id, i⟩]
        timers := s.timers ++ [⟨id, i⟩] }
  | answered {p : PendingState} (hp : p ∈ s.pending) (value : String) : Moved s (.click p.approvalId value true)
      (s.settled p (if value = "approve" then .approve else .deny))
  | failed {p : PendingState} (hp : p ∈ s.pending) (value : String) : Moved s (.click p.approvalId value false)
      { s with
        pending := Table.delete PendingState.approvalId s.pending p.approvalId
        timers := s.timers.filter fun t => t.request ≠ p.request }
  | unknown {id value : String} {ok : Bool} (hid : ∀ p ∈ s.pending, p.approvalId ≠ id) :
      Moved s (.click id value ok) s
  | expired {t : PendingState} (ht : t ∈ s.timers) (hid : ∃ p ∈ s.pending, p.approvalId = t.approvalId) :
      Moved s (.timer t.request) (s.settled t .deny)
  | idle {t : PendingState} (ht : t ∈ s.timers) (hid : ∀ p ∈ s.pending, p.approvalId ≠ t.approvalId) :
      Moved s (.timer t.request) { s with timers := s.timers.filter fun t' => t'.request ≠ t.request }

theorem eq_of_set {l : List HeldRequest} {i j : ℕ} {h h' : HeldRequest} (hset : (l.set j h)[i]? = some h') :
    (j = i ∧ h = h') ∨ (j ≠ i ∧ l[i]? = some h') := by
  by_cases hij : j = i
  · subst hij
    obtain ⟨hlt, heq⟩ := List.getElem?_eq_some_iff.mp hset
    rw [List.getElem_set_self] at heq
    exact .inl ⟨rfl, heq⟩
  · rw [List.getElem?_set_ne hij] at hset
    exact .inr ⟨hij, hset⟩

theorem set_of_ne {l : List HeldRequest} {i j : ℕ} {h h' new : HeldRequest} (hi : l[i]? = some h) (hj : l[j]? = some h')
    (hne : h' ≠ h) : (l.set j new)[i]? = some h := by
  have hij : j ≠ i := by
    rintro rfl
    exact hne (Option.some.inj (hj.symm.trans hi))
  rw [List.getElem?_set_ne hij, hi]

theorem eq_of_append {l : List HeldRequest} {i : ℕ} {h h' : HeldRequest} (happend : (l ++ [h])[i]? = some h') :
    l[i]? = some h' ∨ h = h' := by
  rw [List.getElem?_append] at happend
  split at happend
  · exact .inl happend
  · exact .inr (List.mem_singleton.mp (List.mem_of_getElem? happend)).symm

theorem resolve_waiting {i : ℕ} {id : String} (h : s.requests[i]? = some (.waiting id))
    (decision : CredentialDecision) : s.resolve i decision = s.put i (.decided decision) := by
  rw [resolve, h]

theorem click_settled (hinv : Inv s) {p : PendingState} (hp : p ∈ s.pending) (value : String) :
    s.resolveOneCLIApproval p.approvalId value true =
      s.settled p (if value = "approve" then .approve else .deny) := by
  have hfind : Table.find PendingState.approvalId s.pending p.approvalId = some p := Table.find_of_nodup hinv.keys hp
  have hwaits := hinv.pending p hp
  simp only [resolveOneCLIApproval, hfind, if_true]
  apply resolve_waiting
  exact hwaits

theorem fire_settled (hinv : Inv s) {t : PendingState} (ht : t ∈ s.timers)
    (hid : ∃ p ∈ s.pending, p.approvalId = t.approvalId) : s.fire t = s.settled t .deny := by
  obtain ⟨p, hp, hid⟩ := hid
  have hfind : Table.find PendingState.approvalId s.pending t.approvalId = some p :=
    hid ▸ Table.find_of_nodup hinv.keys hp
  have hwaits := hinv.timers t ht
  simp only [fire, hfind]
  apply resolve_waiting
  exact hwaits

theorem find_pending_none {id : String} (h : ∀ p ∈ s.pending, p.approvalId ≠ id) :
    Table.find PendingState.approvalId s.pending id = none := by
  simpa [Table.find] using h

theorem step_moved (hinv : Inv s) (h : s.step e = some s') : Moved s e s' := by
  cases e with
  | start =>
    obtain rfl := Option.some.inj h
    exact .started
  | stop =>
    obtain rfl := Option.some.inj h
    exact .stopped
  | request =>
    obtain rfl := Option.some.inj h
    apply Moved.came
    by_cases hstarted : s.started = true <;> simp [hstarted]
  | addressed i approvalId =>
    simp only [step] at h
    split at h
    · rename_i hi
      obtain rfl := Option.some.inj h
      refine .went hi (.inl rfl) ?_ trivial
      by_cases hstarted : s.started = true <;> simp [hstarted]
    · rename_i hi
      obtain rfl := Option.some.inj h
      exact .went hi (.inl rfl) (.inl rfl) trivial
    · cases h
  | delivered i ok =>
    simp only [step] at h
    split at h
    · rename_i id hi
      obtain rfl := Option.some.inj h
      cases ok with
      | true => exact .asked hi
      | false => exact .went hi (.inr ⟨id, rfl⟩) (.inl rfl) fun hok => absurd hok Bool.false_ne_true
    · cases h
  | timer i =>
    obtain ⟨t, hfind, rfl⟩ := Option.map_eq_some_iff.mp h
    obtain ⟨ht, rfl⟩ := Table.find_spec hfind
    by_cases hid : ∃ p ∈ s.pending, p.approvalId = t.approvalId
    · rw [fire_settled hinv ht hid]
      exact .expired ht hid
    · push Not at hid
      have hnone := find_pending_none hid
      simp only [fire, hnone]
      exact .idle ht hid
  | click id value ok =>
    obtain rfl := Option.some.inj h
    by_cases hid : ∃ p ∈ s.pending, p.approvalId = id
    · obtain ⟨p, hp, rfl⟩ := hid
      cases ok with
      | true =>
        rw [click_settled hinv hp]
        exact .answered hp value
      | false =>
        have hfind := Table.find_of_nodup hinv.keys hp
        simp only [resolveOneCLIApproval, hfind, Bool.false_eq_true, if_false]
        exact .failed hp value
    · push Not at hid
      have hnone := find_pending_none hid
      simp only [resolveOneCLIApproval, hnone]
      exact .unknown hid

/-! ### Every run -/

theorem inv_empty : Inv empty := ⟨by simp [empty], by simp [empty], by simp [empty]⟩

theorem mem_delete {p : PendingState} {id : String} :
    p ∈ Table.delete PendingState.approvalId s.pending id ↔ p ∈ s.pending ∧ p.approvalId ≠ id := by
  simp [Table.delete, List.mem_filter]

theorem request_ne {t t' : PendingState} (ht : s.requests[t.request]? = some (.waiting t.approvalId))
    (ht' : s.requests[t'.request]? = some (.waiting t'.approvalId)) (hne : t.approvalId ≠ t'.approvalId) :
    t.request ≠ t'.request := by
  intro heq
  rw [heq, ht'] at ht
  exact hne (HeldRequest.waiting.inj (Option.some.inj ht)).symm

/-- What does not wait may change. -/
theorem Inv.put (hinv : Inv s) {i : ℕ} {h : HeldRequest} (hi : s.requests[i]? = some h) (hold : ∀ id, h ≠ .waiting id)
    (h' : HeldRequest) : Inv (s.put i h') :=
  ⟨fun t ht => set_of_ne (hinv.timers t ht) hi (hold _), hinv.timed, hinv.keys⟩

theorem Inv.settled (hinv : Inv s) {t : PendingState} (ht : t ∈ s.timers) (decision : CredentialDecision) :
    Inv (s.settled t decision) := by
  refine ⟨fun t' ht' => ?_, fun p hp => ?_, Table.nodup_delete hinv.keys _⟩
  · obtain ⟨ht', hne⟩ := List.mem_filter.mp ht'
    have hne : t.request ≠ t'.request := fun heq => of_decide_eq_true hne heq.symm
    rw [← hinv.timers t' ht']
    exact List.getElem?_set_ne hne
  · obtain ⟨hp, hid⟩ := mem_delete.mp hp
    have hne := request_ne (hinv.pending p hp) (hinv.timers t ht) hid
    exact List.mem_filter.mpr ⟨hinv.timed p hp, by simpa using hne⟩

theorem inv_step (s : Credentials) (e : CredentialEvent) (s' : Credentials) (hinv : Inv s) (h : s.step e = some s') :
    Inv s' := by
  cases step_moved hinv h with
  | started => exact ⟨hinv.timers, hinv.timed, hinv.keys⟩
  | stopped => exact ⟨fun t ht => hinv.timers t (List.mem_filter.mp ht).1, by simp, by simp⟩
  | came new hnew =>
    refine ⟨fun t ht => ?_, hinv.timed, hinv.keys⟩
    show (s.requests ++ [new])[t.request]? = _
    rw [List.getElem?_append_left (List.getElem?_eq_some_iff.mp (hinv.timers t ht)).1, hinv.timers t ht]
  | went hi hold hnew hfree => exact hinv.put hi (by rintro id rfl; simp at hold) _
  | @asked i id hi =>
    have hput := hinv.put hi (fun _ => HeldRequest.noConfusion) (.waiting id)
    refine ⟨fun t ht => ?_, fun p hp => ?_, ?_⟩
    · rcases List.mem_append.mp ht with ht | ht
      · exact hput.timers t ht
      · rw [List.mem_singleton.mp ht]
        exact List.getElem?_set_self (List.getElem?_eq_some_iff.mp hi).1
    · rcases List.mem_append.mp hp with hp | hp
      · exact List.mem_append_left _ (hinv.timed p (mem_delete.mp hp).1)
      · exact List.mem_append_right _ hp
    · show ((_ ++ [_]).map PendingState.approvalId).Nodup
      rw [List.map_append, List.map_singleton, ← List.concat_eq_append]
      refine (Table.nodup_delete hinv.keys id).concat fun hmem => ?_
      obtain ⟨p, hp, hid⟩ := List.mem_map.mp hmem
      exact (mem_delete.mp hp).2 hid
  | answered hp value => exact hinv.settled (hinv.timed _ hp) _
  | @failed p hp value =>
    refine ⟨fun t ht => hinv.timers t (List.mem_filter.mp ht).1, fun q hq => ?_, Table.nodup_delete hinv.keys _⟩
    obtain ⟨hq, hid⟩ := mem_delete.mp hq
    have hne := request_ne (hinv.pending q hq) (hinv.pending p hp) hid
    exact List.mem_filter.mpr ⟨hinv.timed q hq, by simpa using hne⟩
  | unknown hid => exact hinv
  | expired ht hid => exact hinv.settled ht _
  | @idle t ht hid =>
    refine ⟨fun t' ht' => hinv.timers t' (List.mem_filter.mp ht').1, fun p hp => ?_, hinv.keys⟩
    have hne := request_ne (hinv.pending p hp) (hinv.timers t ht) (hid p hp)
    exact List.mem_filter.mpr ⟨hinv.timed p hp, by simpa using hne⟩

theorem decided_step {i : ℕ} {decision : CredentialDecision} (hinv : Inv s) (h : s.step e = some s')
    (hi : s.requests[i]? = some (.decided decision)) : s'.requests[i]? = some (.decided decision) := by
  cases step_moved hinv h with
  | started | stopped | unknown | idle | failed => exact hi
  | came new hnew =>
    show (s.requests ++ [new])[i]? = _
    rw [List.getElem?_append_left (List.getElem?_eq_some_iff.mp hi).1, hi]
  | went hj hold hnew hfree => exact set_of_ne hi hj (by rintro rfl; simp at hold)
  | asked hj => exact set_of_ne hi hj HeldRequest.noConfusion
  | answered hp value => exact set_of_ne hi (hinv.pending _ hp) HeldRequest.noConfusion
  | expired ht hid => exact set_of_ne hi (hinv.timers _ ht) HeldRequest.noConfusion

theorem approved_step {i : ℕ} (hinv : Inv s) (h : s.step e = some s') (hi : s'.requests[i]? = some (.decided .approve))
    (hnot : s.requests[i]? ≠ some (.decided .approve)) :
    ∃ id, e = .click id "approve" true ∧ s.requests[i]? = some (.waiting id) ∧ ⟨id, i⟩ ∈ s.pending := by
  have hwritten : ∀ {j : ℕ} {h : HeldRequest}, (s.requests.set j h)[i]? = some (.decided .approve) →
      j = i ∧ h = .decided .approve :=
    fun hset => (eq_of_set hset).resolve_right fun hold => hnot hold.2
  cases step_moved hinv h with
  | started | stopped | unknown | idle | failed => exact absurd hi hnot
  | came new hnew =>
    rcases eq_of_append hi with hi | rfl
    · exact absurd hi hnot
    · simp at hnew
  | went hj hold hnew hfree =>
    obtain ⟨rfl, rfl⟩ := hwritten hi
    simp at hnew
  | asked hj => exact absurd (hwritten hi).2 HeldRequest.noConfusion
  | @answered p hp value =>
    obtain ⟨rfl, heq⟩ := hwritten hi
    have hvalue : value = "approve" := by
      by_contra hne
      rw [if_neg hne] at heq
      cases heq
    exact ⟨p.approvalId, by rw [hvalue], hinv.pending p hp, hp⟩
  | expired ht hid => exact absurd (hwritten hi).2 (by simp)

/-- **A credential is used exactly where an approver said so.** In every run of starts and stops, requests, deliveries,
timers and clicks, a request is approved exactly when an approving click came on its card while it waited. -/
theorem approved_iff {es : List CredentialEvent} (h : Trans.run step empty es = some s) (i : ℕ) :
    s.requests[i]? = some (.decided .approve) ↔ Heard es i := by
  constructor
  · intro hi
    obtain ⟨es₁, e, es₂, s₁, s₂, rfl, h₁, hstep, hnot, hafter⟩ :=
      Trans.exists_crossing (P := fun s => s.requests[i]? = some (.decided .approve)) h (by simp [empty]) hi
    have hinv := Trans.run_inv inv_step inv_empty h₁
    obtain ⟨id, rfl, hwaits, hp⟩ := approved_step hinv hstep hafter hnot
    exact ⟨es₁, id, es₂, s₁, rfl, h₁, hwaits, hp⟩
  · rintro ⟨es₁, id, es₂, s₁, rfl, h₁, hwaits, hp⟩
    obtain ⟨s₁', h₁', hrest⟩ := Trans.run_append h
    obtain rfl : s₁ = s₁' := Option.some.inj (h₁.symm.trans h₁')
    obtain ⟨s₂, hstep, h₂⟩ := Trans.run_cons.mp hrest
    have hinv := Trans.run_inv inv_step inv_empty h₁
    have hinv₂ := inv_step _ _ _ hinv hstep
    have hdecided : s₂.requests[i]? = some (.decided .approve) := by
      obtain rfl := Option.some.inj hstep
      rw [click_settled hinv hp]
      exact List.getElem?_set_self (List.getElem?_eq_some_iff.mp hwaits).1
    have hkept := Trans.run_inv (I := fun s => Inv s ∧ s.requests[i]? = some (.decided .approve))
      (fun s e s' hs hstep => ⟨inv_step s e s' hs.1 hstep, decided_step hs.1 hstep hs.2⟩) ⟨hinv₂, hdecided⟩ h₂
    exact hkept.2

/-- A request of an agent, its card and the click. -/
def clicked : List CredentialEvent :=
  [.start, .request, .addressed 0 (some "oa-1"), .delivered 0 true, .click "oa-1" "approve" true]

theorem approved_iff_sample : ∃ s, Trans.run step empty clicked = some s ∧
    (s.requests[0]? = some (.decided .approve) ↔ Heard clicked 0) :=
  ⟨_, rfl, approved_iff rfl 0⟩

/-! ### Requests that wait -/

/-- Each request that waits is in the map. -/
def AllPending (s : Credentials) : Prop := ∀ i id, s.requests[i]? = some (.waiting id) → ⟨id, i⟩ ∈ s.pending

theorem answerable_iff_pending (hinv : Inv s) : s.Answerable ↔ s.AllPending := by
  constructor
  · intro h i id hi
    have hclick := (h i id hi).1 "approve"
    by_contra hp
    have hunmoved : (s.resolveOneCLIApproval id "approve" true).requests[i]? = some (.waiting id) := by
      by_cases hid : ∃ p ∈ s.pending, p.approvalId = id
      · obtain ⟨p, hmem, rfl⟩ := hid
        have hne : p.request ≠ i := by
          rintro rfl
          exact hp hmem
        rw [click_settled hinv hmem, ← hi]
        exact List.getElem?_set_ne hne
      · push Not at hid
        have hnone := find_pending_none hid
        simp only [resolveOneCLIApproval, hnone, hi]
    rw [hunmoved] at hclick
    simp at hclick
  · intro h i id hi
    have hp := h i id hi
    have hlt := (List.getElem?_eq_some_iff.mp hi).1
    refine ⟨fun value => ?_, ?_⟩
    · rw [click_settled hinv hp]
      exact List.getElem?_set_self hlt
    · have htimed := hinv.timed _ hp
      cases hfind : Table.find PendingState.request s.timers i with
      | none => exact absurd rfl (Table.find_none hfind _ htimed)
      | some t =>
        obtain ⟨ht, rfl⟩ := Table.find_spec hfind
        have hid : id = t.approvalId := HeldRequest.waiting.inj (Option.some.inj (hi.symm.trans (hinv.timers t ht)))
        refine ⟨s.fire t, by rw [step, hfind]; rfl, ?_⟩
        rw [fire_settled hinv ht ⟨_, hp, hid⟩]
        exact List.getElem?_set_self hlt

theorem AllPending.settled (hall : s.AllPending) (hinv : Inv s) {t : PendingState} (ht : t ∈ s.timers)
    (decision : CredentialDecision) : (s.settled t decision).AllPending := by
  have hp := hall _ _ (hinv.timers t ht)
  intro i id hi
  obtain ⟨hne, hi⟩ := (eq_of_set hi).resolve_left fun heq => HeldRequest.noConfusion heq.2
  refine mem_delete.mpr ⟨hall i id hi, fun hid => hne ?_⟩
  have hsame := List.inj_on_of_nodup_map hinv.keys hp (hall i id hi) hid.symm
  exact congrArg PendingState.request hsame

theorem allPending_step (hinv : Inv s) (hall : s.AllPending) (h : s.step e = some s') :
    s'.AllPending ↔ s.Undisturbed e := by
  cases step_moved hinv h with
  | started => exact iff_of_true hall trivial
  | stopped =>
    constructor
    · intro hall'
      refine List.eq_nil_iff_forall_not_mem.mpr fun p hp => ?_
      exact List.not_mem_nil (hall' _ _ (hinv.pending p hp))
    · intro hnil i id hi
      have hp := hall i id hi
      rw [show s.pending = [] from hnil] at hp
      exact hp
  | came new hnew =>
    refine iff_of_true (fun i id hi => ?_) trivial
    rcases eq_of_append hi with hi | rfl
    · exact hall i id hi
    · simp at hnew
  | went hj hold hnew hfree =>
    refine iff_of_true (fun i id hi => ?_) hfree
    rcases eq_of_set hi with ⟨rfl, rfl⟩ | ⟨-, hi⟩
    · simp at hnew
    · exact hall i id hi
  | @asked j id hj =>
    constructor
    · intro hall' _ id' hj' p hp
      obtain rfl : id = id' := HeldRequest.delivering.inj (Option.some.inj (hj.symm.trans hj'))
      have hmem := hall' p.request p.approvalId (set_of_ne (hinv.pending p hp) hj HeldRequest.noConfusion)
      rcases List.mem_append.mp hmem with hmem | hmem
      · exact (mem_delete.mp hmem).2
      · obtain ⟨-, rfl⟩ := PendingState.mk.inj (List.mem_singleton.mp hmem)
        rw [hinv.pending p hp] at hj
        cases hj
    · intro hfree i id' hi
      rcases eq_of_set hi with ⟨rfl, heq⟩ | ⟨-, hi⟩
      · obtain rfl := HeldRequest.waiting.inj heq
        exact List.mem_append_right _ (List.mem_singleton.mpr rfl)
      · have hp := hall i id' hi
        exact List.mem_append_left _ (mem_delete.mpr ⟨hp, hfree rfl id hj _ hp⟩)
  | answered hp value => exact iff_of_true (hall.settled hinv (hinv.timed _ hp) _) fun _ => rfl
  | @failed p hp value =>
    refine iff_of_false (fun hall' => ?_) fun hok => Bool.false_ne_true (hok ⟨p, hp, rfl⟩)
    exact (mem_delete.mp (hall' _ _ (hinv.pending p hp))).2 rfl
  | unknown hid => exact iff_of_true hall fun hp => hp.elim fun p hp => absurd hp.2 (hid p hp.1)
  | expired ht hid => exact iff_of_true (hall.settled hinv ht _) trivial
  | idle ht hid => exact iff_of_true hall trivial

/-- **No request hangs**: in every state of a run each request that waits is answered by the next click on its card, and
by its timer, exactly when the handler never stops while one waits, no card gets the id of one that waits, and no
write of a click on the card of one fails. -/
theorem no_request_hangs_iff {es : List CredentialEvent} (h : Trans.run step empty es = some s) :
    Trans.Always step Answerable empty es ↔ Trans.Along step Undisturbed empty es := by
  have hkeep : ∀ s e s', Inv s → s.Answerable → step s e = some s' → (s'.Answerable ↔ s.Undisturbed e) := by
    intro s e s' hinv hanswer hstep
    rw [answerable_iff_pending (inv_step s e s' hinv hstep)]
    exact allPending_step hinv ((answerable_iff_pending hinv).mp hanswer) hstep
  exact Trans.always_iff_along inv_step hkeep inv_empty (by simp [Answerable, empty]) h

theorem no_request_hangs_iff_sample : ∃ s, Trans.run step empty clicked = some s ∧
    (Trans.Always step Answerable empty clicked ↔ Trans.Along step Undisturbed empty clicked) :=
  ⟨_, rfl, no_request_hangs_iff rfl⟩

end Credentials
end AgentDesk
