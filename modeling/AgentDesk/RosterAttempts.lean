/-
# Roster attempts and opt-outs

`deliverRosterMessage` (`src/delivery.ts`) checks a slot's grant, may then wait for the gateway's decision and for
the membership of the participant, reserves the send and calls the adapter. Between the check and the reservation
anybody may revoke the grant. The reservation finds that out, since it charges open grants only; but not where the
message holds a reservation already, kept after a timeout: then nothing is charged, and nothing is looked at.

* `optOut_ignored`: a timeout, a retry, and a revoke while the retry waits.
* `optOut_respected_iff`: over the runs in which no rollback opens a revoked grant, no adapter call starts for a
  grant somebody revoked since its last consent, exactly when no attempt that has waited goes on to the adapter
  with a reservation that stands and a grant somebody revoked.

A step is one stretch of code between two awaits. What an attempt reads is in the event's `HostEnv`, but for the
two tables, which are the state's. The flags the gateway was asked under are those of the answer.
-/
import AgentDesk.Drain
import AgentDesk.RosterRevocation

namespace AgentDesk

open Js

/-! ### Attempts -/

/-- Where an attempt that has passed the gates is. -/
inductive AttemptPhase where
  /-- The gateway has been asked. -/
  | authorizing
  /-- The adapter has been asked for the participant's membership. -/
  | verifying (target : Target)
  /-- The adapter's `deliver` is on its way. -/
  | sending (x : Send) (fresh : Bool)

structure RosterAttempt where
  session : Session
  msg : OutboundMessage
  slot : String
  grant : DmGrantRow
  phase : AttemptPhase

/-- An adapter call, and whether the grant had been revoked by then and not consented to again (which no code
reads). -/
structure RosterAdapterCall where
  messageOutId : String
  grantId : String
  target : Target
  revoked : Bool

/-- The tables with what happened to them, the attempts on their way, the adapter calls so far, and the attempts
whose reservation was kept after a timeout. -/
structure RosterDesk where
  roster : RosterState
  attempts : ℕ → Option RosterAttempt
  sends : List RosterAdapterCall
  kept : List RosterAttempt

def RosterDesk.empty : RosterDesk := ⟨.empty, fun _ => none, [], []⟩

inductive RosterDeskEvent where
  | consent (a : InsertDmGrantArgs)
  | revoke (rv : Revocation) (now : ℕ)
  /-- An attempt for a row, up to its first await; `originGroup`: there is a group to ask about. -/
  | begin (attempt : ℕ) (env : HostEnv) (originGroup : Bool) (session : Session) (msg : OutboundMessage)
      (content : List (String × Json))
  /-- The gateway answers. -/
  | authorized (attempt : ℕ) (env : HostEnv) (originGroup : Bool)
  /-- The membership check answers. -/
  | verified (attempt : ℕ) (env : HostEnv)
  /-- `deliver` resolves, takes too long, or rejects. -/
  | delivered (attempt : ℕ)
  | timedOut (attempt : ℕ)
  | failed (attempt : ℕ)

/-- The tables after a call; every call comes back. -/
def RosterState.after (s : RosterState) (e : RosterEvent) : RosterState := (rosterStep s e).getD s

def RosterDesk.setAttempt (st : RosterDesk) (i : ℕ) (a : Option RosterAttempt) : RosterDesk :=
  { st with attempts := Function.update st.attempts i a }

/-- The gateway is asked before the send: it is the authority, and it is there and can be trusted. -/
def awaitsAuthority (env : HostEnv) (session : Session) : Bool :=
  env.rosterGatewayAuthorityEnabled && (getAgentGroup env.central session.agentGroupId).isSome &&
    env.gateway session.agentGroupId = some true

/-- The reservation and, when it stands, the adapter call; else the attempt is over. -/
def RosterDesk.send (st : RosterDesk) (i : ℕ) (env : HostEnv) (a : RosterAttempt) (target : Target) : RosterDesk :=
  let x := rosterSend env a.session a.msg a.grant
  match (reserveRosterSend st.roster.db x).2 with
  | some (.ok fresh) =>
    { st.setAttempt i (some { a with phase := .sending x fresh }) with
      roster := st.roster.after (.reserve x)
      sends := st.sends ++ [⟨a.msg.id, a.grant.id, target, st.roster.books.revoked a.grant.id⟩] }
  | _ => st.setAttempt i none

/-- The membership is asked for before the send. -/
def awaitsMembership (env : HostEnv) (originGroup : Bool) : Bool := env.rosterVerifyMembershipEnabled && originGroup

/-- On with a target. -/
def RosterDesk.afterTarget (st : RosterDesk) (i : ℕ) (env : HostEnv) (originGroup : Bool) (a : RosterAttempt) :
    Except String Target → RosterDesk
  | .error _ => st.setAttempt i none
  | .ok target =>
    if !env.adapter then st.setAttempt i none
    else if awaitsMembership env originGroup then
      st.setAttempt i (some { a with phase := .verifying target })
    else st.send i env a target

/-- On with a grant that passed the gates. -/
def RosterDesk.afterGate (st : RosterDesk) (i : ℕ) (env : HostEnv) (originGroup : Bool) (a : RosterAttempt) :
    RosterDesk :=
  if awaitsAuthority env a.session then st.setAttempt i (some { a with phase := .authorizing })
  else st.afterTarget i env originGroup a (rosterTarget env a.session a.msg a.grant)

def rosterDeskStep (st : RosterDesk) : RosterDeskEvent → Option RosterDesk
  | .consent a => some { st with roster := st.roster.after (.consent a) }
  | .revoke rv now => some { st with roster := st.roster.after (.revoke rv now) }
  | .begin i env originGroup session msg content =>
    if (st.attempts i).isSome then none
    else match rosterGate { env with grants := st.roster.db.grants } session msg content, slotOf content with
      | .ok grant, some slot => some (st.afterGate i env originGroup ⟨session, msg, slot, grant, .authorizing⟩)
      | _, _ => some st
  | .authorized i env originGroup => match st.attempts i with
    | some ⟨session, msg, slot, grant, .authorizing⟩ =>
      if awaitsAuthority env session then
        some (st.afterTarget i env originGroup ⟨session, msg, slot, grant, .authorizing⟩
          (rosterTarget env session msg grant))
      else none
    | _ => none
  | .verified i env => match st.attempts i with
    | some ⟨session, msg, slot, grant, .verifying target⟩ =>
      if env.stillMember = some false then
        -- a leaver: the grant is torn down, and the row rejected
        let rv : Revocation := .participantInScope (hostScopeForSession session) grant.participantOpenId
        some { st.setAttempt i none with roster := st.roster.after (.revoke rv env.now) }
      else some (st.send i env ⟨session, msg, slot, grant, .verifying target⟩ target)
    | _ => none
  | .delivered i => match st.attempts i with
    | some ⟨_, _, _, _, .sending _ _⟩ => some (st.setAttempt i none)
    | _ => none
  | .timedOut i => match st.attempts i with
    | some ⟨session, msg, slot, grant, .sending x fresh⟩ =>
      some { st.setAttempt i none with
        kept := if fresh then st.kept ++ [⟨session, msg, slot, grant, .sending x fresh⟩] else st.kept }
    | _ => none
  | .failed i => match st.attempts i with
    | some ⟨_, _, _, _, .sending x fresh⟩ =>
      -- only its own reservation is undone
      some { st.setAttempt i none with roster := if fresh then st.roster.after (.rollback x) else st.roster }
    | _ => none

/-- No adapter call was for a grant that somebody had revoked. -/
def OptOutsRespected (st : RosterDesk) : Prop := ∀ c ∈ st.sends, c.revoked = false

/-- The event takes an attempt that has waited to its reservation. -/
def RosterDeskEvent.reserves : RosterDeskEvent → RosterAttempt → Bool
  | .authorized _ env originGroup, ⟨session, msg, _, grant, .authorizing⟩ =>
    awaitsAuthority env session && (rosterTarget env session msg grant).isOk && env.adapter &&
      !awaitsMembership env originGroup
  | .verified _ env, ⟨_, _, _, _, .verifying _⟩ => env.stillMember ≠ some false
  | _, _ => false

/-- The attempt an answer is for. -/
def RosterDeskEvent.attempt : RosterDeskEvent → Option ℕ
  | .authorized i _ _ | .verified i _ => some i
  | _ => none

/-- The event takes no attempt that has waited, and whose message has a reservation, to the adapter with a grant that
somebody revoked. -/
def ResumesUnrevoked (st : RosterDesk) (e : RosterDeskEvent) : Prop :=
  ∀ i a, e.attempt = some i → st.attempts i = some a → e.reserves a = true →
    hasRosterReservation st.roster.db.ledger a.msg.id = true → st.roster.books.revoked a.grant.id = false

/-- The event is not a rollback that opens a grant somebody revoked. -/
def NoReopening (st : RosterDesk) : RosterDeskEvent → Prop
  | .failed i => ∀ a x, st.attempts i = some a → a.phase = .sending x true → NoReopen st.roster (.rollback x)
  | _ => True

/-! ### What a step can do -/

variable {st st' : RosterDesk} {e : RosterDeskEvent} {i : ℕ} {env : HostEnv} {originGroup : Bool} {a : RosterAttempt}
  {target : Target}

theorem rosterStep_after (s : RosterState) (e : RosterEvent) : rosterStep s e = some (s.after e) := by
  have htotal : ∃ s', rosterStep s e = some s' := by
    cases e with
    | consent a => exact ⟨_, rfl⟩
    | revoke rv now => exact ⟨_, rfl⟩
    | reserve x =>
      simp only [rosterStep]
      split <;> exact ⟨_, rfl⟩
    | rollback x =>
      simp only [rosterStep]
      split <;> exact ⟨_, rfl⟩
  obtain ⟨s', hs'⟩ := htotal
  rw [RosterState.after, hs']
  rfl

/-- The send of an attempt. -/
def RosterAttempt.send (env : HostEnv) (a : RosterAttempt) : Send := rosterSend env a.session a.msg a.grant

theorem send_cases (st : RosterDesk) (i : ℕ) (env : HostEnv) (a : RosterAttempt) (target : Target) :
    ((∀ fresh, (reserveRosterSend st.roster.db (a.send env)).2 ≠ some (.ok fresh)) ∧
        st.send i env a target = st.setAttempt i none) ∨
      ∃ fresh, (reserveRosterSend st.roster.db (a.send env)).2 = some (.ok fresh) ∧ st.send i env a target =
        { st.setAttempt i (some { a with phase := .sending (a.send env) fresh }) with
          roster := st.roster.after (.reserve (a.send env))
          sends := st.sends ++ [⟨a.msg.id, a.grant.id, target, st.roster.books.revoked a.grant.id⟩] } := by
  unfold RosterDesk.send
  simp only
  split
  · rename_i fresh hok
    exact .inr ⟨fresh, hok, rfl⟩
  · rename_i hno
    exact .inl ⟨hno, rfl⟩

theorem afterTarget_cases (st : RosterDesk) (i : ℕ) (env : HostEnv) (originGroup : Bool) (a : RosterAttempt)
    (t : Except String Target) :
    ((t.isOk = true → env.adapter = false) ∧ st.afterTarget i env originGroup a t = st.setAttempt i none) ∨
      (∃ target, awaitsMembership env originGroup = true ∧
        st.afterTarget i env originGroup a t = st.setAttempt i (some { a with phase := .verifying target })) ∨
      ∃ target, t.isOk = true ∧ env.adapter = true ∧ awaitsMembership env originGroup = false ∧
        st.afterTarget i env originGroup a t = st.send i env a target := by
  cases t with
  | error e => exact .inl ⟨fun h => (nomatch h), rfl⟩
  | ok target =>
    unfold RosterDesk.afterTarget
    by_cases hadapter : env.adapter = true
    · cases hmember : awaitsMembership env originGroup with
      | true => exact .inr (.inl ⟨target, rfl, by simp [hadapter]⟩)
      | false => exact .inr (.inr ⟨target, rfl, hadapter, rfl, by simp [hadapter]⟩)
    · exact .inl ⟨fun _ => by simpa using hadapter, by simp [hadapter]⟩

/-- Nothing happens to the tables, or one call does. -/
def OneCall (st st' : RosterDesk) : Prop :=
  st'.roster = st.roster ∨ ∃ re, (∀ x, re ≠ .rollback x) ∧ st'.roster = st.roster.after re

theorem oneCall_send (st : RosterDesk) (i : ℕ) (env : HostEnv) (a : RosterAttempt) (target : Target) :
    OneCall st (st.send i env a target) := by
  rcases send_cases st i env a target with ⟨-, he⟩ | ⟨fresh, -, he⟩ <;> rw [he]
  · exact .inl rfl
  · exact .inr ⟨.reserve (a.send env), fun _ h => (nomatch h), rfl⟩

theorem oneCall_afterTarget (st : RosterDesk) (i : ℕ) (env : HostEnv) (originGroup : Bool) (a : RosterAttempt)
    (t : Except String Target) : OneCall st (st.afterTarget i env originGroup a t) := by
  rcases afterTarget_cases st i env originGroup a t with ⟨-, he⟩ | ⟨target, -, he⟩ | ⟨target, -, -, -, he⟩ <;> rw [he]
  · exact .inl rfl
  · exact .inl rfl
  · exact oneCall_send st i env a target

theorem rosterDeskStep_begin {session : Session} {msg : OutboundMessage} {content : List (String × Json)}
    (hs : rosterDeskStep st (.begin i env originGroup session msg content) = some st') :
    st.attempts i = none ∧ (st' = st ∨ ∃ grant slot,
      rosterGate { env with grants := st.roster.db.grants } session msg content = .ok grant ∧
        slotOf content = some slot ∧
        st' = st.afterGate i env originGroup ⟨session, msg, slot, grant, .authorizing⟩) := by
  simp only [rosterDeskStep] at hs
  split at hs
  · cases hs
  rename_i hnone
  refine ⟨by simpa using hnone, ?_⟩
  split at hs
  · rename_i grant slot hgate hslot
    exact .inr ⟨grant, slot, hgate, hslot, (Option.some.inj hs).symm⟩
  · exact .inl (Option.some.inj hs).symm

theorem rosterDeskStep_authorized (hs : rosterDeskStep st (.authorized i env originGroup) = some st') :
    ∃ a, st.attempts i = some a ∧ a.phase = .authorizing ∧ awaitsAuthority env a.session = true ∧
      st' = st.afterTarget i env originGroup a (rosterTarget env a.session a.msg a.grant) := by
  simp only [rosterDeskStep] at hs
  split at hs
  · rename_i hi
    split at hs
    · rename_i hwait
      exact ⟨_, hi, rfl, hwait, (Option.some.inj hs).symm⟩
    · cases hs
  · cases hs

theorem rosterDeskStep_verified (hs : rosterDeskStep st (.verified i env) = some st') :
    ∃ a target, st.attempts i = some a ∧ a.phase = .verifying target ∧
      ((env.stillMember = some false ∧ ∃ rv, st' =
          { st.setAttempt i none with roster := st.roster.after (.revoke rv env.now) }) ∨
        (env.stillMember ≠ some false ∧ st' = st.send i env a target)) := by
  simp only [rosterDeskStep] at hs
  split at hs
  · rename_i hi
    split at hs <;> rename_i hmember
    · exact ⟨_, _, hi, rfl, .inl ⟨hmember, _, (Option.some.inj hs).symm⟩⟩
    · exact ⟨_, _, hi, rfl, .inr ⟨hmember, (Option.some.inj hs).symm⟩⟩
  · cases hs

theorem rosterDeskStep_timedOut (hs : rosterDeskStep st (.timedOut i) = some st') :
    ∃ a x fresh, st.attempts i = some a ∧ a.phase = .sending x fresh ∧ st' =
      { st.setAttempt i none with kept := if fresh then st.kept ++ [a] else st.kept } := by
  simp only [rosterDeskStep] at hs
  split at hs
  · rename_i x fresh hi
    exact ⟨_, x, fresh, hi, rfl, (Option.some.inj hs).symm⟩
  · cases hs

theorem rosterDeskStep_failed (hs : rosterDeskStep st (.failed i) = some st') :
    ∃ a x fresh, st.attempts i = some a ∧ a.phase = .sending x fresh ∧ st' =
      { st.setAttempt i none with roster := if fresh then st.roster.after (.rollback x) else st.roster } := by
  simp only [rosterDeskStep] at hs
  split at hs
  · rename_i x fresh hi
    exact ⟨_, x, fresh, hi, rfl, (Option.some.inj hs).symm⟩
  · cases hs

theorem rosterDeskStep_delivered (hs : rosterDeskStep st (.delivered i) = some st') :
    ∃ a x fresh, st.attempts i = some a ∧ a.phase = .sending x fresh ∧ st' = st.setAttempt i none := by
  simp only [rosterDeskStep] at hs
  split at hs
  · rename_i x fresh hi
    exact ⟨_, x, fresh, hi, rfl, (Option.some.inj hs).symm⟩
  · cases hs

theorem oneCall_afterGate (st : RosterDesk) (i : ℕ) (env : HostEnv) (originGroup : Bool) (a : RosterAttempt) :
    OneCall st (st.afterGate i env originGroup a) := by
  unfold RosterDesk.afterGate
  split
  · exact .inl rfl
  · exact oneCall_afterTarget ..

theorem rosterDeskStep_roster (hs : rosterDeskStep st e = some st') :
    OneCall st st' ∨ ∃ i a x, e = .failed i ∧ st.attempts i = some a ∧ a.phase = .sending x true ∧
      st'.roster = st.roster.after (.rollback x) := by
  cases e with
  | consent a =>
    obtain rfl := Option.some.inj hs
    exact .inl (.inr ⟨.consent a, fun _ h => (nomatch h), rfl⟩)
  | revoke rv now =>
    obtain rfl := Option.some.inj hs
    exact .inl (.inr ⟨.revoke rv now, fun _ h => (nomatch h), rfl⟩)
  | begin i env originGroup session msg content =>
    obtain ⟨-, rfl | ⟨grant, slot, -, -, rfl⟩⟩ := rosterDeskStep_begin hs
    · exact .inl (.inl rfl)
    · exact .inl (oneCall_afterGate ..)
  | authorized i env originGroup =>
    obtain ⟨a, -, -, -, rfl⟩ := rosterDeskStep_authorized hs
    exact .inl (oneCall_afterTarget ..)
  | verified i env =>
    obtain ⟨a, target, -, -, ⟨-, rv, rfl⟩ | ⟨-, rfl⟩⟩ := rosterDeskStep_verified hs
    · exact .inl (.inr ⟨.revoke rv env.now, fun _ h => (nomatch h), rfl⟩)
    · exact .inl (oneCall_send ..)
  | delivered i =>
    obtain ⟨a, x, fresh, -, -, rfl⟩ := rosterDeskStep_delivered hs
    exact .inl (.inl rfl)
  | timedOut i =>
    obtain ⟨a, x, fresh, -, -, rfl⟩ := rosterDeskStep_timedOut hs
    exact .inl (.inl rfl)
  | failed i =>
    obtain ⟨a, x, fresh, hi, hphase, rfl⟩ := rosterDeskStep_failed hs
    cases fresh with
    | false => exact .inl (.inl rfl)
    | true => exact .inr ⟨i, a, x, rfl, hi, hphase, rfl⟩

/-! ### Opt-outs -/

/-- Grant ids are unique, and every revocation stands. -/
structure RosterKept (s : RosterState) : Prop where
  ids : UniqueIds s
  kept : RevocationKept s

theorem RosterKept.after {s : RosterState} (h : RosterKept s) {re : RosterEvent} (hre : NoReopen s re) :
    RosterKept (s.after re) :=
  ⟨uniqueIds_step s re _ h.ids (rosterStep_after s re),
    (revocationKept_step s re _ h.ids h.kept (rosterStep_after s re)).mpr hre⟩

theorem rosterKept_step (st : RosterDesk) (e : RosterDeskEvent) (st' : RosterDesk) (h : RosterKept st.roster)
    (hs : rosterDeskStep st e = some st') (hC : NoReopening st e) : RosterKept st'.roster := by
  rcases rosterDeskStep_roster hs with (he | ⟨re, hre, he⟩) | ⟨i, a, x, rfl, hi, hphase, he⟩ <;> rw [he]
  · exact h
  · refine h.after ?_
    cases re with
    | rollback x => exact (hre x rfl).elim
    | consent a => trivial
    | reserve x => trivial
    | revoke rv now => trivial
  · exact h.after (hC a x hi hphase)

theorem RosterKept.unrevoked {s : RosterState} (h : RosterKept s) {g : DmGrantRow} (hg : g ∈ s.db.grants)
    (hnone : g.revokedAt = none) : s.books.revoked g.id = false := by
  by_contra hrev
  have hsome := h.kept g hg (by simpa using hrev)
  rw [hnone] at hsome
  cases hsome

theorem rosterGate_live {session : Session} {msg : OutboundMessage} {content : List (String × Json)}
    {grant : DmGrantRow} {slot : String} (h : rosterGate env session msg content = .ok grant)
    (hslot : slotOf content = some slot) :
    checkGrantLive env.grants (hostScopeForSession session) slot env.now = .ok grant := by
  unfold rosterGate reject at h
  rw [hslot] at h
  split at h
  · cases h
  split at h
  · cases h
  · cases h
  split at h
  · cases h
  simp only at h
  split at h
  · cases h
  split at h
  · cases h
  rename_i g hlive
  split at h
  · cases h
  split at h
  · cases h
  split at h
  · cases h
  cases h
  exact hlive

theorem respected_setAttempt {a : Option RosterAttempt} :
    OptOutsRespected (st.setAttempt i a) ↔ OptOutsRespected st := Iff.rfl

theorem respected_send (h : RosterKept st.roster) (i : ℕ) (env : HostEnv) (a : RosterAttempt) (target : Target) :
    OptOutsRespected (st.send i env a target) ↔ OptOutsRespected st ∧
      (hasRosterReservation st.roster.db.ledger a.msg.id = true → st.roster.books.revoked a.grant.id = false) := by
  rcases send_cases st i env a target with ⟨hno, he⟩ | ⟨fresh, hok, he⟩ <;> rw [he]
  · rw [respected_setAttempt]
    refine ⟨fun hst => ⟨hst, fun hres => ?_⟩, fun hst => hst.1⟩
    exact (hno false (reserveRosterSend_standing.mpr hres)).elim
  · have hiff : OptOutsRespected
        { st.setAttempt i (some { a with phase := .sending (a.send env) fresh }) with
          roster := st.roster.after (.reserve (a.send env))
          sends := st.sends ++ [⟨a.msg.id, a.grant.id, target, st.roster.books.revoked a.grant.id⟩] } ↔
        OptOutsRespected st ∧ st.roster.books.revoked a.grant.id = false := by
      simp only [OptOutsRespected, List.forall_mem_append, List.forall_mem_singleton]
    rw [hiff]
    refine and_congr_right fun _ => ⟨fun hrev _ => hrev, fun hrev => ?_⟩
    cases fresh with
    | true =>
      obtain ⟨-, ⟨g, hg, hid, hopen⟩, -⟩ := reserveRosterSend_fresh.mp hok
      have hfree := h.unrevoked hg (isOpen_iff.mp hopen).1
      rwa [hid] at hfree
    | false => exact hrev (reserveRosterSend_standing.mp hok)

theorem respected_afterTarget (h : RosterKept st.roster) (t : Except String Target) :
    OptOutsRespected (st.afterTarget i env originGroup a t) ↔ OptOutsRespected st ∧
      (t.isOk = true → env.adapter = true → awaitsMembership env originGroup = false →
        hasRosterReservation st.roster.db.ledger a.msg.id = true → st.roster.books.revoked a.grant.id = false) := by
  rcases afterTarget_cases st i env originGroup a t with
    ⟨hno, he⟩ | ⟨target, hwait, he⟩ | ⟨target, hok, hadapter, hmember, he⟩ <;> rw [he]
  · refine ⟨fun hst => ⟨hst, fun hok hadapter => ?_⟩, fun hst => hst.1⟩
    rw [hno hok] at hadapter
    cases hadapter
  · refine ⟨fun hst => ⟨hst, fun _ _ hmember => ?_⟩, fun hst => hst.1⟩
    rw [hwait] at hmember
    cases hmember
  · rw [respected_send h]
    exact and_congr_right fun _ => ⟨fun hrev _ _ _ => hrev, fun hrev => hrev hok hadapter hmember⟩

theorem respected_step (st : RosterDesk) (e : RosterDeskEvent) (st' : RosterDesk) (h : RosterKept st.roster)
    (hP : OptOutsRespected st) (hs : rosterDeskStep st e = some st') :
    OptOutsRespected st' ↔ ResumesUnrevoked st e := by
  cases e with
  | consent a =>
    obtain rfl := Option.some.inj hs
    exact ⟨fun _ i a hi => (nomatch hi), fun _ => hP⟩
  | revoke rv now =>
    obtain rfl := Option.some.inj hs
    exact ⟨fun _ i a hi => (nomatch hi), fun _ => hP⟩
  | begin i env originGroup session msg content =>
    refine ⟨fun _ i a hi => (nomatch hi), fun _ => ?_⟩
    obtain ⟨-, rfl | ⟨grant, slot, hgate, hslot, rfl⟩⟩ := rosterDeskStep_begin hs
    · exact hP
    · -- the grant is live in this very step
      obtain ⟨hfound, -, hnone, -⟩ := checkGrantLive_ok.mp (rosterGate_live hgate hslot)
      have hfree := h.unrevoked (List.mem_of_find?_eq_some hfound) hnone
      unfold RosterDesk.afterGate
      split
      · exact hP
      · exact (respected_afterTarget h _).mpr ⟨hP, fun _ _ _ _ => hfree⟩
  | authorized i env originGroup =>
    obtain ⟨a, hi, hphase, hwait, rfl⟩ := rosterDeskStep_authorized hs
    obtain ⟨session, msg, slot, grant, phase⟩ := a
    simp only at hphase
    subst hphase
    rw [respected_afterTarget h]
    constructor
    · rintro ⟨-, hrev⟩ j b hj hb hres
      obtain rfl := Option.some.inj hj
      obtain rfl := Option.some.inj (hi.symm.trans hb)
      simp only [RosterDeskEvent.reserves, Bool.and_eq_true, Bool.not_eq_true'] at hres
      exact hrev hres.1.1.2 hres.1.2 hres.2
    · intro hC
      refine ⟨hP, fun hok hadapter hmember => hC i _ rfl hi ?_⟩
      simp only [RosterDeskEvent.reserves, hwait, hok, hadapter, hmember]
      rfl
  | verified i env =>
    obtain ⟨a, target, hi, hphase, hcases⟩ := rosterDeskStep_verified hs
    obtain ⟨session, msg, slot, grant, phase⟩ := a
    simp only at hphase
    subst hphase
    have hiff : ResumesUnrevoked st (.verified i env) ↔ (env.stillMember ≠ some false →
        hasRosterReservation st.roster.db.ledger msg.id = true → st.roster.books.revoked grant.id = false) := by
      constructor
      · exact fun hC hmember => hC i _ rfl hi (decide_eq_true hmember)
      · intro hC j b hj hb hres
        obtain rfl := Option.some.inj hj
        obtain rfl := Option.some.inj (hi.symm.trans hb)
        exact hC (of_decide_eq_true hres)
    rw [hiff]
    rcases hcases with ⟨hmember, rv, rfl⟩ | ⟨hmember, rfl⟩
    · exact ⟨fun _ hno => (hno hmember).elim, fun _ => hP⟩
    · rw [respected_send h]
      exact ⟨fun hst _ => hst.2, fun hC => ⟨hP, hC hmember⟩⟩
  | delivered i =>
    obtain ⟨a, x, fresh, -, -, rfl⟩ := rosterDeskStep_delivered hs
    exact ⟨fun _ i a hi => (nomatch hi), fun _ => hP⟩
  | timedOut i =>
    obtain ⟨a, x, fresh, -, -, rfl⟩ := rosterDeskStep_timedOut hs
    exact ⟨fun _ i a hi => (nomatch hi), fun _ => hP⟩
  | failed i =>
    obtain ⟨a, x, fresh, -, -, rfl⟩ := rosterDeskStep_failed hs
    exact ⟨fun _ i a hi => (nomatch hi), fun _ => hP⟩

/-- **When opt-outs are respected.** In a run in which no rollback opens a grant that somebody has revoked, no
adapter call starts for a grant that was revoked since its last consent, exactly when no step of it takes an attempt
that has waited, whose message has a reservation, to the adapter with such a grant. -/
theorem optOut_respected_iff {es : List RosterDeskEvent} {st : RosterDesk}
    (hrun : Trans.run rosterDeskStep RosterDesk.empty es = some st)
    (hreopen : Trans.Along rosterDeskStep NoReopening RosterDesk.empty es) :
    Trans.Always rosterDeskStep OptOutsRespected RosterDesk.empty es ↔
      Trans.Along rosterDeskStep ResumesUnrevoked RosterDesk.empty es := by
  have hempty : RosterKept RosterDesk.empty.roster := ⟨List.nodup_nil, fun _ hg => by cases hg⟩
  refine Trans.always_iff_along_given (J := fun st => RosterKept st.roster ∧ OptOutsRespected st) (fun _ h => h.2) ?_ ?_
    ⟨hempty, fun _ hc => by cases hc⟩ hrun hreopen
  · intro st e st' hJ hs hD hC
    exact ⟨rosterKept_step st e st' hJ.1 hs hD, (respected_step st e st' hJ.1 hJ.2 hs).mpr hC⟩
  · intro st e st' hJ hs _ hP
    exact (respected_step st e st' hJ.1 hJ.2 hs).mp hP

/-! ### A retry that waits -/

/-- The session's group may write to the roster, and the membership of a participant is checked before each send. -/
def rosterSampleEnv : HostEnv :=
  { sampleEnv with
    central := { agentGroups := [⟨"ag", none, .ok (some .rootSession)⟩], destinations := [], maxSpawnDepthEnv := none }
    messagingGroups := [⟨"mg-p", "feishu", "feishu:p2p:ou_p", false, none⟩]
    rosterDmEnabledForGroup := fun _ => true
    rosterVerifyMembershipEnabled := true
    stillMember := some true }

/-- A message to the slot `p`. -/
def rosterSampleRow : OutboundMessage :=
  { sampleRow "" ⟨20, .ok (.obj [("slot", .str "p"), ("text", .str "hi")])⟩ with
    kind := .roster, platformId := none, channelType := none }

def rosterSampleContent : List (String × Json) := [("slot", .str "p"), ("text", .str "hi")]

/-- `ou_p` consents, without a limit. -/
def openConsent : InsertDmGrantArgs := { sampleConsent with maxSends := none }

/-- An attempt for the message, up to its membership check. -/
def rosterBegin (i : ℕ) : RosterDeskEvent :=
  .begin i rosterSampleEnv true sampleSession rosterSampleRow rosterSampleContent

/-- The first attempt times out; the second waits, and `ou_p` opts out. -/
def optOutRun : List RosterDeskEvent :=
  [.consent openConsent, rosterBegin 0, .verified 0 rosterSampleEnv, .timedOut 0, rosterBegin 1,
   .revoke (.participantInScope "s" "ou_p") 60, .verified 1 rosterSampleEnv]

/-- A message is delivered at its first attempt. -/
theorem optOut_respected_iff_sample :
    ∃ st, Trans.run rosterDeskStep RosterDesk.empty
        [.consent openConsent, rosterBegin 0, .verified 0 rosterSampleEnv, .delivered 0] = some st ∧
      (Trans.Always rosterDeskStep OptOutsRespected RosterDesk.empty
          [.consent openConsent, rosterBegin 0, .verified 0 rosterSampleEnv, .delivered 0] ↔
        Trans.Along rosterDeskStep ResumesUnrevoked RosterDesk.empty
          [.consent openConsent, rosterBegin 0, .verified 0 rosterSampleEnv, .delivered 0]) := by
  have hrun : Trans.run rosterDeskStep RosterDesk.empty
      [.consent openConsent, rosterBegin 0, .verified 0 rosterSampleEnv, .delivered 0] = some _ := rfl
  have hreopen : Trans.Along rosterDeskStep NoReopening RosterDesk.empty
      [.consent openConsent, rosterBegin 0, .verified 0 rosterSampleEnv, .delivered 0] := by
    refine Trans.along_of_forall fun e he st => ?_
    simp only [List.mem_cons, List.not_mem_nil, or_false] at he
    rcases he with rfl | rfl | rfl | rfl <;> trivial
  exact ⟨_, hrun, optOut_respected_iff hrun hreopen⟩

/-- The retry finds its reservation, and the message goes out after the opt-out. -/
theorem optOut_ignored : ∃ st, Trans.run rosterDeskStep RosterDesk.empty optOutRun = some st ∧
    ∃ c ∈ st.sends, c.grantId = "g" ∧ c.revoked = true := by
  have hrun : Trans.run rosterDeskStep RosterDesk.empty optOutRun = some _ := rfl
  exact ⟨_, hrun, _, .tail _ (.head _), rfl, rfl⟩

end AgentDesk
