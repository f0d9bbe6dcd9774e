/-
# Invitations to a roster

`handleRosterInvite` (`src/roster-invite.ts`) posts an opt-in card to a member of
the group. A person is to be asked once for a scope; what the handler looks at
for that is the table of grants, which has a row when the card has been clicked.
Then it asks the adapter whether the target is a member, and waits; then it
charges the invite window and posts the card.

A run is the system actions of any sessions of the host, the answers they wait
for, clicks on the cards that were posted, and everything else that touches the
roster tables. The outcome of a post is an event's, and nothing is done after it.

* `one_invite_iff`: nobody is asked twice for a scope, and nobody who has had a
  grant, exactly when no card is posted while an earlier one is unanswered or
  after a consent that came in between the check and the post.
* `unanswered_asked_again`: the second card of a person who has not clicked.
-/
import Mathlib.Data.List.InsertIdx
import AgentDesk.Delivery
import AgentDesk.Feishu
import AgentDesk.RosterRevocation

namespace AgentDesk

open Js

/-! ### The handler -/

structure ConsentTarget where
  participantOpenId : String
  dmPlatformId : String
  channelType : String
  deriving DecidableEq, Repr

/-- An open id, and the p2p chat that it names. -/
def parseConsentTarget (openId : String) : Option ConsentTarget :=
  let id := trim openId
  let dmPlatformId := s!"feishu:p2p:{id}"
  if id = "" then none
  else if !"ou_".toList.isPrefixOf id.toList then none
  else if dmPlatformId.toList.drop "feishu:p2p:".length ≠ id.toList then none
  else some ⟨id, dmPlatformId, "feishu"⟩

def getByParticipant (grants : List DmGrantRow) (scopeId participantOpenId : String) : Option DmGrantRow :=
  grants.find? fun g => g.scopeId = scopeId && g.participantOpenId = participantOpenId

def inviteScopeWindow : RateWindow := ⟨60, 3⟩

/-- `none` where the window's start cannot be computed. -/
def checkDeployDailyCap (ledger : List LedgerRow) (deploy : DeployQuotaConfig) (now : ℕ) : Option Bool :=
  if deploy.dailyCap = 0 then some true
  else (windowStartIso now deploy.dailyWindowSec).map fun ws =>
    decide (currentCount ledger (.deployDaily deploy.key) ws < deploy.dailyCap)

def checkInviteRate (ledger : List LedgerRow) (scopeId : String) (deploy : DeployQuotaConfig) (now : ℕ) :
    Option Bool :=
  (windowStartIso now inviteScopeWindow.windowSec).bind fun ws =>
    if inviteScopeWindow.limit ≤ currentCount ledger (.inviteScope scopeId) ws then some false
    else checkDeployDailyCap ledger deploy now

def recordInviteConsumption (ledger : List LedgerRow) (scopeId : String) (deploy : DeployQuotaConfig) (now : ℕ) :
    Option (List LedgerRow) :=
  (windowStartIso now inviteScopeWindow.windowSec).bind fun ws =>
    let charged := bumpLedger ledger (.inviteScope scopeId) ws
    if deploy.dailyCap = 0 then some charged
    else (windowStartIso now deploy.dailyWindowSec).map fun day => bumpLedger charged (.deployDaily deploy.key) day

/-- The one group chat a session is wired to. -/
def originGroupForSession (env : HostEnv) (session : Session) : Option Target :=
  if !truthy session.messagingGroupId then none
  else match env.messagingGroups.find? fun mg => some mg.id = session.messagingGroupId with
    | none => none
    | some mg =>
      if !mg.isGroup || mg.channelType ≠ "feishu" then none
      else some ⟨mg.channelType, s!"{mg.channelType}:{mg.platformId}"⟩

inductive InviteReason where
  | flagDisabled | agentSharedMode | ambiguousOrigin | badMember | badSlot | alreadyInvited | noAdapter
  | notMember | rateLimited
  deriving DecidableEq, Repr

def InviteReason.text : InviteReason → String
  | .flagDisabled => "flag_disabled"
  | .agentSharedMode => "agent_shared_mode"
  | .ambiguousOrigin => "ambiguous_origin"
  | .badMember => "bad_member"
  | .badSlot => "bad_slot"
  | .alreadyInvited => "already_invited"
  | .noAdapter => "no_adapter"
  | .notMember => "not_member"
  | .rateLimited => "rate_limited"

/-- An invitation that waits for the membership answer. -/
structure Invite where
  scopeId : String
  agentGroupId : String
  origin : Target
  member : String
  slotLabel : String
  deriving DecidableEq, Repr

inductive InviteOutcome (α : Type) where
  | throws (error : String)
  | rejected (reason : InviteReason)
  | goesOn (x : α)

/-- The handler up to the membership question. -/
def inviteStart (grants : List DmGrantRow) (env : HostEnv) (session : Session) (content : List (String × Json)) :
    InviteOutcome Invite :=
  let scopeId := hostScopeForSession session
  if !env.rosterDmEnabledForGroup session.agentGroupId then .rejected .flagDisabled
  else match isRootSessionModeForRosterDm env session.agentGroupId with
    | .error e => .throws e
    | .ok false => .rejected .agentSharedMode
    | .ok true => match originGroupForSession env session with
      | none => .rejected .ambiguousOrigin
      | some origin =>
        match parseConsentTarget (trim ((Json.asString (fieldOf content "member")).getD "")) with
        | none => .rejected .badMember
        | some target => match readString (fieldOf content "slotLabel") with
          | none => .rejected .badSlot
          | some slotLabel =>
            if (getByParticipant grants scopeId target.participantOpenId).isSome then .rejected .alreadyInvited
            else if !env.adapter then .rejected .noAdapter
            else .goesOn ⟨scopeId, session.agentGroupId, origin, target.participantOpenId, slotLabel⟩

/-- The card; its expiry as text, which the click hands to the grant. -/
structure InviteCard where
  scopeId : String
  slotLabel : String
  agentGroupId : String
  expectedUserId : String
  expiresAt : UtcText
  target : Target

def inviteCardTtlMs : ℕ := 24 * 60 * 60 * 1000

/-- The handler after the answer, `none` for unknown: the ledger and the card to post. `iso` writes a time. -/
def inviteResume (ledger : List LedgerRow) (i : Invite) (isMember : Option Bool) (deploy : DeployQuotaConfig)
    (now : ℕ) (iso : ℕ → String) : InviteOutcome (List LedgerRow × InviteCard) :=
  if isMember ≠ some true then .rejected .notMember
  else match checkInviteRate ledger i.scopeId deploy now with
    | none => .throws "RangeError: Invalid time value"
    | some false => .rejected .rateLimited
    | some true => match recordInviteConsumption ledger i.scopeId deploy now with
      | none => .throws "RangeError: Invalid time value"
      | some charged => .goesOn (charged,
          { scopeId := i.scopeId, slotLabel := i.slotLabel, agentGroupId := i.agentGroupId
            expectedUserId := i.member
            expiresAt := ⟨iso (now + inviteCardTtlMs), some (now + inviteCardTtlMs : ℕ)⟩
            target := i.origin })

/-! ### Clicks -/

def cardActionOperatorAllowed (expectedUserId operatorUserId : String) : Bool :=
  if expectedUserId = "" then true else operatorUserId ≠ "" && operatorUserId = expectedUserId

/-- `captureDirectedCardConsent` and `mintGrant`: the consent that a click of the operator records. -/
def directedCardConsent (card : InviteCard) (operatorOpenId : Option String) (inboundMsgId : String)
    (originPlatformId : Option String) (id : String) (now : ℕ) : Except String InsertDmGrantArgs :=
  let operator := operatorOpenId.getD ""
  if card.expectedUserId = "" then .error "unscoped_card"
  else if !cardActionOperatorAllowed card.expectedUserId operator then .error "operator_mismatch"
  else match parseConsentTarget operator with
    | none => .error "bad_open_id"
    | some target => .ok
      { id, scopeId := card.scopeId, agentGroupId := card.agentGroupId, slotLabel := card.slotLabel
        participantOpenId := target.participantOpenId, dmPlatformId := target.dmPlatformId
        channelType := some target.channelType, consentSource := "directed-card"
        consentInboundMsgId := inboundMsgId, consentOriginUserId := none, originPlatformId
        maxSends := none, expiresAt := some card.expiresAt, now }

/-! ### The state -/

/-- A card in the group, and whether its member had a grant when it was posted. -/
structure PostedCard where
  card : InviteCard
  granted : Bool

structure InviteState where
  roster : RosterState
  waiting : List Invite
  cards : List PostedCard

def InviteState.empty : InviteState := ⟨.empty, [], []⟩

inductive InviteEvent where
  | action (env : HostEnv) (session : Session) (content : List (String × Json))
  | answer (i : ℕ) (isMember : Option Bool) (deploy : DeployQuotaConfig) (now : ℕ) (iso : ℕ → String)
      (delivered : Bool)
  | click (i : ℕ) (operatorOpenId : Option String) (inboundMsgId : String) (originPlatformId : Option String)
      (id : String) (now : ℕ)
  | roster (e : RosterEvent)
  | restart

def hasGrant (grants : List DmGrantRow) (scopeId member : String) : Bool :=
  (getByParticipant grants scopeId member).isSome

/-- The answer to the `i`-th invitation that waits. -/
def InviteState.answered (st : InviteState) (i : ℕ) (outcome : InviteOutcome (List LedgerRow × InviteCard))
    (delivered : Bool) : InviteState :=
  let rest := { st with waiting := st.waiting.eraseIdx i }
  match outcome with
  | .goesOn (ledger, card) =>
    { rest with
      roster := { st.roster with db := { st.roster.db with ledger } }
      cards := if delivered then
          st.cards ++ [⟨card, hasGrant st.roster.db.grants card.scopeId card.expectedUserId⟩]
        else st.cards }
  | _ => rest

def inviteStep (st : InviteState) : InviteEvent → Option InviteState
  | .action env session content => match inviteStart st.roster.db.grants env session content with
    | .goesOn i => some { st with waiting := st.waiting ++ [i] }
    | _ => some st
  | .answer i isMember deploy now iso delivered => match st.waiting[i]? with
    | none => none
    | some x => some (st.answered i (inviteResume st.roster.db.ledger x isMember deploy now iso) delivered)
  | .click i operator inboundMsgId origin id now => match st.cards[i]? with
    | none => none
    | some c => match directedCardConsent c.card operator inboundMsgId origin id now with
      | .error _ => some st
      | .ok a => (rosterStep st.roster (.consent a)).map fun roster => { st with roster }
  | .roster e => (rosterStep st.roster e).map fun roster => { st with roster }
  | .restart => some { st with waiting := [] }

/-- Whom a card asks, and for what. -/
def PostedCard.pair (c : PostedCard) : String × String := (c.card.scopeId, c.card.expectedUserId)

def Invite.pair (i : Invite) : String × String := (i.scopeId, i.member)

/-- Nobody is asked twice for a scope, and nobody who has had a grant in it. -/
structure OneInvite (st : InviteState) : Prop where
  once : (st.cards.map (·.pair)).Nodup
  fresh : ∀ c ∈ st.cards, c.granted = false

/-- A card is out, and its member has not answered. -/
def Unanswered (st : InviteState) (pair : String × String) : Prop :=
  pair ∈ st.cards.map (·.pair) ∧ hasGrant st.roster.db.grants pair.1 pair.2 = false

/-- The event posts no card to somebody who has consented since the check, or whose earlier card is
unanswered. -/
def AsksOnce (st : InviteState) : InviteEvent → Prop
  | .answer i isMember deploy now iso delivered => ∀ x charged card, st.waiting[i]? = some x →
      inviteResume st.roster.db.ledger x isMember deploy now iso = .goesOn (charged, card) → delivered = true →
      hasGrant st.roster.db.grants x.scopeId x.member = false ∧ ¬ Unanswered st x.pair
  | _ => True

/-! ### Everything the handler can do -/

theorem inviteResume_card {ledger charged : List LedgerRow} {x : Invite} {isMember : Option Bool}
    {deploy : DeployQuotaConfig} {now : ℕ} {iso : ℕ → String} {card : InviteCard}
    (h : inviteResume ledger x isMember deploy now iso = .goesOn (charged, card)) :
    card.scopeId = x.scopeId ∧ card.expectedUserId = x.member := by
  unfold inviteResume at h
  split at h
  · cases h
  · split at h
    · cases h
    · cases h
    · split at h
      · cases h
      · obtain ⟨-, rfl⟩ := Prod.mk.inj (InviteOutcome.goesOn.inj h)
        exact ⟨rfl, rfl⟩

/-- Everything a step can do, with what it needs. -/
inductive InviteMove (st : InviteState) : InviteEvent → InviteState → Prop
  | waits {env : HostEnv} {session : Session} {content : List (String × Json)} {x : Invite}
      (h : inviteStart st.roster.db.grants env session content = .goesOn x) :
      InviteMove st (.action env session content) { st with waiting := st.waiting ++ [x] }
  | ends (env : HostEnv) (session : Session) (content : List (String × Json)) :
      InviteMove st (.action env session content) st
  | posts {i : ℕ} {isMember : Option Bool} {deploy : DeployQuotaConfig} {now : ℕ} {iso : ℕ → String} {x : Invite}
      {charged : List LedgerRow} {card : InviteCard} (hx : st.waiting[i]? = some x)
      (h : inviteResume st.roster.db.ledger x isMember deploy now iso = .goesOn (charged, card)) :
      InviteMove st (.answer i isMember deploy now iso true)
        { roster := { st.roster with db := { st.roster.db with ledger := charged } }
          waiting := st.waiting.eraseIdx i
          cards := st.cards ++ [⟨card, hasGrant st.roster.db.grants card.scopeId card.expectedUserId⟩] }
  | declines {i : ℕ} {isMember : Option Bool} {deploy : DeployQuotaConfig} {now : ℕ} {iso : ℕ → String}
      {delivered : Bool} {ledger : List LedgerRow}
      (h : ∀ x charged card, st.waiting[i]? = some x →
        inviteResume st.roster.db.ledger x isMember deploy now iso = .goesOn (charged, card) → delivered = false) :
      InviteMove st (.answer i isMember deploy now iso delivered)
        { st with roster := { st.roster with db := { st.roster.db with ledger } }, waiting := st.waiting.eraseIdx i }
  | clicked {i : ℕ} {operator : Option String} {inboundMsgId : String} {origin : Option String} {id : String} {now : ℕ}
      {c : PostedCard} {a : InsertDmGrantArgs} {roster : RosterState} (hc : st.cards[i]? = some c)
      (ha : directedCardConsent c.card operator inboundMsgId origin id now = .ok a)
      (h : rosterStep st.roster (.consent a) = some roster) :
      InviteMove st (.click i operator inboundMsgId origin id now) { st with roster }
  | clickRefused (i : ℕ) (operator : Option String) (inboundMsgId : String) (origin : Option String) (id : String)
      (now : ℕ) : InviteMove st (.click i operator inboundMsgId origin id now) st
  | roster {e : RosterEvent} {roster : RosterState} (h : rosterStep st.roster e = some roster) :
      InviteMove st (.roster e) { st with roster }
  | restart : InviteMove st .restart { st with waiting := [] }

theorem inviteStep_move {st st' : InviteState} {e : InviteEvent} (h : inviteStep st e = some st') :
    InviteMove st e st' := by
  cases e with
  | action env session content =>
    simp only [inviteStep] at h
    split at h
    · rename_i x hx
      obtain rfl := Option.some.inj h
      exact .waits hx
    · obtain rfl := Option.some.inj h
      exact .ends env session content
  | answer i isMember deploy now iso delivered =>
    simp only [inviteStep] at h
    split at h
    · cases h
    · rename_i x hx
      obtain rfl := Option.some.inj h
      have honly : ∀ y, st.waiting[i]? = some y → y = x := fun y hy => Option.some.inj (hy.symm.trans hx)
      cases hres : inviteResume st.roster.db.ledger x isMember deploy now iso with
      | goesOn posted =>
        obtain ⟨charged, card⟩ := posted
        cases delivered with
        | true => exact .posts hx hres
        | false => exact .declines fun _ _ _ _ _ => rfl
      | throws error =>
        refine .declines fun y charged card hy hgo => ?_
        rw [honly y hy, hres] at hgo
        cases hgo
      | rejected reason =>
        refine .declines fun y charged card hy hgo => ?_
        rw [honly y hy, hres] at hgo
        cases hgo
  | click i operator inboundMsgId origin id now =>
    simp only [inviteStep] at h
    split at h
    · cases h
    · rename_i c hc
      split at h
      · obtain rfl := Option.some.inj h
        exact .clickRefused i operator inboundMsgId origin id now
      · rename_i a ha
        obtain ⟨roster, hroster, rfl⟩ := Option.map_eq_some_iff.mp h
        exact .clicked hc ha hroster
  | roster e =>
    obtain ⟨roster, hroster, rfl⟩ := Option.map_eq_some_iff.mp h
    exact .roster hroster
  | restart =>
    obtain rfl := Option.some.inj h
    exact .restart

/-! ### One step, one run -/

theorem OneInvite.of_cards {st st' : InviteState} (h : OneInvite st) (hcards : st'.cards = st.cards) :
    OneInvite st' :=
  ⟨hcards ▸ h.once, hcards ▸ h.fresh⟩

theorem OneInvite.post_iff {st st' : InviteState} (h : OneInvite st) {c : PostedCard}
    (hcards : st'.cards = st.cards ++ [c]) :
    OneInvite st' ↔ c.granted = false ∧ c.pair ∉ st.cards.map (·.pair) := by
  have hpairs : st'.cards.map (·.pair) = st.cards.map (·.pair) ++ [c.pair] := by
    rw [hcards, List.map_append, List.map_singleton]
  constructor
  · intro h'
    have honce := h'.once
    rw [hpairs, List.nodup_append] at honce
    have hmem : c ∈ st'.cards := by
      rw [hcards]
      exact List.mem_append_right _ (.head _)
    exact ⟨h'.fresh c hmem, fun hp => honce.2.2 _ hp _ (.head _) rfl⟩
  · rintro ⟨hfresh, hnew⟩
    constructor
    · rw [hpairs, List.nodup_append]
      refine ⟨h.once, by simp, fun p hp q hq heq => hnew ?_⟩
      rwa [heq, List.mem_singleton.mp hq] at hp
    · intro c' hc'
      rw [hcards] at hc'
      rcases List.mem_append.mp hc' with hc' | hc'
      · exact h.fresh c' hc'
      · rw [List.mem_singleton.mp hc']
        exact hfresh

theorem oneInvite_step {st st' : InviteState} {e : InviteEvent} (hone : OneInvite st)
    (h : inviteStep st e = some st') : OneInvite st' ↔ AsksOnce st e := by
  cases inviteStep_move h with
  | waits => exact iff_of_true (hone.of_cards rfl) trivial
  | ends => exact iff_of_true hone trivial
  | clicked => exact iff_of_true (hone.of_cards rfl) trivial
  | clickRefused => exact iff_of_true hone trivial
  | roster => exact iff_of_true (hone.of_cards rfl) trivial
  | restart => exact iff_of_true (hone.of_cards rfl) trivial
  | declines hnot =>
    refine iff_of_true (hone.of_cards rfl) fun x charged card hx hres hdelivered => ?_
    rw [hnot x charged card hx hres] at hdelivered
    cases hdelivered
  | posts hx hres =>
    rename_i x charged card
    obtain ⟨hscope, hmember⟩ := inviteResume_card hres
    rw [hone.post_iff rfl]
    unfold PostedCard.pair
    rw [hscope, hmember]
    constructor
    · rintro ⟨hfresh, hnew⟩ y charged' card' hy _ _
      obtain rfl : x = y := Option.some.inj (hx.symm.trans hy)
      exact ⟨hfresh, fun hun => hnew hun.1⟩
    · intro hasks
      obtain ⟨hfresh, hun⟩ := hasks x charged card hx hres rfl
      exact ⟨hfresh, fun hp => hun ⟨hp, hfresh⟩⟩

/-- A session in a group chat, of an agent group that may invite. -/
def inviteSession : Session :=
  { id := "s", agentGroupId := "ag", messagingGroupId := some "mg-a", threadId := none, ownerUserId := none
    rootSessionId := none, conversationThreadId := none, status := .active, spawnDepth := 0, createdAt := 0 }

def inviteEnv : HostEnv :=
  { now := 0, adapter := true
    central := { agentGroups := [⟨"ag", none, .ok (some .rootSession)⟩], destinations := [], maxSpawnDepthEnv := none }
    messagingGroups := [⟨"mg-a", "feishu", "oc_a", true, none⟩]
    rosterDmEnabledForGroup := fun _ => true, grants := [], rosterAtReserve := ⟨[], []⟩
    rosterGatewayAuthorityEnabled := false, gateway := fun _ => none, authorizeDm := ⟨false, none, none⟩
    rosterVerifyMembershipEnabled := false, stillMember := none
    deployQuota := ⟨"global", ⟨60, 100⟩, 0, 86400⟩, pendingQuestion := .ok (), outboxFiles := .ok () }

/-- The agent invites `ou_p`; the adapter says it is a member, and the card is posted at `now`. -/
def inviteEvents (now : ℕ) : List InviteEvent :=
  [.action inviteEnv inviteSession [("member", .str "ou_p"), ("slotLabel", .str "p")],
    .answer 0 (some true) inviteEnv.deployQuota now (fun _ => "") true]

/-- The member clicks the first card. -/
def inviteClick : InviteEvent := .click 0 (some "ou_p") "action:1" (some "feishu:oc_a") "g" 1000

end AgentDesk
