/-
# Who a card answers to

A click on a card is a `ResponsePayload`. `dispatchResponse` (`src/index.ts`)
shows it to the registered handlers in order until one claims it: the
approvals module, the interactive module, and the permissions module's two
(`handleSenderApprovalResponse`, `handleChannelApprovalResponse`). The last
two check who clicked, against the approver recorded on the row and the
clicker's role over the row's agent group.

For an unknown sender that is the group the sender is admitted to. For an
unknown channel it is the reference group of the card; the group the channel
is then wired to is the clicker's choice, and for that one routing access is
asked for, not administration (`connect_without_admin`).

* `response_authority`: what is behind each privileged effect, for every click
  and all tables.

Each handler decides in one synchronous block, on the tables as they are when
its turn comes: `dispatchResponse` gives every handler its own `ResponseDesk`.
-/
import AgentDesk.Approvals
import AgentDesk.Permissions
import AgentDesk.Router
import AgentDesk.Senders

namespace AgentDesk

open Js

/-! ### Rows and clicks -/

structure ResponsePayload where
  questionId : String
  value : String
  userId : Option String
  channelType : String
  platformId : String
  threadId : Option String

/-- A row of `pending_sender_approvals`; the stored message is what it parses to. -/
structure PendingSenderApproval where
  id : String
  messagingGroupId : String
  agentGroupId : String
  senderIdentity : String
  originalMessage : Option InboundEvent
  approverUserId : String

/-- A row of `pending_channel_approvals`, keyed by the chat; `agentGroupId` is the reference group. -/
structure PendingChannelApproval where
  messagingGroupId : String
  agentGroupId : String
  originalMessage : Option InboundEvent
  approverUserId : String

structure PendingQuestion where
  questionId : String
  sessionId : String

/-- What one handler finds when it runs. `handled` is how the approvals module's part after its await
ends, `answer` whether the answer to a question can be written, `approverDm` whether the approver can
be reached and an adapter is set. -/
structure ResponseDesk where
  permissions : Permissions
  approvals : ApprovalReads
  questions : List PendingQuestion
  senderApprovals : List PendingSenderApproval
  channelApprovals : List PendingChannelApproval
  wirings : List MessagingGroupAgent
  handled : Except String Unit
  answer : Except String Unit
  approverDm : Bool

/-- What a handler does to the tables and the outside, in order. -/
inductive ResponseEffect where
  | addMember (userId agentGroupId addedBy : String)
  | addOrgMember (organizationId userId addedBy : String)
  | createMessagingGroupAgent (wiring : MessagingGroupAgent)
  | startHandler (approval : PendingApproval)
  | resolveCredential (approvalId : String) (approve : Bool)
  | deletePendingApproval (approvalId : String)
  | resolvePendingQuestion (questionId : String)
  | deletePendingSenderApproval (id : String)
  | deletePendingChannelApproval (messagingGroupId : String)
  | setMessagingGroupDeniedAt (messagingGroupId : String)
  | chooseExisting (messagingGroupId : String) (agentGroupIds : List String)
  | awaitNameInput (approverUserId messagingGroupId : String)
  | routeInbound (event : InboundEvent)

/-- The effects a click needs authority for. -/
def ResponseEffect.privileged : ResponseEffect → Bool
  | .addMember .. | .addOrgMember .. | .createMessagingGroupAgent _ | .startHandler _ => true
  | .resolveCredential _ approve => approve
  | _ => false

/-- Users are stored as `<channel>:<id>`; the payload has the platform's id. -/
def clickerId (p : ResponsePayload) : Option String :=
  if truthy p.userId then some (s!"{p.channelType}:" ++ p.userId.getD "") else none

/-! ### The handlers -/

/-- The effects of a call, and whether it claimed the response or threw. -/
abbrev Handled := List ResponseEffect × Except String Bool

/-- What is left of a decision after its notice and its audit, either of which may throw. -/
def ResponseDesk.finish (d : ResponseDesk) (before after : List ResponseEffect) : Handled :=
  match d.handled with
  | .ok _ => (before ++ after, .ok true)
  | .error e => (before, .error e)

def approvalsResponse (d : ResponseDesk) (p : ResponsePayload) : Handled :=
  match handleApprovalsResponse d.approvals p.questionId p.value with
  | .unclaimed => ([], .ok false)
  | .credential approve =>
    d.finish [] [.deletePendingApproval p.questionId, .resolveCredential p.questionId approve]
  | .drop a => ([.deletePendingApproval a.approvalId], .ok true)
  | .stale a | .reject a | .noHandler a => d.finish [] [.deletePendingApproval a.approvalId]
  | .badPayload _ => ([], .error "SyntaxError: JSON.parse")
  | .start a => d.finish [.startHandler a] [.deletePendingApproval a.approvalId]

def handleInteractiveResponse (d : ResponseDesk) (p : ResponsePayload) : Handled :=
  match d.questions.find? fun q => q.questionId = p.questionId with
  | none => ([], .ok false)
  | some pq => match getSession d.approvals.sessions pq.sessionId with
    | none => ([], .ok true)
    | some _ => ([.resolvePendingQuestion pq.questionId], d.answer.map fun _ => true)

/-- The row's approver, or an admin of the row's agent group. -/
def isAuthorized (d : ResponseDesk) (clicker approverUserId agentGroupId : String) : Bool :=
  clicker = approverUserId || d.permissions.hasAdminPrivilege clicker agentGroupId

/-- Add a sender to a group, and to the group's organisation. -/
def addMemberships (t : Permissions) (userId agentGroupId addedBy : String) : List ResponseEffect :=
  .addMember userId agentGroupId addedBy ::
    match t.orgOfAgentGroup agentGroupId with
    | some org => if org ≠ "" then [.addOrgMember org userId addedBy] else []
    | none => []

def handleSenderApprovalResponse (d : ResponseDesk) (p : ResponsePayload) : Handled :=
  match d.senderApprovals.find? fun r => r.id = p.questionId with
  | none => ([], .ok false)
  | some row => match clickerId p with
    | none => ([], .ok true)
    | some clicker =>
      if !isAuthorized d clicker row.approverUserId row.agentGroupId then ([], .ok true)
      else if p.value = "approve" then
        (addMemberships d.permissions row.senderIdentity row.agentGroupId clicker ++
          [.deletePendingSenderApproval row.id] ++ row.originalMessage.toList.map .routeInbound, .ok true)
      else ([.deletePendingSenderApproval row.id], .ok true)

/-- `connect:<id>`. -/
def connectTarget (value : String) : Option String :=
  if "connect:".toList.isPrefixOf value.toList then some (String.ofList (value.toList.drop 8)) else none

/-- The wiring of a connected channel. -/
def connectWiring (messagingGroupId agentGroupId : String) (event : InboundEvent) : MessagingGroupAgent :=
  let isGroup := event.threadId.isSome
  { messagingGroupId, agentGroupId
    engageMode := some (if isGroup then .mentionSticky else .pattern)
    engagePattern := if isGroup then none else some "."
    accumulate := true, sessionMode := .shared, priority := 0 }

/-- Wire the channel to the target, admit the sender, replay the message. -/
def connectChannel (d : ResponseDesk) (row : PendingChannelApproval) (target clicker : String) : Handled :=
  match row.originalMessage with
  | none => ([.deletePendingChannelApproval row.messagingGroupId], .ok true)
  | some event =>
    if d.wirings.any fun w => w.messagingGroupId = row.messagingGroupId && w.agentGroupId = target then
      ([], .error "UNIQUE constraint failed: messaging_group_agents")
    else
      let wired := [ResponseEffect.createMessagingGroupAgent (connectWiring row.messagingGroupId target event)]
      match extractAndUpsertUser event with
      | .error e => (wired, .error e)
      | .ok sender =>
        (wired ++ (match sender with
            | some userId => addMemberships d.permissions userId target clicker
            | none => []) ++
          [.deletePendingChannelApproval row.messagingGroupId, .routeInbound event], .ok true)

/-- What an authorised click on a channel card does. -/
def channelDecision (d : ResponseDesk) (row : PendingChannelApproval) (value clicker : String) : Handled :=
  if value = "reject" then
    ([.setMessagingGroupDeniedAt row.messagingGroupId, .deletePendingChannelApproval row.messagingGroupId],
      .ok true)
  else if value = "choose_existing" then
    if d.approverDm then
      ([.chooseExisting row.messagingGroupId ((d.permissions.agentGroups.filter fun g =>
        (d.permissions.canAccessAgentGroup clicker g.id).allowed).map (·.id))], .ok true)
    else ([], .ok true)
  else if value = "new_agent" then
    (if d.approverDm then [.awaitNameInput row.approverUserId row.messagingGroupId] else [], .ok true)
  else match connectTarget value with
    | none => ([], .ok true)
    | some target =>
      if !d.permissions.agentGroups.any fun g => g.id = target then
        ([.deletePendingChannelApproval row.messagingGroupId], .ok true)
      else if !(d.permissions.canAccessAgentGroup clicker target).allowed then
        ([.deletePendingChannelApproval row.messagingGroupId], .ok true)
      else connectChannel d row target clicker

def handleChannelApprovalResponse (d : ResponseDesk) (p : ResponsePayload) : Handled :=
  match d.channelApprovals.find? fun r => r.messagingGroupId = p.questionId with
  | none => ([], .ok false)
  | some row => match clickerId p with
    | none => ([], .ok true)
    | some clicker =>
      if !isAuthorized d clicker row.approverUserId row.agentGroupId then ([], .ok true)
      else channelDecision d row p.value clicker

/-- The registered handlers, in the order their modules load. -/
def responseHandlers : List (ResponseDesk → ResponsePayload → Handled) :=
  [approvalsResponse, handleInteractiveResponse, handleSenderApprovalResponse, handleChannelApprovalResponse]

/-- Show the response to the handlers until one claims it; one that throws has not. Each effect comes
with the tables its handler found. -/
def dispatchTo (p : ResponsePayload) :
    List ((ResponseDesk → ResponsePayload → Handled) × ResponseDesk) → List (ResponseDesk × ResponseEffect)
  | [] => []
  | (handler, d) :: rest =>
    let (effects, claimed) := handler d p
    effects.map (fun e => (d, e)) ++ match claimed with
      | .ok true => []
      | _ => dispatchTo p rest

/-- `desks` are the tables as each handler finds them. -/
def dispatchResponse (desks : List ResponseDesk) (p : ResponsePayload) : List (ResponseDesk × ResponseEffect) :=
  dispatchTo p (responseHandlers.zip desks)

theorem mem_dispatchTo {p : ResponsePayload} {d : ResponseDesk} {e : ResponseEffect} :
    ∀ {hs : List ((ResponseDesk → ResponsePayload → Handled) × ResponseDesk)}, (d, e) ∈ dispatchTo p hs →
      ∃ handler, (handler, d) ∈ hs ∧ e ∈ (handler d p).1
  | (handler, d') :: rest, h => by
    rw [dispatchTo] at h
    rcases List.mem_append.mp h with h | h
    · obtain ⟨e', he', heq⟩ := List.mem_map.mp h
      obtain ⟨rfl, rfl⟩ := Prod.mk.inj heq
      exact ⟨handler, .head _, he'⟩
    · split at h
      · exact absurd h List.not_mem_nil
      · obtain ⟨handler', hm, he⟩ := mem_dispatchTo h
        exact ⟨handler', .tail _ hm, he⟩

theorem mem_dispatchResponse {desks : List ResponseDesk} {p : ResponsePayload} {d : ResponseDesk}
    {e : ResponseEffect} (h : (d, e) ∈ dispatchResponse desks p) :
    e ∈ (approvalsResponse d p).1 ∨ e ∈ (handleInteractiveResponse d p).1 ∨
      e ∈ (handleSenderApprovalResponse d p).1 ∨ e ∈ (handleChannelApprovalResponse d p).1 := by
  obtain ⟨handler, hm, he⟩ := mem_dispatchTo h
  have hmem : handler ∈ responseHandlers := (List.of_mem_zip hm).1
  simp only [responseHandlers, List.mem_cons, List.not_mem_nil, or_false] at hmem
  rcases hmem with rfl | rfl | rfl | rfl
  · exact .inl he
  · exact .inr (.inl he)
  · exact .inr (.inr (.inl he))
  · exact .inr (.inr (.inr he))

/-! ### What is behind an effect -/

/-- The clicker may admit a sender to the group: the sender's card names the group, and the clicker is
its approver or an admin of the group. -/
def SenderBacked (d : ResponseDesk) (p : ResponsePayload) (agentGroupId clicker : String) : Prop :=
  p.value = "approve" ∧ ∃ row ∈ d.senderApprovals, row.id = p.questionId ∧ row.agentGroupId = agentGroupId ∧
    (clicker = row.approverUserId ∨ d.permissions.hasAdminPrivilege clicker agentGroupId = true)

/-- The clicker may connect the channel to the group: the clicker is the approver of the channel's
card or an admin of its reference group, and may route to the group. -/
def ChannelBacked (d : ResponseDesk) (p : ResponsePayload) (agentGroupId clicker : String) : Prop :=
  connectTarget p.value = some agentGroupId ∧ ∃ row ∈ d.channelApprovals, row.messagingGroupId = p.questionId ∧
    (clicker = row.approverUserId ∨ d.permissions.hasAdminPrivilege clicker row.agentGroupId = true) ∧
    (d.permissions.canAccessAgentGroup clicker agentGroupId).allowed = true

/-- What a privileged effect of a click rests on. Nobody is asked who approves a module's action or
releases a credential. -/
def BackedBy (d : ResponseDesk) (p : ResponsePayload) : ResponseEffect → Prop
  | .addMember _ agentGroupId addedBy => clickerId p = some addedBy ∧
      (SenderBacked d p agentGroupId addedBy ∨ ChannelBacked d p agentGroupId addedBy)
  | .addOrgMember organizationId _ addedBy => clickerId p = some addedBy ∧
      ∃ agentGroupId, d.permissions.orgOfAgentGroup agentGroupId = some organizationId ∧
        (SenderBacked d p agentGroupId addedBy ∨ ChannelBacked d p agentGroupId addedBy)
  | .createMessagingGroupAgent w => w.messagingGroupId = p.questionId ∧
      ∃ clicker, clickerId p = some clicker ∧ ChannelBacked d p w.agentGroupId clicker
  | .startHandler a => a ∈ d.approvals.approvals ∧ a.approvalId = p.questionId ∧ Startable d.approvals a p.value
  | .resolveCredential approvalId _ => approvalId = p.questionId ∧ p.questionId ∈ d.approvals.waiting ∧
      p.value = "approve"
  | _ => True

theorem addMemberships_effects {t : Permissions} {userId g addedBy : String} {e : ResponseEffect}
    (h : e ∈ addMemberships t userId g addedBy) :
    e = .addMember userId g addedBy ∨
      ∃ org, t.orgOfAgentGroup g = some org ∧ e = .addOrgMember org userId addedBy := by
  unfold addMemberships at h
  rcases List.mem_cons.mp h with h | h
  · exact .inl h
  · cases horg : t.orgOfAgentGroup g with
    | none => simp [horg] at h
    | some org =>
      rw [horg] at h
      dsimp only at h
      split at h
      · exact .inr ⟨org, rfl, List.mem_singleton.mp h⟩
      · exact absurd h List.not_mem_nil

theorem addMemberships_backed {d : ResponseDesk} {p : ResponsePayload} {userId g clicker : String}
    {e : ResponseEffect}
    (hc : clickerId p = some clicker) (hback : SenderBacked d p g clicker ∨ ChannelBacked d p g clicker)
    (h : e ∈ addMemberships d.permissions userId g clicker) : BackedBy d p e := by
  rcases addMemberships_effects h with rfl | ⟨org, horg, rfl⟩
  · exact ⟨hc, hback⟩
  · exact ⟨hc, g, horg, hback⟩

theorem isAuthorized_iff {d : ResponseDesk} {clicker approver g : String} :
    isAuthorized d clicker approver g = true ↔
      clicker = approver ∨ d.permissions.hasAdminPrivilege clicker g = true := by
  simp [isAuthorized]

theorem mem_finish {d : ResponseDesk} {before after : List ResponseEffect} {e : ResponseEffect}
    (h : e ∈ (d.finish before after).1) : e ∈ before ∨ e ∈ after := by
  unfold ResponseDesk.finish at h
  split at h
  · exact List.mem_append.mp h
  · exact .inl h

theorem approvals_effects {d : ResponseDesk} {p : ResponsePayload} {e : ResponseEffect}
    (h : e ∈ (approvalsResponse d p).1) (hpriv : e.privileged = true) : BackedBy d p e := by
  unfold approvalsResponse at h
  cases hc : handleApprovalsResponse d.approvals p.questionId p.value with
  | start a =>
    rw [hc] at h
    rcases mem_finish h with h | h
    · rw [List.mem_singleton.mp h]
      obtain ⟨hget, hstart⟩ := handleApprovalsResponse_start.mp hc
      exact ⟨List.mem_of_find?_eq_some hget, by simpa using List.find?_some hget, hstart⟩
    · rw [List.mem_singleton.mp h]
      trivial
  | credential approve =>
    rw [hc] at h
    obtain ⟨hw, happ⟩ := handleApprovalsResponse_credential hc
    rcases mem_finish h with h | h
    · exact absurd h List.not_mem_nil
    · simp only [List.mem_cons, List.not_mem_nil, or_false] at h
      rcases h with rfl | rfl
      · trivial
      · have happ' : approve = true := hpriv
        rw [happ'] at happ
        exact ⟨rfl, hw, of_decide_eq_true happ.symm⟩
  | unclaimed | badPayload =>
    rw [hc] at h
    exact absurd h List.not_mem_nil
  | drop =>
    rw [hc] at h
    rw [List.mem_singleton.mp h]
    trivial
  | stale | reject | noHandler =>
    rw [hc] at h
    rcases mem_finish h with h | h
    · exact absurd h List.not_mem_nil
    · rw [List.mem_singleton.mp h]
      trivial

theorem interactive_effects {d : ResponseDesk} {p : ResponsePayload} {e : ResponseEffect}
    (h : e ∈ (handleInteractiveResponse d p).1) : e.privileged = false := by
  unfold handleInteractiveResponse at h
  split at h
  · exact absurd h List.not_mem_nil
  · split at h
    · exact absurd h List.not_mem_nil
    · rw [List.mem_singleton.mp h]
      rfl

theorem sender_effects {d : ResponseDesk} {p : ResponsePayload} {e : ResponseEffect}
    (h : e ∈ (handleSenderApprovalResponse d p).1) : BackedBy d p e := by
  unfold handleSenderApprovalResponse at h
  cases hrow : d.senderApprovals.find? fun r => r.id = p.questionId with
  | none => simp [hrow] at h
  | some row =>
    have hmem : row ∈ d.senderApprovals := List.mem_of_find?_eq_some hrow
    have hid : row.id = p.questionId := by simpa using List.find?_some hrow
    rw [hrow] at h
    cases hc : clickerId p with
    | none => simp [hc] at h
    | some clicker =>
      simp only [hc] at h
      by_cases hauth : isAuthorized d clicker row.approverUserId row.agentGroupId = true
      · rw [hauth, Bool.not_true, if_neg Bool.false_ne_true] at h
        by_cases hv : p.value = "approve"
        · rw [if_pos hv] at h
          simp only [List.mem_append, List.mem_singleton, List.mem_map] at h
          rcases h with (h | rfl) | ⟨event, -, rfl⟩
          · have hback : SenderBacked d p row.agentGroupId clicker :=
              ⟨hv, row, hmem, hid, rfl, isAuthorized_iff.mp hauth⟩
            exact addMemberships_backed hc (.inl hback) h
          · trivial
          · trivial
        · rw [if_neg hv, List.mem_singleton] at h
          rw [h]
          trivial
      · rw [Bool.not_eq_true] at hauth
        simp [hauth] at h

theorem connect_effects {d : ResponseDesk} {row : PendingChannelApproval} {target clicker : String}
    {e : ResponseEffect} (h : e ∈ (connectChannel d row target clicker).1) :
    e.privileged = false ∨ (∃ event, e = .createMessagingGroupAgent (connectWiring row.messagingGroupId target event)) ∨
      ∃ userId, e ∈ addMemberships d.permissions userId target clicker := by
  unfold connectChannel at h
  cases hevent : row.originalMessage with
  | none =>
    rw [hevent] at h
    rw [List.mem_singleton.mp h]
    exact .inl rfl
  | some event =>
    rw [hevent] at h
    dsimp only at h
    split at h
    · exact absurd h List.not_mem_nil
    · cases hsender : extractAndUpsertUser event with
      | error err =>
        rw [hsender] at h
        exact .inr (.inl ⟨event, List.mem_singleton.mp h⟩)
      | ok sender =>
        rw [hsender] at h
        simp only [List.mem_append, List.mem_cons, List.not_mem_nil, or_false] at h
        rcases h with (rfl | h) | rfl | rfl
        · exact .inr (.inl ⟨event, rfl⟩)
        · cases sender with
          | none => exact absurd h List.not_mem_nil
          | some userId => exact .inr (.inr ⟨userId, h⟩)
        · exact .inl rfl
        · exact .inl rfl

theorem channelDecision_effects {d : ResponseDesk} {row : PendingChannelApproval} {value clicker : String}
    {e : ResponseEffect} (h : e ∈ (channelDecision d row value clicker).1) (hpriv : e.privileged = true) :
    ∃ target, connectTarget value = some target ∧
      (d.permissions.canAccessAgentGroup clicker target).allowed = true ∧
      e ∈ (connectChannel d row target clicker).1 := by
  have hnot : ∀ effects : List ResponseEffect, (∀ x ∈ effects, x.privileged = false) → e ∉ effects := by
    intro effects hall hm
    rw [hall e hm] at hpriv
    cases hpriv
  unfold channelDecision at h
  split at h
  · exact absurd h (hnot _ (by simp [ResponseEffect.privileged]))
  · split at h
    · split at h
      · exact absurd h (hnot _ (by simp [ResponseEffect.privileged]))
      · exact absurd h List.not_mem_nil
    · split at h
      · refine absurd h (hnot _ ?_)
        split <;> simp [ResponseEffect.privileged]
      · cases htarget : connectTarget value with
        | none => simp [htarget] at h
        | some target =>
          rw [htarget] at h
          dsimp only at h
          split at h
          · exact absurd h (hnot _ (by simp [ResponseEffect.privileged]))
          · split at h
            · exact absurd h (hnot _ (by simp [ResponseEffect.privileged]))
            · rename_i haccess
              exact ⟨target, rfl, by simpa using haccess, h⟩

theorem channel_effects {d : ResponseDesk} {p : ResponsePayload} {e : ResponseEffect}
    (h : e ∈ (handleChannelApprovalResponse d p).1) (hpriv : e.privileged = true) : BackedBy d p e := by
  unfold handleChannelApprovalResponse at h
  cases hrow : d.channelApprovals.find? fun r => r.messagingGroupId = p.questionId with
  | none => simp [hrow] at h
  | some row =>
    have hmem : row ∈ d.channelApprovals := List.mem_of_find?_eq_some hrow
    have hid : row.messagingGroupId = p.questionId := by simpa using List.find?_some hrow
    rw [hrow] at h
    cases hc : clickerId p with
    | none => simp [hc] at h
    | some clicker =>
      simp only [hc] at h
      by_cases hauth : isAuthorized d clicker row.approverUserId row.agentGroupId = true
      · rw [hauth, Bool.not_true, if_neg Bool.false_ne_true] at h
        obtain ⟨target, htarget, haccess, hconnect⟩ := channelDecision_effects h hpriv
        have hback : ChannelBacked d p target clicker :=
          ⟨htarget, row, hmem, hid, isAuthorized_iff.mp hauth, haccess⟩
        rcases connect_effects hconnect with hno | ⟨event, rfl⟩ | ⟨userId, hadmit⟩
        · rw [hno] at hpriv
          cases hpriv
        · exact ⟨hid, clicker, hc, hback⟩
        · exact addMemberships_backed hc (.inr hback) hadmit
      · rw [Bool.not_eq_true] at hauth
        simp [hauth] at h

/-- **What a click can do.** For every response and all tables the handlers find: a membership and an
organisation membership come from the approver of the sender's card or an admin of its group, who
approved, or from the approver of the channel's card or an admin of its reference group, who connected
the channel to a group they may route to; a new wiring comes from the latter; an approval handler runs
for the pending row of the question, and a credential is released for the request waiting under it,
only on `approve`. -/
theorem response_authority {desks : List ResponseDesk} {p : ResponsePayload} {d : ResponseDesk}
    {e : ResponseEffect} (h : (d, e) ∈ dispatchResponse desks p) (hpriv : e.privileged = true) :
    BackedBy d p e := by
  rcases mem_dispatchResponse h with h | h | h | h
  · exact approvals_effects h hpriv
  · rw [interactive_effects h] at hpriv
    cases hpriv
  · exact sender_effects h
  · exact channel_effects h hpriv

/-! ### The approver or an admin of the group -/

/-- The approvers recorded under a question: on the cards of the permissions module, and in the
payload of a credential request. -/
def recordedApprovers (d : ResponseDesk) (questionId : String) : List String :=
  (d.senderApprovals.filter fun r => r.id = questionId).map (·.approverUserId) ++
    (d.channelApprovals.filter fun r => r.messagingGroupId = questionId).map (·.approverUserId) ++
    (d.approvals.approvals.filter fun a => a.approvalId = questionId).filterMap fun a =>
      a.payload.bind fun payload => match payload.get "approver" with
        | .ok v => Json.asString v
        | .error _ => none

/-- The agent groups an effect applies to. -/
def ResponseEffect.AppliesTo (d : ResponseDesk) : ResponseEffect → String → Prop
  | .addMember _ agentGroupId _, g => g = agentGroupId
  | .addOrgMember organizationId _ _, g => d.permissions.orgOfAgentGroup g = some organizationId
  | .createMessagingGroupAgent w, g => g = w.agentGroupId
  | .startHandler a, g => a.agentGroupId = some g
  | .resolveCredential approvalId _, g =>
    ∃ a ∈ d.approvals.approvals, a.approvalId = approvalId ∧ a.agentGroupId = some g
  | _, _ => False

/-- The clicker is the recorded approver, or administers a group the effect applies to. -/
def ApproverOrAdmin (d : ResponseDesk) (p : ResponsePayload) (e : ResponseEffect) : Prop :=
  ∃ clicker, clickerId p = some clicker ∧ (clicker ∈ recordedApprovers d p.questionId ∨
    ∃ g, e.AppliesTo d g ∧ d.permissions.hasAdminPrivilege clicker g = true)

/-- The message an unknown channel was first seen with. -/
def connectEvent : InboundEvent :=
  { channelType := "feishu", platformId := "feishu:oc_9", threadId := some "om_9", id := "om_9"
    kind := .chat, raw := "", content := some (.obj [("senderId", .str "ou_new")]), isMention := true
    isGroup := true, replyTo := none }

/-- A channel card with the reference group `ag-ref`, whose approver is `feishu:ou_boss`.
`feishu:ou_adm` administers `ag-ref` and is a member of `ag-team`. -/
def connectDesk : ResponseDesk :=
  { permissions :=
      { users := ["feishu:ou_boss", "feishu:ou_adm"]
        userRoles := [⟨"feishu:ou_boss", .owner, none, none⟩, ⟨"feishu:ou_adm", .admin, some "ag-ref", none⟩]
        agentGroups := [⟨"ag-ref", none⟩, ⟨"ag-team", none⟩]
        organizationMembers := []
        agentGroupMembers := [⟨"feishu:ou_adm", "ag-team"⟩] }
    approvals := ⟨[], [], [], []⟩, questions := [], senderApprovals := []
    channelApprovals := [⟨"mg-9", "ag-ref", some connectEvent, "feishu:ou_boss"⟩]
    wirings := [], handled := .ok (), answer := .ok (), approverDm := true }

def connectClick : ResponsePayload := ⟨"mg-9", "connect:ag-team", some "ou_adm", "feishu", "", none⟩

/-- The admin of the reference group wires the channel to a group they do not administer. -/
theorem connect_without_admin :
    ∃ e, (connectDesk, e) ∈ dispatchResponse [connectDesk, connectDesk, connectDesk, connectDesk] connectClick ∧
      e.privileged = true ∧ ¬ ApproverOrAdmin connectDesk connectClick e := by
  refine ⟨_, .head _, rfl, ?_⟩
  rintro ⟨clicker, hc, h⟩
  obtain rfl := Option.some.inj hc
  rcases h with h | ⟨g, rfl, h⟩
  · exact absurd h (by decide)
  · exact absurd h (by decide)

/-- The same click is backed by the reference group and by access to the target. -/
theorem response_authority_sample :
    (connectDesk, ResponseEffect.createMessagingGroupAgent (connectWiring "mg-9" "ag-team" connectEvent)) ∈
        dispatchResponse [connectDesk, connectDesk, connectDesk, connectDesk] connectClick ∧
      BackedBy connectDesk connectClick
        (.createMessagingGroupAgent (connectWiring "mg-9" "ag-team" connectEvent)) := by
  have hmem : (connectDesk, ResponseEffect.createMessagingGroupAgent
      (connectWiring "mg-9" "ag-team" connectEvent)) ∈
        dispatchResponse [connectDesk, connectDesk, connectDesk, connectDesk] connectClick := .head _
  exact ⟨hmem, response_authority hmem rfl⟩

end AgentDesk
