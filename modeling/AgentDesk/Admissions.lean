/-
# Admitting an unknown sender

A chat may ask for approval of senders it does not know. Its gate refuses their messages, and
`requestSenderApproval` (`src/modules/permissions/sender-approval.ts`) puts the sender to an approver: it waits until
one of those asked can be reached, keeps the message in `pending_sender_approvals` and waits for the card to go out.
A click on the card makes the sender a member and routes the message again, or just takes the row away.

Any number of these calls wait at a time, with the roles and memberships changing under them, and with the host
restarting. `Hall` is the tables and what waits; `Act` is what can happen to them.

* `replayed_once`: no message is routed again more often than it was refused, and a sender of a chat has one row.
* `admitted_by`: whoever becomes a member by a click had a message refused, and the clicker was asked then or
  administers the group now.
* `approval_works`: an approval of a pending row goes through, and the gate lets the sender pass.
* `answerable_iff`: every row can be answered, exactly when none is kept without an adapter and no restart
  cuts off the card of one. A row that cannot be answered shuts its sender out for good.

A click comes from a card that has gone out. That a group or a chat is deleted is left aside.
-/
import Mathlib.Algebra.Order.Group.Multiset
import AgentDesk.ApprovalAuthority
import AgentDesk.Approvers
import AgentDesk.OrgAdoption
import AgentDesk.Trans

namespace AgentDesk.Admissions

open Js

/-! ### The tables and what waits -/

/-- A message that a gate has refused: the chat, the agent it was for, and the sender. -/
structure Knock where
  messagingGroupId : String
  agentGroupId : String
  senderIdentity : String
  event : InboundEvent

/-- A call of `requestSenderApproval` that waits for one of the approvers to be reachable. -/
structure Request where
  knock : Knock
  approvers : List String

/-- `delivering` has the ids of the cards that are on their way and `cards` those that are out; `refused` and
`replayed` are the messages put to an approver and those routed again, since the beginning. -/
structure Hall where
  directory : Directory
  senderApprovals : List PendingSenderApproval
  requests : List Request
  delivering : List String
  cards : List String
  refused : List InboundEvent
  replayed : List InboundEvent

def empty : Hall := ⟨Directory.empty, [], [], [], [], [], []⟩

inductive Act where
  /-- Roles, memberships and organisations change. -/
  | call (c : DirectoryCall)
  /-- An agent of the chat has its turn with a message. -/
  | receive (event : InboundEvent) (mg : MessagingGroup) (agentGroupId : String) (policy : UnknownSenderPolicy)
      (recordDrop : Except String Unit)
  /-- A waiting call gets an approver and draws an id, or finds nobody, or throws. -/
  | addressed (i : ℕ) (target : Option (String × String)) (adapter : Bool)
  | delivered (i : ℕ) (outcome : Except String Unit)
  /-- A click; `others` is what the handler does not read. -/
  | click (p : ResponsePayload) (others : ResponseDesk)
  /-- The calls are lost; some of the cards on their way have arrived. -/
  | restart (arrived : List String)

variable (s : Hall)

/-- `hasInFlightSenderApproval`. -/
def Hall.hasInFlight (messagingGroupId senderIdentity : String) : Bool :=
  s.senderApprovals.any fun r => r.messagingGroupId = messagingGroupId && r.senderIdentity = senderIdentity

/-- The call up to its first await. -/
def Hall.requestSenderApproval (k : Knock) : Hall :=
  let s := { s with refused := s.refused ++ [k.event] }
  if s.hasInFlight k.messagingGroupId k.senderIdentity then s
  else
    let approvers := s.directory.pickApprover (some k.agentGroupId)
    if approvers = [] then s else { s with requests := s.requests ++ [⟨k, approvers⟩] }

def Hall.unknownSender (event : InboundEvent) (s : Hall) : UnknownSenderEffect → Hall
  | .recordDroppedMessage .. => s
  | .requestSenderApproval mgId agentGroupId senderIdentity _ =>
    s.requestSenderApproval ⟨mgId, agentGroupId, senderIdentity, event⟩

/-- The sender is resolved and the gate asked; an agent without a group has no turn. -/
def Hall.receive (event : InboundEvent) (mg : MessagingGroup) (agentGroupId : String) (policy : UnknownSenderPolicy)
    (recordDrop : Except String Unit) : Hall :=
  match extractAndUpsertUser event with
  | .error _ => s
  | .ok user =>
    let s := { s with directory := user.elim s.directory s.directory.upsertUser }
    if agentGroupId ∉ s.directory.agentGroups.map (·.id) then s
    else (accessGate s.directory.permissions policy recordDrop event user mg agentGroupId).1.foldl
      (Hall.unknownSender event) s

def Knock.row (k : Knock) (id approver : String) : PendingSenderApproval :=
  { id, messagingGroupId := k.messagingGroupId, agentGroupId := k.agentGroupId, senderIdentity := k.senderIdentity
    originalMessage := some k.event, approverUserId := approver }

/-- The call from the approver to the card. The insert throws on a second row for the sender in the chat; without an
adapter the row stays. -/
def Hall.addressed (i : ℕ) (target : Option (String × String)) (adapter : Bool) : Option Hall :=
  s.requests[i]?.bind fun request =>
    let s := { s with requests := s.requests.eraseIdx i }
    match target with
    | none => some s
    | some (approver, id) =>
      let k := request.knock
      if approver ∉ request.approvers then none
      else if s.senderApprovals.any (fun r => r.id = id) || s.hasInFlight k.messagingGroupId k.senderIdentity then
        some s
      else some { s with senderApprovals := s.senderApprovals ++ [k.row id approver]
                         delivering := if adapter then s.delivering ++ [id] else s.delivering }

def Hall.deletePendingSenderApproval (id : String) : Hall :=
  { s with senderApprovals := s.senderApprovals.filter fun r => r.id ≠ id }

/-- The card is out, or the row is cleared for another try. -/
def Hall.delivered (i : ℕ) (outcome : Except String Unit) : Option Hall :=
  s.delivering[i]?.map fun id =>
    let s := { s with delivering := s.delivering.eraseIdx i }
    match outcome with
    | .ok _ => { s with cards := s.cards ++ [id] }
    | .error _ => s.deletePendingSenderApproval id

/-- One effect of the handler; the two inserts may throw. -/
def Hall.effect : ResponseEffect → Hall × Except String Unit
  | .addMember userId agentGroupId addedBy =>
    let (directory, result) := s.directory.addMember userId agentGroupId (some addedBy)
    ({ s with directory }, result)
  | .addOrgMember organizationId userId addedBy =>
    let (directory, result) := s.directory.addOrgMember organizationId userId (some addedBy)
    ({ s with directory }, result)
  | .deletePendingSenderApproval id => (s.deletePendingSenderApproval id, .ok ())
  | .routeInbound event => ({ s with replayed := s.replayed ++ [event] }, .ok ())
  | _ => (s, .ok ())

/-- The effects in order, up to the first that throws. -/
def Hall.carryOut (s : Hall) : List ResponseEffect → Hall × Except String Unit
  | [] => (s, .ok ())
  | e :: rest => match s.effect e with
    | (s, .ok _) => s.carryOut rest
    | (s, .error err) => (s, .error err)

def Hall.desk (others : ResponseDesk) : ResponseDesk :=
  { others with permissions := s.directory.permissions, senderApprovals := s.senderApprovals }

/-- `handleSenderApprovalResponse`, and what it does. -/
def Hall.answer (p : ResponsePayload) (others : ResponseDesk) : Hall × Except String Unit :=
  s.carryOut (handleSenderApprovalResponse (s.desk others) p).1

def step (s : Hall) : Act → Option Hall
  | .call c => some { s with directory := s.directory.call c }
  | .receive event mg agentGroupId policy recordDrop => some (s.receive event mg agentGroupId policy recordDrop)
  | .addressed i target adapter => s.addressed i target adapter
  | .delivered i outcome => s.delivered i outcome
  | .click p others => if p.questionId ∈ s.cards ++ s.delivering then some (s.answer p others).1 else none
  | .restart arrived =>
    some { s with requests := [], delivering := [], cards := s.cards ++ s.delivering.filter (· ∈ arrived) }


/-! ### The directory grows -/

/-- Users and agent groups stay. -/
def Grows (d d' : Directory) : Prop :=
  d.users ⊆ d'.users ∧ d.agentGroups.map (·.id) ⊆ d'.agentGroups.map (·.id)

theorem Grows.refl (d : Directory) : Grows d d := ⟨List.Subset.refl _, List.Subset.refl _⟩

theorem setOrganization_groupIds (d : Directory) {agentGroupId org : String} (h : org ∈ d.organizations) :
    (d.setOrganization agentGroupId org h).agentGroups.map (·.id) = d.agentGroups.map (·.id) := by
  show (d.agentGroups.map fun g => if g.id = agentGroupId then { g with organizationId := some org } else g).map
    (·.id) = _
  rw [List.map_map]
  refine List.map_congr_left fun g _ => ?_
  simp only [Function.comp_apply]
  split <;> rfl

theorem assign_groupIds (d : Directory) (agentGroupId org : String) (actor : Option String) (stop : Option ℕ) :
    (d.assignAgentGroupToOrg agentGroupId org actor stop).1.agentGroups.map (·.id) = d.agentGroups.map (·.id) := by
  have henroll : ∀ (d : Directory) ids, (d.enroll org actor ids).1.agentGroups = d.agentGroups := by
    intro d ids
    obtain ⟨members, h⟩ := @Directory.enroll_frame d org actor ids
    rw [h]
  unfold Directory.assignAgentGroupToOrg
  by_cases hgroup : agentGroupId ∈ d.agentGroups.map (·.id)
  · by_cases horg : org ∈ d.organizations
    · rw [if_pos hgroup, dif_pos horg]
      dsimp only
      rw [henroll, setOrganization_groupIds]
    · rw [if_pos hgroup, dif_neg horg]
  · rw [if_neg hgroup]
    dsimp only
    rw [henroll]

theorem grows_call (d : Directory) (c : DirectoryCall) : Grows d (d.call c) := by
  cases c with
  | upsertUser id =>
    show Grows d (d.upsertUser id)
    unfold Directory.upsertUser
    split
    · exact .refl d
    · exact ⟨List.subset_append_left _ _, List.Subset.refl _⟩
  | createOrganization slug =>
    show Grows d (d.createOrganization slug).1
    unfold Directory.createOrganization
    split <;> exact .refl d
  | createAgentGroup suffix org =>
    show Grows d (d.createAgentGroup suffix org).1
    unfold Directory.createAgentGroup
    split
    · exact .refl d
    · split
      · refine ⟨List.Subset.refl _, ?_⟩
        rw [List.map_append]
        exact List.subset_append_left _ _
      · exact .refl d
  | grantRole u role scope grantedBy grantedAt =>
    show Grows d (d.grantRole u role scope grantedBy grantedAt).1
    unfold Directory.grantRole
    dsimp only
    split
    · exact .refl d
    · split
      · exact .refl d
      · split <;> exact .refl d
  | revokeRole u role scope => exact .refl d
  | addMember u g addedBy =>
    show Grows d (d.addMember u g addedBy).1
    unfold Directory.addMember
    split
    · exact .refl d
    · split <;> exact .refl d
  | removeMember u g => exact .refl d
  | addOrgMember org u addedBy =>
    show Grows d (d.addOrgMember org u addedBy).1
    unfold Directory.addOrgMember
    split
    · exact .refl d
    · split <;> exact .refl d
  | removeOrgMember org u => exact .refl d
  | assignAgentGroupToOrg g org actor stop =>
    show Grows d (d.assignAgentGroupToOrg g org actor stop).1
    unfold Grows
    rw [(Directory.assign_frame stop).1, assign_groupIds]
    exact Grows.refl d

theorem grows_calls (d : Directory) (cs : List DirectoryCall) : Grows d (d.calls cs) := by
  induction cs generalizing d with
  | nil => exact .refl d
  | cons c cs ih =>
    obtain ⟨husers, hgroups⟩ := grows_call d c
    exact ⟨List.Subset.trans husers (ih _).1, List.Subset.trans hgroups (ih _).2⟩

/-! ### One spec lemma for each operation -/

theorem handleUnknownSender_effects {policy : UnknownSenderPolicy} {mg : MessagingGroup} {user : Option String}
    {g : String} {event : InboundEvent} {recordDrop : Except String Unit} {s : Hall} :
    (handleUnknownSender policy mg user g event recordDrop).1.foldl (Hall.unknownSender event) s = s ∨
      ∃ sender, user = some sender ∧ policy = .requestApproval ∧
        (handleUnknownSender policy mg user g event recordDrop).1.foldl (Hall.unknownSender event) s =
          s.requestSenderApproval ⟨mg.id, g, sender, event⟩ := by
  unfold handleUnknownSender
  split
  · exact .inl rfl
  · dsimp only
    split
    · exact .inl rfl
    · exact .inl rfl
    · exact .inl rfl
    · by_cases htruthy : truthy user = true
      · refine .inr ⟨user.getD "", ?_, rfl, ?_⟩
        · cases user with
          | none => cases htruthy
          | some sender => rfl
        · rw [if_pos htruthy]
          rfl
      · rw [if_neg htruthy]
        exact .inl rfl

theorem hasInFlight_iff {s : Hall} {messagingGroupId senderIdentity : String} :
    s.hasInFlight messagingGroupId senderIdentity = true ↔
      (messagingGroupId, senderIdentity) ∈ s.senderApprovals.map fun r => (r.messagingGroupId, r.senderIdentity) := by
  simp [Hall.hasInFlight]

theorem pickApprover_upsertUser (d : Directory) (u : String) (g : Option String) :
    (d.upsertUser u).pickApprover g = d.pickApprover g := by
  unfold Directory.upsertUser
  split <;> rfl

/-- What a waiting message rests on: its sender, who is a known user, and a group. -/
structure Knock.Heard (d : Directory) (k : Knock) : Prop where
  sender : extractAndUpsertUser k.event = .ok (some k.senderIdentity)
  known : k.senderIdentity ∈ d.users
  group : k.agentGroupId ∈ d.agentGroups.map (·.id)

theorem Knock.Heard.grows {d d' : Directory} {k : Knock} (h : k.Heard d) (hd : Grows d d') : k.Heard d' :=
  ⟨h.sender, hd.1 h.known, hd.2 h.group⟩

/-! ### The invariant -/

/-- The messages that are kept in a row, and those whose call waits. -/
def Hall.held (s : Hall) : Multiset InboundEvent :=
  (s.senderApprovals.filterMap (·.originalMessage) : Multiset InboundEvent) + s.requests.map (·.knock.event)

structure Sound (s : Hall) : Prop where
  users : s.directory.UsersKnown
  ids : (s.senderApprovals.map (·.id)).Nodup
  pairs : (s.senderApprovals.map fun r => (r.messagingGroupId, r.senderIdentity)).Nodup
  rows : ∀ r ∈ s.senderApprovals, ∃ k : Knock, r = k.row r.id r.approverUserId ∧ k.Heard s.directory ∧
    r.approverUserId ∈ s.directory.users
  requests : ∀ q ∈ s.requests, q.knock.Heard s.directory ∧ ∀ a ∈ q.approvers, a ∈ s.directory.users
  conserved : (s.replayed : Multiset InboundEvent) + s.held ≤ s.refused

theorem sound_empty : Sound empty where
  users := Directory.usersKnown_empty
  ids := List.nodup_nil
  pairs := List.nodup_nil
  rows := by simp [empty]
  requests := by simp [empty]
  conserved := by simp [empty, Hall.held]

variable {s s' : Hall}

theorem Sound.call (h : Sound s) (c : DirectoryCall) : Sound { s with directory := s.directory.call c } where
  users := Directory.usersKnown_call h.users c
  ids := h.ids
  pairs := h.pairs
  rows := fun r hr => by
    obtain ⟨k, hk, hheard, happrover⟩ := h.rows r hr
    exact ⟨k, hk, hheard.grows (grows_call _ c), (grows_call _ c).1 happrover⟩
  requests := fun q hq =>
    ⟨(h.requests q hq).1.grows (grows_call _ c), fun a ha => (grows_call _ c).1 ((h.requests q hq).2 a ha)⟩
  conserved := h.conserved

theorem Sound.calls (h : Sound s) (cs : List DirectoryCall) :
    Sound { s with directory := s.directory.calls cs } := by
  induction cs generalizing s with
  | nil => exact h
  | cons c cs ih => exact ih (h.call c)

theorem known_of_grant {d : Directory} (h : d.UsersKnown) {a : String} {role : UserRoleKind} {scope : RoleScope}
    (ha : (a, role, scope) ∈ d.grants) : a ∈ d.users := by
  obtain ⟨r, hr, hgrant⟩ := ha
  have huser : r.userId = a := (Directory.isGrant_iff.mp hgrant).1
  rw [← huser]
  exact h.roles r hr

theorem approver_known {d : Directory} (h : d.UsersKnown) {g a : String} (ha : a ∈ d.pickApprover (some g)) :
    a ∈ d.users := by
  rcases Directory.mem_pickApprover.mp ha with hadmin | ⟨org, -, hadmin⟩ | hadmin | hadmin
  · exact known_of_grant h (Directory.isAdminOfAgentGroup_iff.mp hadmin)
  · exact known_of_grant h (Directory.isOrgAdmin_iff.mp hadmin)
  · exact known_of_grant h (Directory.isGlobalAdmin_iff.mp hadmin)
  · exact known_of_grant h (Directory.isOwner_iff.mp hadmin)

theorem admin_known {d : Directory} (h : d.UsersKnown) {g a : String}
    (ha : d.permissions.hasAdminPrivilege a g = true) : a ∈ d.users := by
  rcases Permissions.hasAdminPrivilege_iff.mp ha with (hadmin | hadmin) | ⟨-, hadmin | ⟨org, -, hadmin⟩⟩
  · exact known_of_grant h (Directory.isOwner_iff.mp hadmin)
  · exact known_of_grant h (Directory.isGlobalAdmin_iff.mp hadmin)
  · exact known_of_grant h (Directory.isAdminOfAgentGroup_iff.mp hadmin)
  · exact known_of_grant h (Directory.isOrgAdmin_iff.mp hadmin)

theorem requests_eraseIdx {i : ℕ} {q : Request} (hq : s.requests[i]? = some q) :
    (s.requests.map (·.knock.event) : Multiset InboundEvent) =
      {q.knock.event} + (s.requests.eraseIdx i).map (·.knock.event) := by
  obtain ⟨hi, hget⟩ := List.getElem?_eq_some_iff.mp hq
  have hperm := (List.getElem_cons_eraseIdx_perm hi).map (·.knock.event)
  rw [hget] at hperm
  exact (Multiset.coe_eq_coe.mpr hperm).symm

theorem Sound.endRequest (h : Sound s) {i : ℕ} {q : Request} (hq : s.requests[i]? = some q) :
    Sound { s with requests := s.requests.eraseIdx i } :=
  { h with
    requests := fun q hq => h.requests q (List.mem_of_mem_eraseIdx hq)
    conserved := by
      refine le_trans ?_ h.conserved
      unfold Hall.held
      rw [requests_eraseIdx hq]
      exact Multiset.add_le_add_left (Multiset.add_le_add_left (Multiset.le_add_left _ _)) }

theorem Sound.filterRows (h : Sound s) (p : PendingSenderApproval → Bool) :
    Sound { s with senderApprovals := s.senderApprovals.filter p } :=
  { h with
    ids := h.ids.sublist (List.filter_sublist.map _)
    pairs := h.pairs.sublist (List.filter_sublist.map _)
    rows := fun r hr => h.rows r (List.mem_filter.mp hr).1
    conserved := by
      refine le_trans ?_ h.conserved
      have hle : ((s.senderApprovals.filter p).filterMap (·.originalMessage) : Multiset InboundEvent) ≤
          (s.senderApprovals.filterMap (·.originalMessage) : List InboundEvent) :=
        Multiset.coe_le.mpr (List.filter_sublist.filterMap _).subperm
      exact Multiset.add_le_add_left (Multiset.add_le_add_right hle) }

/-! ### A click -/

theorem addMember_ok {d : Directory} {u g : String} {by' : Option String} (hu : u ∈ d.users)
    (hg : g ∈ d.agentGroups.map (·.id)) (hby : ∀ b ∈ by', b ∈ d.users) :
    ∃ members, d.addMember u g by' = ({ d with agentGroupMembers := members }, .ok ()) ∧
      ∀ m, m ∈ members ↔ m ∈ d.agentGroupMembers ∨ m = ⟨u, g⟩ := by
  unfold Directory.addMember
  split
  · rename_i hmem
    refine ⟨d.agentGroupMembers, rfl, fun m => ⟨.inl, ?_⟩⟩
    rintro (hm | rfl)
    · exact hm
    · exact hmem
  · exact ⟨_, if_pos ⟨hu, hg, hby⟩, fun m => by simp⟩

theorem addOrgMember_ok {d : Directory} {org u : String} {by' : Option String} (ho : org ∈ d.organizations)
    (hu : u ∈ d.users) (hby : ∀ b ∈ by', b ∈ d.users) :
    ∃ members, d.addOrgMember org u by' = ({ d with organizationMembers := members }, .ok ()) ∧
      ∀ m, m ∈ members ↔ m ∈ d.organizationMembers ∨ m = ⟨org, u⟩ := by
  unfold Directory.addOrgMember
  split
  · rename_i hmem
    refine ⟨d.organizationMembers, rfl, fun m => ⟨.inl, ?_⟩⟩
    rintro (hm | rfl)
    · exact hm
    · exact hmem
  · exact ⟨_, if_pos ⟨ho, hu, hby⟩, fun m => by simp⟩

/-- What an approval leaves: the sender is a member of the group, and of its organisation. -/
structure Admitted (d d' : Directory) (u g : String) : Prop where
  calls : ∃ cs, d' = d.calls cs
  members : ∀ m, m ∈ d'.agentGroupMembers ↔ m ∈ d.agentGroupMembers ∨ m = ⟨u, g⟩
  orgMember : ∀ org, d'.permissions.orgOfAgentGroup g = some org → ⟨org, u⟩ ∈ d'.organizationMembers
  roles : d'.userRoles = d.userRoles

theorem addMemberships_ok {u g by' : String} (hu : u ∈ s.directory.users)
    (hg : g ∈ s.directory.agentGroups.map (·.id)) (hby : by' ∈ s.directory.users) (rest : List ResponseEffect) :
    ∃ d, s.carryOut (addMemberships s.directory.permissions u g by' ++ rest) =
      ({ s with directory := d }).carryOut rest ∧ Admitted s.directory d u g := by
  have hby' : ∀ b ∈ some by', b ∈ s.directory.users := by
    intro b hb
    rwa [← Option.some.inj hb]
  obtain ⟨members, hadd, hmembers⟩ := addMember_ok hu hg hby'
  have hcall : s.directory.call (.addMember u g (some by')) = { s.directory with agentGroupMembers := members } :=
    congrArg Prod.fst hadd
  unfold addMemberships
  cases horg : s.directory.permissions.orgOfAgentGroup g with
  | none =>
    refine ⟨{ s.directory with agentGroupMembers := members }, ?_, ⟨[.addMember u g (some by')], hcall.symm⟩,
      hmembers, ?_, rfl⟩
    · simp only [List.cons_append, List.nil_append, Hall.carryOut, Hall.effect, hadd]
    · intro org horg'
      cases horg.symm.trans horg'
  | some org =>
    have hne : org ≠ "" := Directory.orgOfAgentGroup_ne horg
    have hmem : org ∈ s.directory.organizations := by
      obtain ⟨row, hrow, hro⟩ := Option.bind_eq_some_iff.mp horg
      exact s.directory.groupOrgs row (List.mem_of_find?_eq_some hrow) org hro
    obtain ⟨orgMembers, haddOrg, horgMembers⟩ :=
      addOrgMember_ok (d := { s.directory with agentGroupMembers := members }) hmem hu hby'
    have hcalls : { s.directory with agentGroupMembers := members, organizationMembers := orgMembers } =
        s.directory.calls [.addMember u g (some by'), .addOrgMember org u (some by')] := by
      show _ = (s.directory.call (.addMember u g (some by'))).call (.addOrgMember org u (some by'))
      rw [hcall]
      exact (congrArg Prod.fst haddOrg).symm
    refine ⟨_, ?_, ⟨_, hcalls⟩, hmembers, ?_, rfl⟩
    · simp only [if_pos hne, List.cons_append, List.nil_append, Hall.carryOut, Hall.effect, hadd, haddOrg]
    · intro org' horg'
      rw [Option.some.inj (horg'.symm.trans horg)]
      exact (horgMembers _).mpr (.inr rfl)

/-- A row that is taken releases its message. -/
theorem release {rows : List PendingSenderApproval} {r : PendingSenderApproval} {event : InboundEvent}
    (hr : r ∈ rows) (hevent : r.originalMessage = some event) {p : PendingSenderApproval → Bool} (hp : p r = false) :
    ((rows.filter p).filterMap (·.originalMessage) : Multiset InboundEvent) + {event} ≤
      (rows.filterMap (·.originalMessage) : List InboundEvent) := by
  obtain ⟨l₁, l₂, rfl⟩ := List.append_of_mem hr
  have hsub : List.Sublist ((l₁ ++ r :: l₂).filter p) (l₁ ++ l₂) := by
    rw [List.filter_append, List.filter_cons_of_neg (by simp [hp])]
    exact List.filter_sublist.append List.filter_sublist
  have hle := Multiset.coe_le.mpr (hsub.filterMap (·.originalMessage)).subperm
  calc ((List.filter p (l₁ ++ r :: l₂)).filterMap (·.originalMessage) : Multiset InboundEvent) + {event}
      ≤ ((l₁ ++ l₂).filterMap (·.originalMessage) : List InboundEvent) + {event} := Multiset.add_le_add_right hle
    _ = _ := by
      simp only [List.filterMap_append, List.filterMap_cons, hevent, ← Multiset.coe_add, ← Multiset.cons_coe,
        ← Multiset.singleton_add]
      rw [add_right_comm, add_assoc]

theorem answer_approve (h : Sound s) {p : ResponsePayload} {others : ResponseDesk} {row : PendingSenderApproval}
    {clicker : String} (hrow : s.senderApprovals.find? (fun r => r.id = p.questionId) = some row)
    (hclicker : clickerId p = some clicker)
    (hauth : isAuthorized (s.desk others) clicker row.approverUserId row.agentGroupId = true)
    (hv : p.value = "approve") :
    ∃ k d, row = Knock.row k row.id row.approverUserId ∧ k.Heard s.directory ∧
      Admitted s.directory d row.senderIdentity row.agentGroupId ∧
      s.answer p others = ({ s.deletePendingSenderApproval row.id with
        directory := d, replayed := s.replayed ++ [k.event] }, .ok ()) := by
  obtain ⟨k, hk, hheard, happrover⟩ := h.rows row (List.mem_of_find?_eq_some hrow)
  have hknown : clicker ∈ s.directory.users := by
    rcases isAuthorized_iff.mp hauth with rfl | hadmin
    · exact happrover
    · exact admin_known h.users hadmin
  have hevent : row.originalMessage = some k.event := by rw [hk]; rfl
  have hsender : row.senderIdentity = k.senderIdentity := by rw [hk]; rfl
  have hgroup : row.agentGroupId = k.agentGroupId := by rw [hk]; rfl
  obtain ⟨d, hcarry, hadmitted⟩ := addMemberships_ok (hsender ▸ hheard.known) (hgroup ▸ hheard.group) hknown
    [.deletePendingSenderApproval row.id, .routeInbound k.event]
  refine ⟨k, d, hk, hheard, hadmitted, ?_⟩
  have hfind : (s.desk others).senderApprovals.find? (fun r => r.id = p.questionId) = some row := hrow
  unfold Hall.answer handleSenderApprovalResponse
  rw [hfind]
  dsimp only
  rw [hclicker]
  dsimp only
  rw [hauth, Bool.not_true, if_neg Bool.false_ne_true, if_pos hv, hevent, List.append_assoc]
  exact hcarry

/-! ### What a step does -/

/-- What an action does to the tables and to what waits. -/
inductive Moved (s : Hall) : Act → Hall → Prop
  | called (c : DirectoryCall) : Moved s (.call c) { s with directory := s.directory.call c }
  /-- At most a user is recorded, and a message refused that nobody is asked about. -/
  | heard {event mg g policy recordDrop} (cs : List DirectoryCall) (refused : List InboundEvent) :
      Moved s (.receive event mg g policy recordDrop)
        { s with directory := s.directory.calls cs, refused := s.refused ++ refused }
  | asked {event mg g recordDrop sender} (hsender : extractAndUpsertUser event = .ok (some sender))
      (hgroup : g ∈ (s.directory.upsertUser sender).agentGroups.map (·.id))
      (hallowed : ((s.directory.upsertUser sender).permissions.canAccessAgentGroup sender g).allowed = false) :
      Moved s (.receive event mg g .requestApproval recordDrop)
        { s with directory := s.directory.upsertUser sender
                 refused := s.refused ++ [event]
                 requests := s.requests ++ [⟨⟨mg.id, g, sender, event⟩, s.directory.pickApprover (some g)⟩] }
  /-- For want of an approver, or because the id or the sender has a row. -/
  | ended {i q target adapter} (hq : s.requests[i]? = some q)
      (htaken : ∀ t ∈ target, t.2 ∈ s.senderApprovals.map (·.id) ∨
        s.hasInFlight q.knock.messagingGroupId q.knock.senderIdentity = true) :
      Moved s (.addressed i target adapter) { s with requests := s.requests.eraseIdx i }
  | kept {i q approver id adapter} (hq : s.requests[i]? = some q) (happrover : approver ∈ q.approvers)
      (hid : id ∉ s.senderApprovals.map (·.id))
      (hpair : ¬ s.hasInFlight q.knock.messagingGroupId q.knock.senderIdentity = true) :
      Moved s (.addressed i (some (approver, id)) adapter)
        { s with requests := s.requests.eraseIdx i
                 senderApprovals := s.senderApprovals ++ [q.knock.row id approver]
                 delivering := if adapter then s.delivering ++ [id] else s.delivering }
  | carded {i id outcome} (hid : s.delivering[i]? = some id) :
      Moved s (.delivered i outcome) { s with delivering := s.delivering.eraseIdx i, cards := s.cards ++ [id] }
  | cleared {i id outcome} (hid : s.delivering[i]? = some id) :
      Moved s (.delivered i outcome) { s.deletePendingSenderApproval id with delivering := s.delivering.eraseIdx i }
  | unheeded {p others} : Moved s (.click p others) s
  | declined {p others} (hcard : p.questionId ∈ s.cards ++ s.delivering) :
      Moved s (.click p others) (s.deletePendingSenderApproval p.questionId)
  | admitted {p others row clicker k d} (hcard : p.questionId ∈ s.cards ++ s.delivering)
      (hrow : row ∈ s.senderApprovals) (hid : row.id = p.questionId) (hclicker : clickerId p = some clicker)
      (hauth : isAuthorized (s.desk others) clicker row.approverUserId row.agentGroupId = true)
      (hk : row = Knock.row k row.id row.approverUserId)
      (hadmitted : Admitted s.directory d row.senderIdentity row.agentGroupId) :
      Moved s (.click p others) { s.deletePendingSenderApproval p.questionId with
        directory := d, replayed := s.replayed ++ [k.event] }
  | restarted (arrived : List String) :
      Moved s (.restart arrived) { s with requests := [], delivering := []
                                          cards := s.cards ++ s.delivering.filter (· ∈ arrived) }

theorem receive_moved (s : Hall) (event : InboundEvent) (mg : MessagingGroup) (g : String)
    (policy : UnknownSenderPolicy) (recordDrop : Except String Unit) :
    Moved s (.receive event mg g policy recordDrop) (s.receive event mg g policy recordDrop) := by
  have hquiet : ∀ cs, Moved s (.receive event mg g policy recordDrop)
      { s with directory := s.directory.calls cs } := by
    intro cs
    have hheard := @Moved.heard s event mg g policy recordDrop cs []
    rwa [List.append_nil] at hheard
  unfold Hall.receive
  split
  · exact hquiet []
  · rename_i user huser
    have hcalls : ∃ cs, user.elim s.directory s.directory.upsertUser = s.directory.calls cs := by
      cases user with
      | none => exact ⟨[], rfl⟩
      | some sender => exact ⟨[.upsertUser sender], rfl⟩
    obtain ⟨cs, hcs⟩ := hcalls
    dsimp only
    rw [hcs]
    split
    · exact hquiet cs
    · rename_i hgroup
      unfold accessGate
      dsimp only
      split
      · split <;> exact hquiet cs
      · split
        · rcases @handleUnknownSender_effects policy mg none g event recordDrop
            { s with directory := s.directory.calls cs } with h | ⟨_, hnone, -⟩
          · rw [h]
            exact hquiet cs
          · cases hnone
        · split
          · exact hquiet cs
          · rename_i hallowed
            rcases @handleUnknownSender_effects policy mg user g event recordDrop
              { s with directory := s.directory.calls cs } with h | ⟨sender, rfl, rfl, h⟩
            · rw [h]
              exact hquiet cs
            · have hdir : s.directory.calls cs = s.directory.upsertUser sender := hcs.symm
              rw [h]
              rw [hdir] at hgroup hallowed ⊢
              unfold Hall.requestSenderApproval
              dsimp only
              split
              · exact .heard [.upsertUser sender] [event]
              · split
                · exact .heard [.upsertUser sender] [event]
                · rw [pickApprover_upsertUser]
                  exact .asked huser (not_not.mp hgroup) (by simpa using hallowed)

theorem addressed_moved {i : ℕ} {target : Option (String × String)} {adapter : Bool}
    (h : s.addressed i target adapter = some s') : Moved s (.addressed i target adapter) s' := by
  obtain ⟨q, hq, h⟩ := Option.bind_eq_some_iff.mp h
  cases target with
  | none =>
    rw [← Option.some.inj h]
    exact .ended hq (by simp)
  | some t =>
    obtain ⟨approver, id⟩ := t
    dsimp only at h
    split at h
    · cases h
    · rename_i happrover
      have hids : (s.senderApprovals.any fun r => r.id = id) = true ↔ id ∈ s.senderApprovals.map (·.id) := by simp
      split at h
      · rename_i htaken
        rw [Bool.or_eq_true, hids] at htaken
        rw [← Option.some.inj h]
        refine .ended hq fun t ht => ?_
        rw [← Option.some.inj ht]
        exact htaken
      · rename_i hnew
        rw [Bool.or_eq_true, not_or, hids] at hnew
        rw [← Option.some.inj h]
        exact .kept hq (not_not.mp happrover) hnew.1 hnew.2

theorem delivered_moved {i : ℕ} {outcome : Except String Unit} (h : s.delivered i outcome = some s') :
    Moved s (.delivered i outcome) s' := by
  obtain ⟨id, hid, h⟩ := Option.map_eq_some_iff.mp h
  rw [← h]
  cases outcome with
  | ok _ => exact .carded hid
  | error e => exact .cleared hid

theorem answer_moved (h : Sound s) {p : ResponsePayload} (others : ResponseDesk)
    (hcard : p.questionId ∈ s.cards ++ s.delivering) : Moved s (.click p others) (s.answer p others).1 := by
  cases hrow : s.senderApprovals.find? fun r => r.id = p.questionId with
  | none =>
    have hfind : (s.desk others).senderApprovals.find? (fun r => r.id = p.questionId) = none := hrow
    unfold Hall.answer handleSenderApprovalResponse
    rw [hfind]
    exact .unheeded
  | some row =>
    have hfind : (s.desk others).senderApprovals.find? (fun r => r.id = p.questionId) = some row := hrow
    have hid : row.id = p.questionId := by simpa using List.find?_some hrow
    cases hclicker : clickerId p with
    | none =>
      unfold Hall.answer handleSenderApprovalResponse
      rw [hfind]
      dsimp only
      rw [hclicker]
      exact .unheeded
    | some clicker =>
      by_cases hauth : isAuthorized (s.desk others) clicker row.approverUserId row.agentGroupId = true
      · by_cases hv : p.value = "approve"
        · obtain ⟨k, d, hk, -, hadmitted, heq⟩ := answer_approve h hrow hclicker hauth hv
          rw [heq, hid]
          exact .admitted hcard (List.mem_of_find?_eq_some hrow) hid hclicker hauth hk hadmitted
        · unfold Hall.answer handleSenderApprovalResponse
          rw [hfind]
          dsimp only
          rw [hclicker]
          dsimp only
          rw [hauth, Bool.not_true, if_neg Bool.false_ne_true, if_neg hv]
          exact hid ▸ .declined hcard
      · rw [Bool.not_eq_true] at hauth
        unfold Hall.answer handleSenderApprovalResponse
        rw [hfind]
        dsimp only
        rw [hclicker]
        dsimp only
        rw [hauth]
        exact .unheeded

theorem step_click {p : ResponsePayload} {others : ResponseDesk} :
    step s (.click p others) = some s' ↔ p.questionId ∈ s.cards ++ s.delivering ∧ (s.answer p others).1 = s' := by
  show (if p.questionId ∈ s.cards ++ s.delivering then some (s.answer p others).1 else none) = some s' ↔ _
  simp

/-- Everything a step can do. -/
theorem step_moved (h : Sound s) {e : Act} (hs : step s e = some s') : Moved s e s' := by
  cases e with
  | call c => exact Option.some.inj hs ▸ .called c
  | receive event mg g policy recordDrop =>
    rw [← Option.some.inj hs]
    exact receive_moved s event mg g policy recordDrop
  | addressed i target adapter => exact addressed_moved hs
  | delivered i outcome => exact delivered_moved hs
  | click p others =>
    obtain ⟨hcard, hanswer⟩ := step_click.mp hs
    rw [← hanswer]
    exact answer_moved h others hcard
  | restart arrived => exact Option.some.inj hs ▸ .restarted arrived

theorem Sound.refuse (h : Sound s) (refused : List InboundEvent) : Sound { s with refused := s.refused ++ refused } :=
  { h with
    conserved := by
      refine h.conserved.trans ?_
      rw [← Multiset.coe_add]
      exact Multiset.le_add_right _ _ }

theorem sound_step (s : Hall) (e : Act) (s' : Hall) (h : Sound s) (hs : step s e = some s') : Sound s' := by
  cases step_moved h hs with
  | called c => exact h.call c
  | heard cs refused => exact (h.calls cs).refuse refused
  | @asked event mg g recordDrop sender hsender hgroup hallowed =>
    have hcall : Sound { s with directory := s.directory.upsertUser sender } := h.call (.upsertUser sender)
    have hknown : sender ∈ (s.directory.upsertUser sender).users := by
      unfold Directory.upsertUser
      split
      · assumption
      · exact List.mem_append_right _ (.head _)
    exact
      { hcall with
        requests := fun q hq => by
          rcases List.mem_append.mp hq with hq | hq
          · exact hcall.requests q hq
          · rw [List.mem_singleton.mp hq]
            exact ⟨⟨hsender, hknown, hgroup⟩, fun a ha => (grows_call _ (.upsertUser sender)).1
              (approver_known h.users ha)⟩
        conserved := by
          have hrefused : (s.replayed : Multiset InboundEvent) + s.held + {event} ≤ (s.refused ++ [event] : List _) := by
            rw [← Multiset.coe_add]
            exact Multiset.add_le_add_right h.conserved
          refine le_trans (le_of_eq ?_) hrefused
          simp [Hall.held, ← Multiset.coe_add, add_assoc] }
  | ended hq => exact h.endRequest hq
  | @kept i q approver id adapter hq happrover hid hpair =>
    obtain ⟨hheard, hknown⟩ := h.requests q (List.mem_of_getElem? hq)
    exact
      { h.endRequest hq with
        ids := by
          rw [List.map_append]
          exact h.ids.append (List.nodup_singleton _) (List.disjoint_singleton.mpr hid)
        pairs := by
          rw [List.map_append]
          exact h.pairs.append (List.nodup_singleton _) (List.disjoint_singleton.mpr (mt hasInFlight_iff.mpr hpair))
        rows := fun r hr => by
          rcases List.mem_append.mp hr with hr | hr
          · exact h.rows r hr
          · rw [List.mem_singleton.mp hr]
            exact ⟨q.knock, rfl, hheard, hknown approver happrover⟩
        conserved := by
          refine le_trans (le_of_eq ?_) h.conserved
          simp [Hall.held, requests_eraseIdx hq, Knock.row, ← Multiset.coe_add, add_assoc] }
  | carded => exact { h with }
  | cleared => exact { h.filterRows _ with }
  | unheeded => exact h
  | declined => exact h.filterRows _
  | @admitted p others row clicker k d _ hrow hid _ _ hk hadmitted =>
    obtain ⟨cs, rfl⟩ := hadmitted.calls
    exact
      { (h.filterRows fun r => r.id ≠ p.questionId).calls cs with
        conserved := by
          refine le_trans ?_ h.conserved
          have hevent : row.originalMessage = some k.event := by rw [hk]; rfl
          have hrelease := release hrow hevent (p := fun r => r.id ≠ p.questionId) (by simp [hid])
          have hmove : ∀ replayed stored requested : Multiset InboundEvent,
              replayed + {k.event} + (stored + requested) = replayed + (stored + {k.event} + requested) := by
            intro replayed stored requested
            rw [add_assoc, add_comm stored {k.event}, add_assoc {k.event} stored]
          dsimp only
          unfold Hall.held
          rw [← Multiset.coe_add, Multiset.coe_singleton, hmove]
          exact Multiset.add_le_add_left (Multiset.add_le_add_right hrelease) }
  | restarted arrived =>
    exact
      { h with
        requests := by simp
        conserved := by
          refine le_trans ?_ h.conserved
          exact Multiset.add_le_add_left (Multiset.add_le_add_left (Multiset.zero_le _)) }

/-- The invariant of every reachable state. -/
theorem sound {acts : List Act} (h : Trans.run step empty acts = some s) : Sound s :=
  Trans.run_inv sound_step sound_empty h

/-- **A message is not routed again more often than it was refused.** In every state the messages that have been
routed again, those kept in a row and those whose call waits are among the refused ones, each with its own refusal;
and a sender of a chat has one row. -/
theorem replayed_once (acts : List Act) :
    Trans.Always step (fun s => (s.replayed : Multiset InboundEvent) + s.held ≤ s.refused ∧
      (s.senderApprovals.map fun r => (r.messagingGroupId, r.senderIdentity)).Nodup) empty acts := by
  intro _ _ s _ hrun
  exact ⟨(sound hrun).conserved, (sound hrun).pairs⟩

/-! ### An approval works -/

theorem sender_ne_empty {event : InboundEvent} {u : String} (h : extractAndUpsertUser event = .ok (some u)) :
    u ≠ "" := by
  obtain ⟨handle, -, rfl⟩ := Option.map_eq_some_iff.mp (extractAndUpsertUser_id h).symm
  have hcolon : ':' ∈ (namespacedHandle event.channelType handle).toList := by
    unfold namespacedHandle
    split
    · rename_i h
      simpa using h
    · exact mem_prefixed _ _
  intro hempty
  rw [hempty] at hcolon
  simp at hcolon

/-- The admitted sender may route to the group, whatever the policy of the chat. -/
theorem Admitted.passes {d d' : Directory} {u g : String} (h : Admitted d d' u g) (hu : u ∈ d'.users)
    (policy : UnknownSenderPolicy) (recordDrop : Except String Unit) (event : InboundEvent) (mg : MessagingGroup)
    (hne : u ≠ "") :
    accessGate d'.permissions policy recordDrop event (some u) mg g = ([], .ok ⟨true, none⟩) := by
  have horg : ∀ org, d'.permissions.orgOfAgentGroup g = some org → d'.permissions.isMemberOfOrg u org = true := by
    intro org horg
    exact List.any_eq_true.mpr ⟨⟨org, u⟩, h.orgMember org horg, by simp⟩
  have hmember : d'.permissions.isMember u g = true := by
    have hrow : (d'.agentGroupMembers.any fun m => m.userId = u && m.agentGroupId = g) = true :=
      List.any_eq_true.mpr ⟨⟨u, g⟩, (h.members _).mpr (.inr rfl), by simp⟩
    unfold Permissions.isMember
    rw [show d'.permissions.agentGroupMembers = d'.agentGroupMembers from rfl, hrow, Bool.or_true]
  have hallowed : (d'.permissions.canAccessAgentGroup u g).allowed = true :=
    Permissions.canAccess_iff.mpr ⟨hu, .inr ⟨horg, .inr hmember⟩⟩
  have htruthy : truthy (some u) = true := by simpa using hne
  unfold accessGate
  dsimp only
  split
  · have hpublic : d'.permissions.publicIngressAllowed (some u) g = true := by
      unfold Permissions.publicIngressAllowed
      cases hgroup : d'.permissions.orgOfAgentGroup g with
      | none => rfl
      | some org => simp [hne, horg org hgroup]
    rw [if_pos hpublic]
  · rw [htruthy, Bool.not_true, if_neg Bool.false_ne_true, Option.getD_some, hallowed, if_pos rfl]

/-- Whoever may answer approves a pending row: the row goes, its message is routed again, and the sender the message
is from passes the gate of the group. -/
def ApprovalWorks (s : Hall) : Prop :=
  ∀ row ∈ s.senderApprovals, ∀ p others clicker, p.questionId = row.id → p.value = "approve" →
    clickerId p = some clicker →
    (clicker = row.approverUserId ∨ s.directory.permissions.hasAdminPrivilege clicker row.agentGroupId = true) →
    ∃ event s', s.answer p others = (s', .ok ()) ∧ row.originalMessage = some event ∧
      extractAndUpsertUser event = .ok (some row.senderIdentity) ∧ s'.replayed = s.replayed ++ [event] ∧
      row.id ∉ s'.senderApprovals.map (·.id) ∧
      ∀ policy recordDrop mg, accessGate s'.directory.permissions policy recordDrop event (some row.senderIdentity) mg
        row.agentGroupId = ([], .ok ⟨true, none⟩)

/-- **An approval works.** In every state, whatever has happened to roles and memberships since the message was
refused. -/
theorem approval_works (acts : List Act) : Trans.Always step ApprovalWorks empty acts := by
  intro _ _ s _ hrun row hrow p others clicker hid hvalue hclicker hauth
  have h := sound hrun
  have hfind : s.senderApprovals.find? (fun r => r.id = p.questionId) = some row := by
    rw [hid]
    exact Table.find_of_nodup h.ids hrow
  obtain ⟨k, d, hk, hheard, hadmitted, heq⟩ := answer_approve h hfind hclicker (isAuthorized_iff.mpr hauth) hvalue
  have hsender : row.senderIdentity = k.senderIdentity := by rw [hk]; rfl
  have hknown : row.senderIdentity ∈ d.users := by
    obtain ⟨cs, rfl⟩ := hadmitted.calls
    exact (grows_calls _ cs).1 (hsender ▸ hheard.known)
  refine ⟨k.event, _, heq, by rw [hk]; rfl, hsender ▸ hheard.sender, rfl, ?_, ?_⟩
  · simp [Hall.deletePendingSenderApproval]
  · intro policy recordDrop mg
    exact hadmitted.passes hknown policy recordDrop k.event mg (hsender ▸ sender_ne_empty hheard.sender)

/-! ### Where a membership comes from -/

/-- A row comes from a call that found the approver among those it asked. -/
theorem new_row (h : Sound s) {e : Act} {r : PendingSenderApproval} (hs : step s e = some s')
    (hold : r ∉ s.senderApprovals) (hnew : r ∈ s'.senderApprovals) :
    ∃ q ∈ s.requests, r.approverUserId ∈ q.approvers ∧ r = q.knock.row r.id r.approverUserId := by
  cases step_moved h hs with
  | @kept i q approver id adapter hq happrover =>
    rcases List.mem_append.mp hnew with hnew | hnew
    · exact absurd hnew hold
    · rw [List.mem_singleton.mp hnew]
      exact ⟨q, List.mem_of_getElem? hq, happrover, rfl⟩
  | called | heard | asked | ended | carded | unheeded | restarted => exact absurd hnew hold
  | cleared | declined | admitted => exact absurd (List.mem_filter.mp hnew).1 hold

/-- A call comes from a refused message, and asks those who may be asked then. -/
theorem new_request (h : Sound s) {e : Act} {q : Request} (hs : step s e = some s') (hold : q ∉ s.requests)
    (hnew : q ∈ s'.requests) :
    ∃ event mg g recordDrop sender, e = .receive event mg g .requestApproval recordDrop ∧
      extractAndUpsertUser event = .ok (some sender) ∧
      ((s.directory.upsertUser sender).permissions.canAccessAgentGroup sender g).allowed = false ∧
      q = ⟨⟨mg.id, g, sender, event⟩, s.directory.pickApprover (some g)⟩ := by
  cases step_moved h hs with
  | @asked event mg g recordDrop sender hsender hgroup hallowed =>
    rcases List.mem_append.mp hnew with hnew | hnew
    · exact absurd hnew hold
    · exact ⟨event, mg, g, recordDrop, sender, rfl, hsender, hallowed, List.mem_singleton.mp hnew⟩
  | called | heard | carded | cleared | unheeded | declined | admitted => exact absurd hnew hold
  | ended | kept => exact absurd (List.mem_of_mem_eraseIdx hnew) hold
  | restarted => cases hnew

/-- A pending row was made for a message of its sender that had been refused; its approver was to be asked then. -/
theorem row_origin {acts : List Act} {row : PendingSenderApproval} (h : Trans.run step empty acts = some s)
    (hrow : row ∈ s.senderApprovals) :
    ∃ before event mg recordDrop after s₀,
      acts = before ++ .receive event mg row.agentGroupId .requestApproval recordDrop :: after ∧
      Trans.run step empty before = some s₀ ∧ extractAndUpsertUser event = .ok (some row.senderIdentity) ∧
      ((s₀.directory.upsertUser row.senderIdentity).permissions.canAccessAgentGroup row.senderIdentity
        row.agentGroupId).allowed = false ∧
      row.originalMessage = some event ∧ row.approverUserId ∈ s₀.directory.pickApprover (some row.agentGroupId) := by
  -- the step that keeps the row, and before it the one that makes the call
  obtain ⟨acts₁, e₁, acts₂, s₁, s₂, rfl, hrun₁, hstep₁, hbefore₁, hafter₁⟩ :=
    Trans.exists_crossing (P := fun s => row ∈ s.senderApprovals) h List.not_mem_nil hrow
  obtain ⟨q, hq, happrover, hk⟩ := new_row (sound hrun₁) hstep₁ hbefore₁ hafter₁
  obtain ⟨acts₀, e₀, acts₁', s₀, s₁', rfl, hrun₀, hstep₀, hbefore₀, hafter₀⟩ :=
    Trans.exists_crossing (P := fun s => q ∈ s.requests) hrun₁ List.not_mem_nil hq
  obtain ⟨event, mg, g, recordDrop, sender, rfl, hsender, hallowed, rfl⟩ :=
    new_request (sound hrun₀) hstep₀ hbefore₀ hafter₀
  have hgroup : row.agentGroupId = g := by rw [hk]; rfl
  have huser : row.senderIdentity = sender := by rw [hk]; rfl
  rw [hgroup, huser]
  exact ⟨acts₀, event, mg, recordDrop, acts₁' ++ e₁ :: acts₂, s₀, by simp, hrun₀, hsender, hallowed, by rw [hk]; rfl,
    happrover⟩

/-- **Whoever a click admits has asked.** If a click makes somebody a member of a group, then before it a message of
theirs to the group has been refused, and whoever clicks was among those to be asked about the group then, or may
administer it now. The message is the one routed again. -/
theorem admitted_by {acts : List Act} {p : ResponsePayload} {others : ResponseDesk} {u g : String}
    (h : Trans.run step empty acts = some s) (hs : step s (.click p others) = some s')
    (hold : ⟨u, g⟩ ∉ s.directory.agentGroupMembers) (hnew : ⟨u, g⟩ ∈ s'.directory.agentGroupMembers) :
    ∃ clicker before event mg recordDrop after s₀, clickerId p = some clicker ∧
      acts = before ++ .receive event mg g .requestApproval recordDrop :: after ∧
      Trans.run step empty before = some s₀ ∧ extractAndUpsertUser event = .ok (some u) ∧
      ((s₀.directory.upsertUser u).permissions.canAccessAgentGroup u g).allowed = false ∧
      s'.replayed = s.replayed ++ [event] ∧
      (clicker ∈ s₀.directory.pickApprover (some g) ∨
        s.directory.permissions.hasAdminPrivilege clicker g = true) := by
  cases step_moved (sound h) hs with
  | unheeded => exact absurd hnew hold
  | declined => exact absurd hnew hold
  | @admitted _ _ row clicker k d _ hrow _ hclicker hauth hk hadmitted =>
    rcases (hadmitted.members _).mp hnew with hmember | hmember
    · exact absurd hmember hold
    · obtain ⟨rfl, rfl⟩ := AgentGroupMember.mk.inj hmember
      obtain ⟨before, event, mg, recordDrop, after, s₀, hacts, hrun, hsender, hallowed, hevent, happrover⟩ :=
        row_origin h hrow
      have hsame : k.event = event := by
        rw [hk] at hevent
        exact Option.some.inj hevent
      refine ⟨clicker, before, event, mg, recordDrop, after, s₀, hclicker, hacts, hrun, hsender, hallowed, ?_, ?_⟩
      · rw [hsame]
      · rcases isAuthorized_iff.mp hauth with rfl | hadmin
        · exact .inl happrover
        · exact .inr hadmin

/-- A boss, an agent, and a message of somebody unknown to it, whose card goes out. -/
def knocks : List Act :=
  [.call (.upsertUser "feishu:ou_boss"), .call (.createAgentGroup "1" none),
    .call (.grantRole "feishu:ou_boss" .owner .global none "2026-01-01"),
    .receive connectEvent ⟨"mg-9", "feishu", "feishu:oc_9", true, none⟩ "ag-1" .requestApproval (.ok ()),
    .addressed 0 (some ("feishu:ou_boss", "nsa-1")) true, .delivered 0 (.ok ())]

def approval : ResponsePayload := ⟨"nsa-1", "approve", some "ou_boss", "feishu", "", none⟩

/-- The boss admits the sender. -/
theorem admitted_by_sample : ∃ s s', Trans.run step empty knocks = some s ∧
    step s (.click approval connectDesk) = some s' ∧
    ∃ clicker before event mg recordDrop after s₀, clickerId approval = some clicker ∧
      knocks = before ++ .receive event mg "ag-1" .requestApproval recordDrop :: after ∧
      Trans.run step empty before = some s₀ ∧ extractAndUpsertUser event = .ok (some "feishu:ou_new") ∧
      ((s₀.directory.upsertUser "feishu:ou_new").permissions.canAccessAgentGroup "feishu:ou_new" "ag-1").allowed =
        false ∧
      s'.replayed = s.replayed ++ [event] ∧
      (clicker ∈ s₀.directory.pickApprover (some "ag-1") ∨
        s.directory.permissions.hasAdminPrivilege clicker "ag-1" = true) := by
  refine ⟨_, _, rfl, rfl, @admitted_by _ _ knocks approval connectDesk _ _ rfl rfl ?_ ?_⟩
  · decide
  · decide

/-! ### Rows nobody can answer -/

/-- The card of the row is out, or on its way. -/
def Hall.CanAnswer (s : Hall) (r : PendingSenderApproval) : Prop := r.id ∈ s.cards ++ s.delivering

def Answerable (s : Hall) : Prop := ∀ r ∈ s.senderApprovals, s.CanAnswer r

/-- No row is kept without an adapter to send its card, and no restart cuts off the card of a row. -/
def Carded (s : Hall) : Act → Prop
  | .addressed i target adapter => adapter = true ∨ ∀ q ∈ s.requests[i]?, ∀ t ∈ target,
      t.2 ∈ s.cards ++ s.delivering ∨ s.hasInFlight q.knock.messagingGroupId q.knock.senderIdentity = true
  | .restart arrived => ∀ r ∈ s.senderApprovals, r.id ∈ s.cards ∨ r.id ∈ s.delivering ∧ r.id ∈ arrived
  | _ => True

/-- Taking a card off the list takes only that. -/
theorem mem_eraseIdx {ids : List String} {i : ℕ} {id x : String} (hi : ids[i]? = some id) (hx : x ∈ ids) :
    x = id ∨ x ∈ ids.eraseIdx i := by
  obtain ⟨hlt, hget⟩ := List.getElem?_eq_some_iff.mp hi
  have hperm := List.getElem_cons_eraseIdx_perm hlt
  rw [hget] at hperm
  exact List.mem_cons.mp (hperm.mem_iff.mpr hx)

/-- Where every row can be answered, a step keeps that exactly when it is `Carded`. -/
theorem answerable_step (h : Sound s) (hall : Answerable s) {e : Act} (hs : step s e = some s') :
    Answerable s' ↔ Carded s e := by
  cases step_moved h hs with
  | called | heard | asked | unheeded => exact iff_of_true hall trivial
  | declined | admitted => exact iff_of_true (fun r hr => hall r (List.mem_filter.mp hr).1) trivial
  | @ended i q target adapter hq htaken =>
    refine iff_of_true hall (.inr fun q' hq' t ht => ?_)
    obtain rfl : q = q' := Option.some.inj (hq.symm.trans hq')
    refine (htaken t ht).imp_left fun hid => ?_
    obtain ⟨r, hr, heq⟩ := List.mem_map.mp hid
    exact heq ▸ hall r hr
  | @kept i q approver id adapter hq happrover hid hpair =>
    have hcarded : Carded s (.addressed i (some (approver, id)) adapter) ↔
        adapter = true ∨ id ∈ s.cards ++ s.delivering := by
      simp [Carded, hq, hpair]
    rw [hcarded]
    cases adapter with
    | true =>
      refine iff_of_true (fun r hr => ?_) (.inl rfl)
      show r.id ∈ s.cards ++ (s.delivering ++ [id])
      rw [← List.append_assoc]
      rcases List.mem_append.mp hr with hr | hr
      · exact List.mem_append_left _ (hall r hr)
      · rw [List.mem_singleton.mp hr]
        exact List.mem_append_right _ (.head _)
    | false =>
      show (∀ r ∈ s.senderApprovals ++ [q.knock.row id approver], r.id ∈ s.cards ++ s.delivering) ↔ _
      constructor
      · exact fun hnew => .inr (hnew _ (List.mem_append_right _ (.head _)))
      · rintro (hfalse | hcard) r hr
        · cases hfalse
        · rcases List.mem_append.mp hr with hr | hr
          · exact hall r hr
          · rw [List.mem_singleton.mp hr]
            exact hcard
  | carded hid =>
    refine iff_of_true (fun r hr => ?_) trivial
    rcases List.mem_append.mp (hall r hr) with hcard | hway
    · exact List.mem_append_left _ (List.mem_append_left _ hcard)
    · rcases mem_eraseIdx hid hway with rfl | hway
      · exact List.mem_append_left _ (List.mem_append_right _ (.head _))
      · exact List.mem_append_right _ hway
  | cleared hid =>
    refine iff_of_true (fun r hr => ?_) trivial
    obtain ⟨hr, hne⟩ := List.mem_filter.mp hr
    rcases List.mem_append.mp (hall r hr) with hcard | hway
    · exact List.mem_append_left _ hcard
    · rcases mem_eraseIdx hid hway with heq | hway
      · exact absurd heq (by simpa using hne)
      · exact List.mem_append_right _ hway
  | restarted arrived =>
    show (∀ r ∈ s.senderApprovals, r.id ∈ (s.cards ++ s.delivering.filter (· ∈ arrived)) ++ []) ↔
      ∀ r ∈ s.senderApprovals, r.id ∈ s.cards ∨ r.id ∈ s.delivering ∧ r.id ∈ arrived
    simp

/-- A row that cannot be answered stays, and stays so. -/
theorem shut_out_step (h : Sound s) {r : PendingSenderApproval} (hr : r ∈ s.senderApprovals) (hshut : ¬ s.CanAnswer r)
    {e : Act} (hs : step s e = some s') : r ∈ s'.senderApprovals ∧ ¬ s'.CanAnswer r := by
  unfold Hall.CanAnswer at hshut ⊢
  -- a card that is out or on its way is not the row's
  have hkeep : ∀ id, id ∈ s.cards ++ s.delivering → r ∈ s.senderApprovals.filter fun r => r.id ≠ id := by
    intro id hid
    refine List.mem_filter.mpr ⟨hr, ?_⟩
    simpa using fun heq : r.id = id => hshut (heq ▸ hid)
  have hsub : ∀ ids, ids ⊆ s.cards ++ s.delivering → r.id ∉ ids := fun ids hids hmem => hshut (hids hmem)
  cases step_moved h hs with
  | called | heard | asked | ended | unheeded => exact ⟨hr, hshut⟩
  | @kept i q approver id adapter hq happrover hid hpair =>
    have hne : r.id ≠ id := fun heq => hid (List.mem_map.mpr ⟨r, hr, heq⟩)
    refine ⟨List.mem_append_left _ hr, ?_⟩
    cases adapter with
    | true => simpa [hne] using hshut
    | false => exact hshut
  | @carded i id outcome hid =>
    have hmem : id ∈ s.delivering := List.mem_of_getElem? hid
    refine ⟨hr, hsub _ fun x hx => ?_⟩
    rcases List.mem_append.mp hx with hx | hx
    · rcases List.mem_append.mp hx with hx | hx
      · exact List.mem_append_left _ hx
      · exact List.mem_append_right _ (List.mem_singleton.mp hx ▸ hmem)
    · exact List.mem_append_right _ (List.mem_of_mem_eraseIdx hx)
  | @cleared i id outcome hid =>
    refine ⟨hkeep id (List.mem_append_right _ (List.mem_of_getElem? hid)), hsub _ fun x hx => ?_⟩
    exact List.mem_append.mpr ((List.mem_append.mp hx).imp_right List.mem_of_mem_eraseIdx)
  | declined hcard => exact ⟨hkeep _ hcard, hshut⟩
  | admitted hcard => exact ⟨hkeep _ hcard, hshut⟩
  | restarted arrived =>
    refine ⟨hr, hsub _ fun x hx => ?_⟩
    rw [List.append_nil] at hx
    exact List.mem_append.mpr ((List.mem_append.mp hx).imp_right fun hx => (List.mem_filter.mp hx).1)

/-- The row can be answered in no state of the run, and keeps its place. -/
def ShutOut (r : PendingSenderApproval) (s : Hall) : Prop :=
  r ∈ s.senderApprovals ∧ ¬ s.CanAnswer r ∧ ∀ r' ∈ s.senderApprovals,
    r'.messagingGroupId = r.messagingGroupId → r'.senderIdentity = r.senderIdentity → r' = r

/-- **Every sender who is waiting can be answered**, in every state, exactly when no row is kept without an adapter to
send its card and no restart cuts off the card of a row. Once a row cannot be answered, it cannot be answered whatever
happens, and its sender gets no other in the chat. -/
theorem answerable_iff {acts : List Act} (h : Trans.run step empty acts = some s) :
    (Trans.Always step Answerable empty acts ↔ Trans.Along step Carded empty acts) ∧
      ∀ r ∈ s.senderApprovals, ¬ s.CanAnswer r → ∀ later, Trans.Always step (ShutOut r) s later := by
  constructor
  · refine Trans.always_iff_along sound_step (fun s e s' hsound hall hs => answerable_step hsound hall hs)
      sound_empty ?_ h
    intro r hr
    cases hr
  · intro r hr hshut later
    have hstep : ∀ s e s', (Sound s ∧ r ∈ s.senderApprovals ∧ ¬ s.CanAnswer r) → step s e = some s' →
        Sound s' ∧ r ∈ s'.senderApprovals ∧ ¬ s'.CanAnswer r := by
      rintro s e s' ⟨hsound, hr, hshut⟩ hs
      exact ⟨sound_step s e s' hsound hs, shut_out_step hsound hr hshut hs⟩
    intro later₁ later₂ s' hlater hrun
    obtain ⟨hsound, hr', hshut'⟩ := Trans.always_of_inv hstep ⟨sound h, hr, hshut⟩ later₁ later₂ s' hlater hrun
    refine ⟨hr', hshut', fun r' hmem hchat hsender => ?_⟩
    exact List.inj_on_of_nodup_map hsound.pairs hmem hr' (by rw [hchat, hsender])

/-- The same without an adapter: the row is kept, and nobody hears of it. -/
def unheard : List Act :=
  [.call (.upsertUser "feishu:ou_boss"), .call (.createAgentGroup "1" none),
    .call (.grantRole "feishu:ou_boss" .owner .global none "2026-01-01"),
    .receive connectEvent ⟨"mg-9", "feishu", "feishu:oc_9", true, none⟩ "ag-1" .requestApproval (.ok ()),
    .addressed 0 (some ("feishu:ou_boss", "nsa-1")) false]

theorem answerable_iff_sample : ∃ s, Trans.run step empty unheard = some s ∧
    (Trans.Always step Answerable empty unheard ↔ Trans.Along step Carded empty unheard) ∧
      ∀ r ∈ s.senderApprovals, ¬ s.CanAnswer r → ∀ later, Trans.Always step (ShutOut r) s later :=
  ⟨_, rfl, answerable_iff rfl⟩

end AgentDesk.Admissions
