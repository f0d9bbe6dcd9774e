/-
# Adopting a group into an organisation

`assignAgentGroupToOrg` puts a legacy agent group under an organisation. From then on the group is for
members of the organisation, so that the group's principals are enrolled: its members, those with a role in
it, and those with a global role.

Nobody is locked out. But being a member of the organisation is a prerequisite in its other groups too. A
principal of the adopted group who has a role or a membership in one of those, and was no member of the
organisation, could do nothing with it before and can after.

* `canAccess_iff`: who may route to a group.
* `assign_adopted`: what the assignment does to the tables.
* `adoption_safe`: nobody loses access, and who gains what.
* `inert_admin_revived`: an admin of a group of the organisation, who was not its member, is one again.
-/
import AgentDesk.Organizations

namespace AgentDesk

open Js

/-! ### Who may route to a group -/

namespace Permissions

variable {t : Permissions} {userId agentGroupId : String}

theorem accessWithin_allowed {org : Option String} : (t.accessWithin userId agentGroupId org).allowed = true ↔
    (∃ o, org = some o ∧ t.isOrgAdmin userId o = true) ∨ t.isMember userId agentGroupId = true := by
  have hadmin : t.isAdminOfAgentGroup userId agentGroupId = true → t.isMember userId agentGroupId = true := by
    intro h
    simp [isMember, h]
  have horg : (org.any fun o => t.isOrgAdmin userId o) = true ↔ ∃ o, org = some o ∧ t.isOrgAdmin userId o = true := by
    cases org <;> simp
  unfold accessWithin
  rw [← horg]
  split
  · rename_i h
    simp [h, AccessDecision.allowed]
  · rename_i h
    rw [or_iff_right h]
    split
    · rename_i hscoped
      simp [hadmin hscoped, AccessDecision.allowed]
    · split
      · rename_i hmember
        simp [hmember, AccessDecision.allowed]
      · rename_i hmember
        split <;> simp [hmember, AccessDecision.allowed]

/-- Routing to a group is for owners and global admins, and within its organisation for the organisation's
admins and the group's own members. -/
theorem canAccess_iff : (t.canAccessAgentGroup userId agentGroupId).allowed = true ↔
    userId ∈ t.users ∧ ((t.isOwner userId = true ∨ t.isGlobalAdmin userId = true) ∨
      (∀ org, t.orgOfAgentGroup agentGroupId = some org → t.isMemberOfOrg userId org = true) ∧
        ((∃ org, t.orgOfAgentGroup agentGroupId = some org ∧ t.isOrgAdmin userId org = true) ∨
          t.isMember userId agentGroupId = true)) := by
  unfold canAccessAgentGroup
  by_cases hknown : userId ∈ t.users
  · rw [if_neg (not_not.mpr hknown), and_iff_right hknown]
    by_cases howner : t.isOwner userId = true
    · simp [howner, AccessDecision.allowed]
    · rw [if_neg howner]
      by_cases hglobal : t.isGlobalAdmin userId = true
      · simp [hglobal, AccessDecision.allowed]
      · rw [if_neg hglobal, or_iff_right (by simp [howner, hglobal])]
        cases t.orgOfAgentGroup agentGroupId with
        | none => simp [accessWithin_allowed]
        | some org =>
          dsimp only
          by_cases hmember : t.isMemberOfOrg userId org = true
          · simp [hmember, accessWithin_allowed]
          · simp [hmember, AccessDecision.allowed]
  · rw [if_pos hknown]
    simp [hknown, AccessDecision.allowed]

end Permissions

/-- The user can do something with the group that it could not do before. -/
def Gains (before after : Permissions) (userId agentGroupId : String) : Prop :=
  ((before.canAccessAgentGroup userId agentGroupId).allowed = false ∧
      (after.canAccessAgentGroup userId agentGroupId).allowed = true) ∨
    (before.hasAdminPrivilege userId agentGroupId = false ∧ after.hasAdminPrivilege userId agentGroupId = true)

namespace Directory

/-! ### Known users -/

/-- The foreign keys to `users`. -/
structure UsersKnown (d : Directory) : Prop where
  roles : ∀ r ∈ d.userRoles, r.userId ∈ d.users
  members : ∀ m ∈ d.agentGroupMembers, m.userId ∈ d.users

variable {d d' : Directory} {agentGroupId organizationId userId : String} {actor : Option String}

theorem addOrgMember_cases (d : Directory) (organizationId userId : String) (addedBy : Option String) :
    (∃ e, d.addOrgMember organizationId userId addedBy = (d, .error e)) ∨
      ∃ members, d.addOrgMember organizationId userId addedBy = ({ d with organizationMembers := members }, .ok ()) ∧
        ∀ m, m ∈ members ↔ m ∈ d.organizationMembers ∨ m = ⟨organizationId, userId⟩ := by
  unfold addOrgMember
  split
  · rename_i hmem
    refine .inr ⟨d.organizationMembers, rfl, fun m => ⟨.inl, ?_⟩⟩
    rintro (hm | rfl)
    · exact hm
    · exact hmem
  · split
    · exact .inr ⟨_, rfl, fun m => by simp⟩
    · exact .inl ⟨_, rfl⟩

theorem enroll_frame (ids : List String) :
    ∃ members, (d.enroll organizationId actor ids).1 = { d with organizationMembers := members } := by
  induction ids generalizing d with
  | nil => exact ⟨d.organizationMembers, rfl⟩
  | cons id ids ih =>
    unfold enroll
    rcases addOrgMember_cases d organizationId id actor with ⟨e, he⟩ | ⟨members, hok, -⟩
    · rw [he]
      exact ⟨d.organizationMembers, rfl⟩
    · rw [hok]
      exact ih

theorem assign_frame (stop : Option ℕ) :
    (d.assignAgentGroupToOrg agentGroupId organizationId actor stop).1.users = d.users ∧
      (d.assignAgentGroupToOrg agentGroupId organizationId actor stop).1.agentGroupMembers = d.agentGroupMembers := by
  unfold assignAgentGroupToOrg
  by_cases hgroup : agentGroupId ∈ d.agentGroups.map (·.id)
  · by_cases horg : organizationId ∈ d.organizations
    · rw [if_pos hgroup, dif_pos horg]
      dsimp only
      obtain ⟨members, hmembers⟩ := @enroll_frame (d.setOrganization agentGroupId organizationId horg)
        organizationId actor (stop.elim
          ((d.setOrganization agentGroupId organizationId horg).principals agentGroupId)
          ((d.setOrganization agentGroupId organizationId horg).principals agentGroupId).take)
      rw [hmembers]
      exact ⟨rfl, rfl⟩
    · rw [if_pos hgroup, dif_neg horg]
      exact ⟨rfl, rfl⟩
  · rw [if_neg hgroup]
    dsimp only
    obtain ⟨members, hmembers⟩ := @enroll_frame d organizationId actor
      (stop.elim (d.principals agentGroupId) (d.principals agentGroupId).take)
    rw [hmembers]
    exact ⟨rfl, rfl⟩

/-- The rows of a user that was known stay those of a known user. -/
theorem UsersKnown.of_subset (h : d.UsersKnown) (husers : d.users ⊆ d'.users)
    (hroles : d'.userRoles ⊆ d.userRoles) (hmembers : d'.agentGroupMembers ⊆ d.agentGroupMembers) :
    d'.UsersKnown :=
  ⟨fun r hr => husers (h.roles r (hroles hr)), fun m hm => husers (h.members m (hmembers hm))⟩

theorem UsersKnown.of_eq (h : d.UsersKnown) (husers : d'.users = d.users) (hroles : d'.userRoles = d.userRoles)
    (hmembers : d'.agentGroupMembers = d.agentGroupMembers) : d'.UsersKnown := by
  refine ⟨fun r hr => ?_, fun m hm => ?_⟩
  · rw [hroles] at hr
    rw [husers]
    exact h.roles r hr
  · rw [hmembers] at hm
    rw [husers]
    exact h.members m hm

theorem usersKnown_call (h : d.UsersKnown) (c : DirectoryCall) : (d.call c).UsersKnown := by
  cases c with
  | upsertUser id =>
    show (d.upsertUser id).UsersKnown
    unfold upsertUser
    split
    · exact h
    · exact h.of_subset (List.subset_append_left _ _) (List.Subset.refl _) (List.Subset.refl _)
  | createOrganization slug =>
    show (d.createOrganization slug).1.UsersKnown
    unfold createOrganization
    split
    · exact h
    · exact h.of_eq rfl rfl rfl
  | createAgentGroup suffix org =>
    show (d.createAgentGroup suffix org).1.UsersKnown
    unfold createAgentGroup
    split
    · exact h
    · split
      · exact h.of_eq rfl rfl rfl
      · exact h
  | grantRole u role scope grantedBy grantedAt =>
    show (d.grantRole u role scope grantedBy grantedAt).1.UsersKnown
    unfold grantRole
    dsimp only
    split
    · exact h
    · split
      · exact h
      · split
        · rename_i hrow
          refine ⟨fun r hr => ?_, h.members⟩
          rcases List.mem_append.mp hr with hr | hr
          · exact h.roles r hr
          · rw [List.mem_singleton.mp hr]
            exact hrow.1
        · exact h
  | revokeRole u role scope =>
    exact h.of_subset (List.Subset.refl _) (List.filter_subset_self _) (List.Subset.refl _)
  | addMember u g addedBy =>
    show (d.addMember u g addedBy).1.UsersKnown
    unfold addMember
    split
    · exact h
    · split
      · rename_i hrow
        refine ⟨h.roles, fun m hm => ?_⟩
        rcases List.mem_append.mp hm with hm | hm
        · exact h.members m hm
        · rw [List.mem_singleton.mp hm]
          exact hrow.1
      · exact h
  | removeMember u g =>
    exact h.of_subset (List.Subset.refl _) (List.Subset.refl _) (List.filter_subset_self _)
  | addOrgMember org u addedBy =>
    show (d.addOrgMember org u addedBy).1.UsersKnown
    rcases addOrgMember_cases d org u addedBy with ⟨e, he⟩ | ⟨members, hok, -⟩
    · rw [he]
      exact h
    · rw [hok]
      exact h.of_eq rfl rfl rfl
  | removeOrgMember org u => exact h.of_eq rfl rfl rfl
  | assignAgentGroupToOrg g org actor stop =>
    obtain ⟨husers, hmembers⟩ := @assign_frame d g org actor stop
    exact h.of_eq husers (assignAgentGroupToOrg_userRoles org actor stop) hmembers

/-- The tables of every reachable state have them. -/
theorem usersKnown_calls (h : d.UsersKnown) (cs : List DirectoryCall) : (d.calls cs).UsersKnown := by
  induction cs generalizing d with
  | nil => exact h
  | cons c cs ih => exact ih (usersKnown_call h c)

theorem usersKnown_empty : empty.UsersKnown := ⟨by simp [empty], by simp [empty]⟩

/-! ### The assignment -/

theorem mem_principals : userId ∈ d.principals agentGroupId ↔
    ((∃ m ∈ d.agentGroupMembers, m.agentGroupId = agentGroupId ∧ m.userId = userId) ∨
      ∃ r ∈ d.userRoles, r.agentGroupId = some agentGroupId ∧ r.userId = userId) ∨
        ∃ r ∈ d.userRoles, (r.agentGroupId = none ∧ r.organizationId = none) ∧ r.userId = userId := by
  unfold principals
  dsimp only
  rw [mem_insertAll]
  simp [and_assoc, or_assoc]

theorem principals_known (h : d.UsersKnown) (hu : userId ∈ d.principals agentGroupId) : userId ∈ d.users := by
  rcases mem_principals.mp hu with (⟨m, hm, -, rfl⟩ | ⟨r, hr, -, rfl⟩) | ⟨r, hr, -, rfl⟩
  · exact h.members m hm
  · exact h.roles r hr
  · exact h.roles r hr

/-- Known users are enrolled one after the other. -/
theorem enroll_ok {ids : List String} (horg : organizationId ∈ d.organizations) (hactor : ∀ u ∈ actor, u ∈ d.users)
    (hids : ∀ u ∈ ids, u ∈ d.users) :
    ∃ members, d.enroll organizationId actor ids = ({ d with organizationMembers := members }, .ok ()) ∧
      ∀ m, m ∈ members ↔ m ∈ d.organizationMembers ∨ (m.organizationId = organizationId ∧ m.userId ∈ ids) := by
  induction ids generalizing d with
  | nil => exact ⟨d.organizationMembers, rfl, by simp⟩
  | cons id ids ih =>
    unfold enroll
    rcases addOrgMember_cases d organizationId id actor with ⟨e, he⟩ | ⟨members, hok, hmembers⟩
    · unfold addOrgMember at he
      rw [if_pos (And.intro horg ⟨hids id (.head _), hactor⟩)] at he
      split at he
      · cases congrArg Prod.snd he
      · cases congrArg Prod.snd he
    · rw [hok]
      obtain ⟨members', hrest, hmembers'⟩ := ih (d := { d with organizationMembers := members }) horg hactor
        fun u hu => hids u (.tail _ hu)
      refine ⟨members', hrest, fun m => ?_⟩
      rw [hmembers', hmembers, List.mem_cons]
      constructor
      · rintro ((hm | rfl) | ⟨ho, hu⟩)
        · exact .inl hm
        · exact .inr ⟨rfl, .inl rfl⟩
        · exact .inr ⟨ho, .inr hu⟩
      · rintro (hm | ⟨ho, rfl | hu⟩)
        · exact .inl (.inl hm)
        · exact .inl (.inr (by rw [← ho]))
        · exact .inr ⟨ho, hu⟩

theorem orgOf_setOrganization (horg : organizationId ∈ d.organizations)
    (hgroup : agentGroupId ∈ d.agentGroups.map (·.id)) (g : String) :
    (d.setOrganization agentGroupId organizationId horg).permissions.orgOfAgentGroup g =
      if g = agentGroupId then some organizationId else d.permissions.orgOfAgentGroup g := by
  show ((d.agentGroups.map fun g => if g.id = agentGroupId then { g with organizationId := some organizationId }
    else g).find? fun row => row.id = g).bind (·.organizationId) = _
  have hid : ((fun row : OwnedGroup => decide (row.id = g)) ∘ fun g : OwnedGroup =>
      if g.id = agentGroupId then { g with organizationId := some organizationId } else g) =
      fun row => decide (row.id = g) := by
    funext row
    simp only [Function.comp_apply]
    split <;> rfl
  rw [List.find?_map, hid]
  by_cases hg : g = agentGroupId
  · subst hg
    rw [if_pos rfl]
    cases hfind : d.agentGroups.find? fun row => row.id = g with
    | none =>
      obtain ⟨row, hrow, hrowid⟩ := List.mem_map.mp hgroup
      exact absurd hrowid (by simpa using List.find?_eq_none.mp hfind row hrow)
    | some row =>
      have hrowid : row.id = g := by simpa using List.find?_some hfind
      simp [hrowid]
  · rw [if_neg hg]
    unfold Permissions.orgOfAgentGroup
    show _ = (d.agentGroups.find? fun row => row.id = g).bind (·.organizationId)
    cases hfind : d.agentGroups.find? fun row => row.id = g with
    | none => rfl
    | some row =>
      have hrowid : row.id = g := by simpa using List.find?_some hfind
      simp [hrowid, hg]

/-- What the assignment does: the group is the organisation's, and its principals are members of that. -/
structure Adopted (d d' : Directory) (agentGroupId organizationId : String) : Prop where
  users : d'.users = d.users
  roles : d'.userRoles = d.userRoles
  members : d'.agentGroupMembers = d.agentGroupMembers
  orgOf : ∀ g, d'.permissions.orgOfAgentGroup g =
    if g = agentGroupId then some organizationId else d.permissions.orgOfAgentGroup g
  enrolled : ∀ u org, d'.permissions.isMemberOfOrg u org = true ↔
    d.permissions.isMemberOfOrg u org = true ∨ (org = organizationId ∧ u ∈ d.principals agentGroupId)

/-- The assignment of a group to an organisation comes to its end. -/
theorem assign_adopted (h : d.UsersKnown) (hgroup : agentGroupId ∈ d.agentGroups.map (·.id))
    (horg : organizationId ∈ d.organizations) (hactor : ∀ u ∈ actor, u ∈ d.users) :
    ∃ d', (∃ n, d.assignAgentGroupToOrg agentGroupId organizationId actor none = (d', .ok n)) ∧
      Adopted d d' agentGroupId organizationId := by
  have hknown : ∀ u ∈ d.principals agentGroupId, u ∈ d.users := fun u hu => principals_known h hu
  obtain ⟨members, hok, hmembers⟩ := @enroll_ok (d.setOrganization agentGroupId organizationId horg)
    organizationId actor (d.principals agentGroupId) horg hactor hknown
  refine ⟨{ d.setOrganization agentGroupId organizationId horg with organizationMembers := members },
    ?_, ?_⟩
  · unfold assignAgentGroupToOrg
    rw [if_pos hgroup, dif_pos horg]
    dsimp only
    rw [Option.elim_none]
    have hsame : (d.setOrganization agentGroupId organizationId horg).principals agentGroupId =
        d.principals agentGroupId := rfl
    rw [hsame, hok]
    exact ⟨_, rfl⟩
  · refine ⟨rfl, rfl, rfl, orgOf_setOrganization horg hgroup, fun u org => ?_⟩
    show (members.any fun m => m.organizationId = org && m.userId = u) = true ↔
      (d.organizationMembers.any fun m => m.organizationId = org && m.userId = u) = true ∨ _
    simp only [List.any_eq_true, Bool.and_eq_true, decide_eq_true_eq, hmembers]
    constructor
    · rintro ⟨m, hm | ⟨ho, hu⟩, rfl, rfl⟩
      · exact .inl ⟨m, hm, rfl, rfl⟩
      · exact .inr ⟨ho, hu⟩
    · rintro (⟨m, hm, rfl, rfl⟩ | ⟨rfl, hu⟩)
      · exact ⟨m, .inl hm, rfl, rfl⟩
      · exact ⟨⟨org, u⟩, .inr ⟨rfl, hu⟩, rfl, rfl⟩

/-! ### Before and after -/

theorem principal_of_member (h : d.permissions.isMember userId agentGroupId = true) :
    userId ∈ d.principals agentGroupId := by
  rw [mem_principals]
  unfold Permissions.isMember at h
  simp only [Bool.or_eq_true] at h
  rcases h with ((howner | hglobal) | hadmin) | hmember
  · obtain ⟨r, hr, hgrant⟩ := isOwner_iff.mp howner
    obtain ⟨hu, -, hg, ho⟩ := isGrant_iff.mp hgrant
    exact .inr ⟨r, hr, ⟨hg, ho⟩, hu⟩
  · obtain ⟨r, hr, hgrant⟩ := isGlobalAdmin_iff.mp hglobal
    obtain ⟨hu, -, hg, ho⟩ := isGrant_iff.mp hgrant
    exact .inr ⟨r, hr, ⟨hg, ho⟩, hu⟩
  · obtain ⟨r, hr, hgrant⟩ := isAdminOfAgentGroup_iff.mp hadmin
    obtain ⟨hu, -, hg, -⟩ := isGrant_iff.mp hgrant
    exact .inl (.inr ⟨r, hr, hg, hu⟩)
  · obtain ⟨m, hm, hrow⟩ := List.any_eq_true.mp hmember
    simp only [Bool.and_eq_true, decide_eq_true_eq] at hrow
    exact .inl (.inl ⟨m, hm, hrow.2, hrow.1⟩)

namespace Adopted

variable (h : Adopted d d' agentGroupId organizationId)
include h

theorem permissions_roles : d'.permissions.userRoles = d.permissions.userRoles :=
  congrArg (List.map UserRoleRow.toRoleGrant) h.roles

theorem permissions_members : d'.permissions.agentGroupMembers = d.permissions.agentGroupMembers := h.members

/-- The roles and the memberships of groups are what they were. -/
theorem standing (u g o : String) : d'.permissions.isOwner u = d.permissions.isOwner u ∧
    d'.permissions.isGlobalAdmin u = d.permissions.isGlobalAdmin u ∧
    d'.permissions.isOrgAdmin u o = d.permissions.isOrgAdmin u o ∧
    d'.permissions.isAdminOfAgentGroup u g = d.permissions.isAdminOfAgentGroup u g ∧
    d'.permissions.isMember u g = d.permissions.isMember u g := by
  unfold Permissions.isMember Permissions.isOwner Permissions.isGlobalAdmin Permissions.isOrgAdmin
    Permissions.isAdminOfAgentGroup Permissions.holds
  rw [h.permissions_roles, h.permissions_members]
  exact ⟨rfl, rfl, rfl, rfl, rfl⟩

theorem orgOf_self : d'.permissions.orgOfAgentGroup agentGroupId = some organizationId := by
  rw [h.orgOf, if_pos rfl]

theorem orgOf_other {g : String} (hg : g ≠ agentGroupId) :
    d'.permissions.orgOfAgentGroup g = d.permissions.orgOfAgentGroup g := by
  rw [h.orgOf, if_neg hg]

/-- Nobody is locked out. -/
theorem access_kept (hlegacy : d.permissions.orgOfAgentGroup agentGroupId = none) {u g : String}
    (hu : (d.permissions.canAccessAgentGroup u g).allowed = true) :
    (d'.permissions.canAccessAgentGroup u g).allowed = true := by
  obtain ⟨howner, hglobal, -, -, hmember⟩ := h.standing u g organizationId
  rw [Permissions.canAccess_iff] at hu ⊢
  rw [howner, hglobal, hmember]
  obtain ⟨hknown, hu⟩ := hu
  have hknown' : u ∈ d'.users := by rwa [h.users]
  refine ⟨hknown', hu.imp_right fun ⟨hprereq, hstands⟩ => ?_⟩
  by_cases hg : g = agentGroupId
  · -- without an organisation, only the group's members had access: they have been enrolled
    subst hg
    have hgroup : d.permissions.isMember u g = true := by
      rcases hstands with ⟨o, ho, -⟩ | hgroup
      · rw [hlegacy] at ho
        cases ho
      · exact hgroup
    refine ⟨fun o ho => ?_, .inr hgroup⟩
    rw [h.orgOf_self] at ho
    exact (h.enrolled u o).mpr (.inr ⟨(Option.some.inj ho).symm, principal_of_member hgroup⟩)
  · rw [h.orgOf_other hg]
    refine ⟨fun o ho => (h.enrolled u o).mpr (.inl (hprereq o ho)), ?_⟩
    rcases hstands with ⟨o, ho, hadmin⟩ | hgroup
    · obtain ⟨-, -, horgAdmin, -, -⟩ := h.standing u g o
      exact .inl ⟨o, ho, horgAdmin.trans hadmin⟩
    · exact .inr hgroup

end Adopted

/-- A principal of the adopted group, who was no member of the organisation, is a member or an admin of another
group of the organisation. -/
structure Revived (d : Directory) (agentGroupId organizationId userId group : String) : Prop where
  other : group ≠ agentGroupId
  org : d.permissions.orgOfAgentGroup group = some organizationId
  outsider : d.permissions.isMemberOfOrg userId organizationId = false
  principal : userId ∈ d.principals agentGroupId
  standing : d.permissions.isMember userId group = true

/-- Before and after, what counts is the organisation's prerequisite, and next to the admins of the organisation
a standing in the group itself, which stays. -/
theorem Adopted.gains_cases (h : Adopted d d' agentGroupId organizationId) {u g : String}
    (hu : Gains d.permissions d'.permissions u g) :
    ∃ S : Prop, (S → d.permissions.isMember u g = true) ∧
      (∀ o, d'.permissions.orgOfAgentGroup g = some o → d'.permissions.isMemberOfOrg u o = true) ∧
      (S ∨ ∃ o, d'.permissions.orgOfAgentGroup g = some o ∧ d.permissions.isOrgAdmin u o = true) ∧
      ¬ ((∀ o, d.permissions.orgOfAgentGroup g = some o → d.permissions.isMemberOfOrg u o = true) ∧
        (S ∨ ∃ o, d.permissions.orgOfAgentGroup g = some o ∧ d.permissions.isOrgAdmin u o = true)) := by
  have horgAdmin : ∀ o, d'.permissions.isOrgAdmin u o = d.permissions.isOrgAdmin u o :=
    fun o => (h.standing u g o).2.2.1
  obtain ⟨howner, hglobal, -, hadmin, hmember⟩ := h.standing u g organizationId
  rcases hu with ⟨hbefore, hafter⟩ | ⟨hbefore, hafter⟩
  · rw [← Bool.not_eq_true, Permissions.canAccess_iff] at hbefore
    rw [Permissions.canAccess_iff, howner, hglobal, hmember] at hafter
    simp only [horgAdmin] at hafter
    obtain ⟨hknown, hafter⟩ := hafter
    have hknown' : u ∈ d.permissions.users := by
      show u ∈ d.users
      rw [← h.users]
      exact hknown
    rw [and_iff_right hknown', not_or] at hbefore
    obtain ⟨hsuper, hbefore⟩ := hbefore
    obtain ⟨hprereq, hstands⟩ := hafter.resolve_left hsuper
    rw [or_comm] at hstands
    refine ⟨_, id, hprereq, hstands, fun ⟨hp, hs⟩ => hbefore ⟨hp, ?_⟩⟩
    rwa [or_comm]
  · rw [← Bool.not_eq_true, Permissions.hasAdminPrivilege_iff, not_or] at hbefore
    rw [Permissions.hasAdminPrivilege_iff, howner, hglobal, hadmin] at hafter
    simp only [horgAdmin] at hafter
    obtain ⟨hprereq, hstands⟩ := hafter.resolve_left hbefore.1
    refine ⟨_, fun hs => ?_, hprereq, hstands, hbefore.2⟩
    simp [Permissions.isMember, hs]

/-- Whoever gains on a group is an admin of the organisation, or has a standing in the group that was inert. -/
theorem Adopted.gains (h : Adopted d d' agentGroupId organizationId)
    (hlegacy : d.permissions.orgOfAgentGroup agentGroupId = none) {u g : String}
    (hu : Gains d.permissions d'.permissions u g) :
    d.permissions.isOrgAdmin u organizationId = true ∨ d.Revived agentGroupId organizationId u g := by
  obtain ⟨S, hgroup, hprereq, hstands, hbefore⟩ := h.gains_cases hu
  by_cases hg : g = agentGroupId
  · -- the adopted group had no prerequisite: a standing in it counted before
    subst hg
    left
    rcases hstands with hs | ⟨o, ho, hadmin⟩
    · refine absurd ⟨fun o ho => ?_, .inl hs⟩ hbefore
      rw [hlegacy] at ho
      cases ho
    · rw [h.orgOf_self] at ho
      rwa [← Option.some.inj ho] at hadmin
  · -- another group: only the prerequisite can have changed
    rw [h.orgOf_other hg] at hprereq hstands
    rw [and_iff_left hstands] at hbefore
    push Not at hbefore
    obtain ⟨o, ho, houtside⟩ := hbefore
    obtain ⟨rfl, hprincipal⟩ := ((h.enrolled u o).mp (hprereq o ho)).resolve_left houtside
    rcases hstands with hs | ⟨o', ho', hadmin⟩
    · exact .inr ⟨hg, ho, by simpa using houtside, hprincipal, hgroup hs⟩
    · rw [ho] at ho'
      rw [← Option.some.inj ho'] at hadmin
      exact .inl hadmin

/-- **Adopting a group is safe, for the group.** A legacy group is assigned to an organisation, by nobody or by
a known user. The call comes to its end; whoever had access to a group has it still; and whoever gains access
or admin privilege over a group is an admin of the organisation, or is a principal of the adopted group whose
standing in another group of the organisation was inert. -/
theorem adoption_safe (h : d.UsersKnown) (hgroup : agentGroupId ∈ d.agentGroups.map (·.id))
    (hlegacy : d.permissions.orgOfAgentGroup agentGroupId = none) (horg : organizationId ∈ d.organizations)
    (hactor : ∀ u ∈ actor, u ∈ d.users) :
    ∃ d', (∃ n, d.assignAgentGroupToOrg agentGroupId organizationId actor none = (d', .ok n)) ∧
      (∀ u g, (d.permissions.canAccessAgentGroup u g).allowed = true →
        (d'.permissions.canAccessAgentGroup u g).allowed = true) ∧
      ∀ u g, Gains d.permissions d'.permissions u g →
        d.permissions.isOrgAdmin u organizationId = true ∨ d.Revived agentGroupId organizationId u g := by
  obtain ⟨d', hcall, hadopted⟩ := assign_adopted h hgroup horg hactor
  exact ⟨d', hcall, fun u g => hadopted.access_kept hlegacy, fun u g => hadopted.gains hlegacy⟩

/-- Bob was given the admin role of a group of an organisation that he is no member of, and is a member of a
legacy group. -/
def legacyCalls : List DirectoryCall :=
  [.createOrganization "acme", .createAgentGroup "1" (some "org-acme"), .createAgentGroup "old" none,
    .upsertUser "bob", .grantRole "bob" .admin (.group "ag-1") none "2026-01-01", .addMember "bob" "ag-old" none]

theorem adoption_safe_sample : ∃ d',
    (∃ n, (empty.calls legacyCalls).assignAgentGroupToOrg "ag-old" "org-acme" none none = (d', .ok n)) ∧
      (d'.permissions.canAccessAgentGroup "bob" "ag-old").allowed = true ∧
      ¬ Gains (empty.calls legacyCalls).permissions d'.permissions "bob" "ag-old" := by
  have hknown : (empty.calls legacyCalls).UsersKnown := usersKnown_calls usersKnown_empty legacyCalls
  obtain ⟨d', hcall, hkept, hgains⟩ := @adoption_safe (empty.calls legacyCalls) "ag-old"
    "org-acme" none hknown (by decide) (by decide) (by decide) (by simp)
  refine ⟨d', hcall, hkept "bob" "ag-old" (by decide), fun hgain => ?_⟩
  rcases hgains "bob" "ag-old" hgain with hadmin | hrevived
  · revert hadmin
    decide
  · exact hrevived.other rfl

/-- The legacy group is adopted, and Bob, who is no admin of the organisation, administers its other group. -/
theorem inert_admin_revived :
    (empty.calls legacyCalls).permissions.orgOfAgentGroup "ag-old" = none ∧
      (empty.calls legacyCalls).permissions.hasAdminPrivilege "bob" "ag-1" = false ∧
      ((empty.calls legacyCalls).assignAgentGroupToOrg "ag-old" "org-acme" none none).2.toOption = some 1 ∧
      ((empty.calls legacyCalls).assignAgentGroupToOrg "ag-old" "org-acme" none none).1.permissions.hasAdminPrivilege
        "bob" "ag-1" = true ∧
      (empty.calls legacyCalls).permissions.isOrgAdmin "bob" "org-acme" = false := by
  decide

end Directory

end AgentDesk
