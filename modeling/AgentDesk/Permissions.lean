/-
# Roles, organisations and members

`src/modules/permissions`: who may administer an agent group and who may talk
to it. A role is global, of one agent group or of one organisation; an agent
group may belong to an organisation, and then a scoped role or a membership
counts only for somebody who is a member of that organisation too. Owners and
global admins stand above that.

`hasAdminPrivilege` decides who may act on an approval card,
`canAccessAgentGroup` who may route to a group. Whoever has the first and is a
known user has the second (`canAccess_of_admin`).

Key theorems: `canAccess_of_admin`.
-/
import Mathlib.Data.List.Basic

namespace AgentDesk

inductive UserRoleKind where
  | owner | admin | orgAdmin | operator | viewer
  deriving DecidableEq, Repr

/-- A row of `user_roles`: at most one of the two scopes is set. -/
structure RoleGrant where
  userId : String
  role : UserRoleKind
  agentGroupId : Option String
  organizationId : Option String
  deriving DecidableEq, Repr

/-- An agent group and the organisation it belongs to. -/
structure OwnedGroup where
  id : String
  organizationId : Option String
  deriving DecidableEq, Repr

structure OrganizationMember where
  organizationId : String
  userId : String
  deriving DecidableEq, Repr

structure AgentGroupMember where
  userId : String
  agentGroupId : String
  deriving DecidableEq, Repr

/-- The tables permissions are read from; `users` has the known ids. -/
structure Permissions where
  users : List String
  userRoles : List RoleGrant
  agentGroups : List OwnedGroup
  organizationMembers : List OrganizationMember
  agentGroupMembers : List AgentGroupMember

namespace Permissions

variable (t : Permissions) (userId agentGroupId : String)

/-- The user holds one of the roles at exactly this scope. -/
def holds (roles : List UserRoleKind) (group org : Option String) : Bool :=
  t.userRoles.any fun r => r.userId = userId && r.role ∈ roles && r.agentGroupId = group &&
    r.organizationId = org

def isOwner : Bool := t.holds userId [.owner] none none

def isGlobalAdmin : Bool := t.holds userId [.admin] none none

/-- The only lookup that does not look at the organisation column. -/
def isAdminOfAgentGroup : Bool :=
  t.userRoles.any fun r => r.userId = userId && r.role = .admin && r.agentGroupId = some agentGroupId

def orgOfAgentGroup : Option String :=
  (t.agentGroups.find? fun g => g.id = agentGroupId).bind (·.organizationId)

def isMemberOfOrg (organizationId : String) : Bool :=
  t.organizationMembers.any fun m => m.organizationId = organizationId && m.userId = userId

def isOrgAdmin (organizationId : String) : Bool := t.holds userId [.orgAdmin] none (some organizationId)

def hasGlobalOperabilityRole : Bool := t.holds userId [.operator, .viewer] none none

def hasScopedOperabilityRole : Bool :=
  t.userRoles.any fun r => r.userId = userId && r.role ∈ [UserRoleKind.operator, .viewer] &&
    r.agentGroupId = some agentGroupId

def hasOrgOperabilityRole (organizationId : String) : Bool :=
  t.holds userId [.operator, .viewer] none (some organizationId)

def isMember : Bool :=
  t.isOwner userId || t.isGlobalAdmin userId || t.isAdminOfAgentGroup userId agentGroupId ||
    t.agentGroupMembers.any fun m => m.userId = userId && m.agentGroupId = agentGroupId

/-- Any admin privilege over the group. A scoped or organisation admin must be a member of the
group's organisation. -/
def hasAdminPrivilege : Bool :=
  if t.isOwner userId || t.isGlobalAdmin userId then true
  else match t.orgOfAgentGroup agentGroupId with
    | some org =>
      if !t.isMemberOfOrg userId org then false
      else if t.isOrgAdmin userId org then true
      else t.isAdminOfAgentGroup userId agentGroupId
    | none => t.isAdminOfAgentGroup userId agentGroupId

inductive AccessDecision where
  | owner | globalAdmin | orgAdmin | adminOfGroup | member
  | unknownUser | notMember | operabilityOnly | crossOrgDenied
  deriving DecidableEq, Repr

def AccessDecision.allowed : AccessDecision → Bool
  | .owner | .globalAdmin | .orgAdmin | .adminOfGroup | .member => true
  | .unknownUser | .notMember | .operabilityOnly | .crossOrgDenied => false

/-- `canAccessAgentGroup` after the superusers and the organisation's prerequisite. -/
def accessWithin (org : Option String) : AccessDecision :=
  if org.any fun o => t.isOrgAdmin userId o then .orgAdmin
  else if t.isAdminOfAgentGroup userId agentGroupId then .adminOfGroup
  else if t.isMember userId agentGroupId then .member
  else if t.hasGlobalOperabilityRole userId || t.hasScopedOperabilityRole userId agentGroupId ||
      org.any fun o => t.hasOrgOperabilityRole userId o then .operabilityOnly
  else .notMember

/-- May the user route to the agent group? -/
def canAccessAgentGroup : AccessDecision :=
  if userId ∉ t.users then .unknownUser
  else if t.isOwner userId then .owner
  else if t.isGlobalAdmin userId then .globalAdmin
  else match t.orgOfAgentGroup agentGroupId with
    | some org =>
      if !t.isMemberOfOrg userId org then .crossOrgDenied
      else t.accessWithin userId agentGroupId (some org)
    | none => t.accessWithin userId agentGroupId none

variable {t userId agentGroupId}

/-- Administering a group implies routing to it. -/
theorem canAccess_of_admin (hknown : userId ∈ t.users) (h : t.hasAdminPrivilege userId agentGroupId = true) :
    (t.canAccessAgentGroup userId agentGroupId).allowed = true := by
  unfold canAccessAgentGroup
  rw [if_neg (not_not.mpr hknown)]
  by_cases howner : t.isOwner userId = true
  · rw [if_pos howner]
    rfl
  · rw [if_neg howner]
    by_cases hglobal : t.isGlobalAdmin userId = true
    · rw [if_pos hglobal]
      rfl
    · rw [if_neg hglobal]
      unfold hasAdminPrivilege at h
      rw [if_neg (by simp [howner, hglobal])] at h
      cases horg : t.orgOfAgentGroup agentGroupId with
      | none =>
        rw [horg] at h
        dsimp only at h ⊢
        simp [accessWithin, h, AccessDecision.allowed]
      | some org =>
        rw [horg] at h
        dsimp only at h ⊢
        by_cases hm : t.isMemberOfOrg userId org = true
        · rw [hm, Bool.not_true, if_neg Bool.false_ne_true] at h ⊢
          by_cases hadmin : t.isOrgAdmin userId org = true
          · simp [accessWithin, hadmin, AccessDecision.allowed]
          · rw [if_neg hadmin] at h
            simp [accessWithin, hadmin, h, AccessDecision.allowed]
        · rw [Bool.not_eq_true] at hm
          rw [hm] at h
          exact absurd h (by simp)

end Permissions

end AgentDesk
