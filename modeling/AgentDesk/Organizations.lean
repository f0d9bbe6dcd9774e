/-
# The boundary of an organisation

`src/modules/permissions`: roles are granted and revoked at a scope, users
become members of agent groups and of organisations, and an agent group is
assigned to an organisation. Five functions decide by these tables: who may
route to a group, who may administer it, who may operate it, and the two gates
of the router. Each has the boundary written out anew: a group of an
organisation is for its members, and for owners and global admins.

* `grants_grantRole`, `grants_revokeRole`: the rows are a set of grants, each of
  one role at one scope; granting adds one and revoking takes that one.
* `role_held_iff`: after any calls, a role is held from its grant to its own revocation.
* `outsider_refused`: every function refuses an outsider.
* `organization_boundary`: after any calls, an outsider is refused, and whoever
  may administer a group may route to it and operate it.

A `Directory` is the tables with what the schema and the creating functions
promise of them, so that a call cannot leave them otherwise. Rows of the audit
table are left out.
-/
import Mathlib.Data.Set.Basic
import AgentDesk.Permissions
import AgentDesk.Router

namespace AgentDesk

open Js

/-! ### The tables -/

inductive RoleScope where
  | global
  | group (agentGroupId : String)
  | org (organizationId : String)
  deriving DecidableEq, Repr

namespace RoleScope

/-- The two scope columns; at most one is set. -/
def agentGroupId : RoleScope → Option String
  | .group g => some g
  | _ => none

def organizationId : RoleScope → Option String
  | .org o => some o
  | _ => none

theorem eq_of_columns {s s' : RoleScope} (hg : s.agentGroupId = s'.agentGroupId)
    (ho : s.organizationId = s'.organizationId) : s = s' := by
  cases s <;> cases s' <;> simp_all [agentGroupId, organizationId]

end RoleScope

/-- A row of `user_roles`. -/
structure UserRoleRow extends RoleGrant where
  grantedBy : Option String
  grantedAt : String
  deriving DecidableEq, Repr

/-- Why a role cannot have the scope. -/
def scopeError : UserRoleKind → RoleScope → Option String
  | .owner, .global => none
  | .owner, _ => some "owner role must be global"
  | .orgAdmin, .org _ => none
  | .orgAdmin, _ => some "'org-admin' role must be org-scoped"
  | .admin, .org _ => some "admin role cannot be org-scoped — use the 'org-admin' role"
  | _, _ => none

/-- The columns are those of a scope that the role may have. -/
def RoleGrant.WellScoped (r : RoleGrant) : Prop :=
  ∃ scope, scopeError r.role scope = none ∧ r.agentGroupId = scope.agentGroupId ∧
    r.organizationId = scope.organizationId

/-- The tables, with their foreign keys and with ids that are never empty: an agent group's is `ag-…`, an
organisation's `org-…`. -/
structure Directory where
  users : List String
  organizations : List String
  agentGroups : List OwnedGroup
  userRoles : List UserRoleRow
  organizationMembers : List OrganizationMember
  agentGroupMembers : List AgentGroupMember
  wellScoped : ∀ r ∈ userRoles, r.toRoleGrant.WellScoped
  roleGroups : ∀ r ∈ userRoles, ∀ g, r.agentGroupId = some g → g ∈ agentGroups.map (·.id)
  groupOrgs : ∀ g ∈ agentGroups, ∀ o, g.organizationId = some o → o ∈ organizations
  groupsNamed : "" ∉ agentGroups.map (·.id)
  organizationsNamed : "" ∉ organizations

namespace Directory

/-- The tables the decisions read. -/
def permissions (d : Directory) : Permissions :=
  { users := d.users, userRoles := d.userRoles.map (·.toRoleGrant), agentGroups := d.agentGroups
    organizationMembers := d.organizationMembers, agentGroupMembers := d.agentGroupMembers }

/-- A new installation. -/
def empty : Directory :=
  { users := [], organizations := [], agentGroups := [], userRoles := [], organizationMembers := []
    agentGroupMembers := [], wellScoped := by simp, roleGroups := by simp, groupOrgs := by simp
    groupsNamed := by simp, organizationsNamed := by simp }

/-! ### Calls -/

def upsertUser (d : Directory) (id : String) : Directory :=
  if id ∈ d.users then d else { d with users := d.users ++ [id] }

/-- The script makes the id of the slug. -/
def createOrganization (d : Directory) (slug : String) : Directory × Except String Unit :=
  if "org-" ++ slug ∈ d.organizations then (d, .error "UNIQUE constraint failed: organizations.id")
  else
    ({ d with
        organizations := d.organizations ++ ["org-" ++ slug]
        groupOrgs := fun g hg o ho => List.mem_append_left _ (d.groupOrgs g hg o ho)
        organizationsNamed := by
          have hne : "org-" ++ slug ≠ "" := by simp [← String.toList_inj]
          simp [d.organizationsNamed, hne.symm] }, .ok ())

def createAgentGroup (d : Directory) (suffix : String) (organizationId : Option String) :
    Directory × Except String Unit :=
  if "ag-" ++ suffix ∈ d.agentGroups.map (·.id) then (d, .error "UNIQUE constraint failed: agent_groups.id")
  else if horg : ∀ o, organizationId = some o → o ∈ d.organizations then
    ({ d with
        agentGroups := d.agentGroups ++ [⟨"ag-" ++ suffix, organizationId⟩]
        roleGroups := fun r hr g hg => by
          rw [List.map_append]
          exact List.mem_append_left _ (d.roleGroups r hr g hg)
        groupOrgs := fun g hg o ho => by
          rcases List.mem_append.mp hg with hg | hg
          · exact d.groupOrgs g hg o ho
          · rw [List.mem_singleton.mp hg] at ho
            exact horg o ho
        groupsNamed := by
          have hne : "ag-" ++ suffix ≠ "" := by simp [← String.toList_inj]
          rw [List.map_append]
          simpa [hne.symm] using d.groupsNamed }, .ok ())
  else (d, .error "FOREIGN KEY constraint failed")

/-- The row has its group, its organisation, its user and its granter. -/
def Admits (d : Directory) (r : UserRoleRow) : Prop :=
  r.userId ∈ d.users ∧ (∀ g ∈ r.agentGroupId, g ∈ d.agentGroups.map (·.id)) ∧
    (∀ o ∈ r.organizationId, o ∈ d.organizations) ∧ ∀ u ∈ r.grantedBy, u ∈ d.users

instance (d : Directory) (r : UserRoleRow) : Decidable (d.Admits r) := by
  unfold Admits
  infer_instance

/-- The primary key, in which an unset group is never equal to another, or the index on organisation roles. -/
def taken (d : Directory) (r : UserRoleRow) : Bool :=
  d.userRoles.any fun s => s.userId = r.userId && s.role = r.role &&
    (r.agentGroupId.isSome && s.agentGroupId = r.agentGroupId ||
      r.agentGroupId.isNone && r.organizationId.isSome && s.agentGroupId.isNone &&
        s.organizationId = r.organizationId)

def grantRole (d : Directory) (userId : String) (role : UserRoleKind) (scope : RoleScope)
    (grantedBy : Option String) (grantedAt : String) : Directory × Except String Unit :=
  let row : UserRoleRow := ⟨⟨userId, role, scope.agentGroupId, scope.organizationId⟩, grantedBy, grantedAt⟩
  match hscope : scopeError role scope with
  | some e => (d, .error e)
  | none =>
    if d.taken row then (d, .error "UNIQUE constraint failed: user_roles")
    else if hrow : d.Admits row then
      ({ d with
          userRoles := d.userRoles ++ [row]
          wellScoped := fun r hr => by
            rcases List.mem_append.mp hr with hr | hr
            · exact d.wellScoped r hr
            · rw [List.mem_singleton.mp hr]
              exact ⟨scope, hscope, rfl, rfl⟩
          roleGroups := fun r hr g hg => by
            rcases List.mem_append.mp hr with hr | hr
            · exact d.roleGroups r hr g hg
            · rw [List.mem_singleton.mp hr] at hg
              exact hrow.2.1 g hg }, .ok ())
    else (d, .error "FOREIGN KEY constraint failed")

/-- The row is the user's role at exactly this scope. -/
def isGrant (userId : String) (role : UserRoleKind) (scope : RoleScope) (r : UserRoleRow) : Bool :=
  r.userId = userId && r.role = role && r.agentGroupId = scope.agentGroupId &&
    r.organizationId = scope.organizationId

def revokeRole (d : Directory) (userId : String) (role : UserRoleKind) (scope : RoleScope) : Directory :=
  { d with
    userRoles := d.userRoles.filter fun r => !isGrant userId role scope r
    wellScoped := fun r hr => d.wellScoped r (List.mem_filter.mp hr).1
    roleGroups := fun r hr => d.roleGroups r (List.mem_filter.mp hr).1 }

/-- `INSERT OR IGNORE`, which does not ignore a foreign key. -/
def addMember (d : Directory) (userId agentGroupId : String) (addedBy : Option String) :
    Directory × Except String Unit :=
  if ⟨userId, agentGroupId⟩ ∈ d.agentGroupMembers then (d, .ok ())
  else if userId ∈ d.users ∧ agentGroupId ∈ d.agentGroups.map (·.id) ∧ ∀ u ∈ addedBy, u ∈ d.users then
    ({ d with agentGroupMembers := d.agentGroupMembers ++ [⟨userId, agentGroupId⟩] }, .ok ())
  else (d, .error "FOREIGN KEY constraint failed")

def removeMember (d : Directory) (userId agentGroupId : String) : Directory :=
  { d with agentGroupMembers := d.agentGroupMembers.filter fun m => m ≠ ⟨userId, agentGroupId⟩ }

def addOrgMember (d : Directory) (organizationId userId : String) (addedBy : Option String) :
    Directory × Except String Unit :=
  if ⟨organizationId, userId⟩ ∈ d.organizationMembers then (d, .ok ())
  else if organizationId ∈ d.organizations ∧ userId ∈ d.users ∧ ∀ u ∈ addedBy, u ∈ d.users then
    ({ d with organizationMembers := d.organizationMembers ++ [⟨organizationId, userId⟩] }, .ok ())
  else (d, .error "FOREIGN KEY constraint failed")

def removeOrgMember (d : Directory) (organizationId userId : String) : Directory :=
  { d with organizationMembers := d.organizationMembers.filter fun m => m ≠ ⟨organizationId, userId⟩ }

/-- The members of the group, those with a role in it, and those with a global role, each once. -/
def principals (d : Directory) (agentGroupId : String) : List String :=
  let members := (d.agentGroupMembers.filter fun m => m.agentGroupId = agentGroupId).map (·.userId)
  let holders := (d.userRoles.filter fun r => r.agentGroupId = some agentGroupId).map (·.userId)
  let globals := (d.userRoles.filter fun r => r.agentGroupId = none && r.organizationId = none).map (·.userId)
  insertAll [] (members ++ holders ++ globals)

/-- Enrol one after the other, up to the first that throws. -/
def enroll (d : Directory) (organizationId : String) (actor : Option String) :
    List String → Directory × Except String Unit
  | [] => (d, .ok ())
  | userId :: rest => match d.addOrgMember organizationId userId actor with
    | (d', .ok _) => d'.enroll organizationId actor rest
    | (d', .error e) => (d', .error e)

def setOrganization (d : Directory) (agentGroupId organizationId : String) (h : organizationId ∈ d.organizations) :
    Directory :=
  have hids : (d.agentGroups.map fun g => if g.id = agentGroupId then { g with organizationId } else g).map
      (·.id) = d.agentGroups.map (·.id) := by
    rw [List.map_map]
    exact List.map_congr_left fun g _ => by
      simp only [Function.comp_apply]
      split <;> rfl
  { d with
    agentGroups := d.agentGroups.map fun g => if g.id = agentGroupId then { g with organizationId } else g
    roleGroups := fun r hr g hg => hids ▸ d.roleGroups r hr g hg
    groupOrgs := fun g hg o ho => by
      obtain ⟨g₀, hg₀, rfl⟩ := List.mem_map.mp hg
      split at ho
      · rw [← Option.some.inj ho]
        exact h
      · exact d.groupOrgs g₀ hg₀ o ho
    groupsNamed := hids ▸ d.groupsNamed }

/-- Move the group and enrol its principals: one statement after the other, of which the host may make
only the first `stop`. It returns how many were new. -/
def assignAgentGroupToOrg (d : Directory) (agentGroupId organizationId : String) (actor : Option String)
    (stop : Option ℕ) : Directory × Except String ℕ :=
  let moved : Directory × Except String Unit :=
    if agentGroupId ∈ d.agentGroups.map (·.id) then
      if h : organizationId ∈ d.organizations then (d.setOrganization agentGroupId organizationId h, .ok ())
      else (d, .error "FOREIGN KEY constraint failed")
    else (d, .ok ())
  match moved.2 with
  | .error e => (moved.1, .error e)
  | .ok _ =>
    let principals := moved.1.principals agentGroupId
    let enrolled := moved.1.enroll organizationId actor (stop.elim principals principals.take)
    let count := fun d : Directory => (d.organizationMembers.filter fun m => m.organizationId = organizationId).length
    (enrolled.1, enrolled.2.bind fun _ =>
      if stop.isSome then .error "stopped" else .ok (count enrolled.1 - count moved.1))

end Directory

inductive DirectoryCall where
  | upsertUser (id : String)
  | createOrganization (slug : String)
  | createAgentGroup (suffix : String) (organizationId : Option String)
  | grantRole (userId : String) (role : UserRoleKind) (scope : RoleScope) (grantedBy : Option String)
      (grantedAt : String)
  | revokeRole (userId : String) (role : UserRoleKind) (scope : RoleScope)
  | addMember (userId agentGroupId : String) (addedBy : Option String)
  | removeMember (userId agentGroupId : String)
  | addOrgMember (organizationId userId : String) (addedBy : Option String)
  | removeOrgMember (organizationId userId : String)
  | assignAgentGroupToOrg (agentGroupId organizationId : String) (actor : Option String) (stop : Option ℕ)

/-- A call; one that throws may have written. -/
def Directory.call (d : Directory) : DirectoryCall → Directory
  | .upsertUser id => d.upsertUser id
  | .createOrganization slug => (d.createOrganization slug).1
  | .createAgentGroup suffix org => (d.createAgentGroup suffix org).1
  | .grantRole u role scope grantedBy grantedAt => (d.grantRole u role scope grantedBy grantedAt).1
  | .revokeRole u role scope => d.revokeRole u role scope
  | .addMember u g addedBy => (d.addMember u g addedBy).1
  | .removeMember u g => d.removeMember u g
  | .addOrgMember org u addedBy => (d.addOrgMember org u addedBy).1
  | .removeOrgMember org u => d.removeOrgMember org u
  | .assignAgentGroupToOrg g org actor stop => (d.assignAgentGroupToOrg g org actor stop).1

def Directory.calls (d : Directory) (cs : List DirectoryCall) : Directory := cs.foldl Directory.call d

/-! ### Grants -/

namespace Directory

variable {d : Directory} {userId agentGroupId : String} {role : UserRoleKind} {scope : RoleScope}

/-- Who holds which role at which scope. -/
def grants (d : Directory) : Set (String × UserRoleKind × RoleScope) :=
  { x | ∃ r ∈ d.userRoles, isGrant x.1 x.2.1 x.2.2 r = true }

theorem isGrant_iff {r : UserRoleRow} : isGrant userId role scope r = true ↔
    r.userId = userId ∧ r.role = role ∧ r.agentGroupId = scope.agentGroupId ∧
      r.organizationId = scope.organizationId := by
  simp [isGrant, and_assoc]

theorem isGrant_unique {r : UserRoleRow} {userId' : String} {role' : UserRoleKind} {scope' : RoleScope}
    (h : isGrant userId role scope r = true) (h' : isGrant userId' role' scope' r = true) :
    (userId, role, scope) = (userId', role', scope') := by
  obtain ⟨hu, hr, hg, ho⟩ := isGrant_iff.mp h
  obtain ⟨hu', hr', hg', ho'⟩ := isGrant_iff.mp h'
  rw [← hu, ← hr, RoleScope.eq_of_columns (hg.symm.trans hg') (ho.symm.trans ho'), hu', hr']

/-- A grant that does not throw adds the one grant. -/
theorem grants_grantRole {grantedBy : Option String} {grantedAt : String}
    (h : (d.grantRole userId role scope grantedBy grantedAt).2 = .ok ()) :
    (d.grantRole userId role scope grantedBy grantedAt).1.grants = insert (userId, role, scope) d.grants := by
  unfold grantRole at h ⊢
  dsimp only at h ⊢
  split at h
  · cases h
  · split at h
    · cases h
    · split at h
      · rename_i hscope htaken hrow
        rw [if_neg htaken, dif_pos hrow]
        ext x
        have hnew : isGrant userId role scope
            ⟨⟨userId, role, scope.agentGroupId, scope.organizationId⟩, grantedBy, grantedAt⟩ = true :=
          isGrant_iff.mpr ⟨rfl, rfl, rfl, rfl⟩
        simp only [grants, Set.mem_ofPred_eq, Set.mem_insert_iff, List.mem_append, List.mem_singleton]
        constructor
        · rintro ⟨r, hr | rfl, hx⟩
          · exact .inr ⟨r, hr, hx⟩
          · exact .inl (isGrant_unique hx hnew)
        · rintro (rfl | ⟨r, hr, hx⟩)
          · exact ⟨_, .inr rfl, hnew⟩
          · exact ⟨r, .inl hr, hx⟩
      · cases h

/-- Revoking at a scope takes the one grant, and none at another scope. -/
theorem grants_revokeRole : (d.revokeRole userId role scope).grants = d.grants \ {(userId, role, scope)} := by
  ext x
  simp only [grants, revokeRole, Set.mem_ofPred_eq, Set.mem_sdiff, Set.mem_singleton_iff, List.mem_filter,
    Bool.not_eq_true']
  constructor
  · rintro ⟨r, ⟨hr, hne⟩, hx⟩
    refine ⟨⟨r, hr, hx⟩, ?_⟩
    rintro rfl
    rw [hx] at hne
    cases hne
  · rintro ⟨⟨r, hr, hx⟩, hne⟩
    refine ⟨r, ⟨hr, ?_⟩, hx⟩
    by_contra h
    exact hne (isGrant_unique hx (by simpa using h))

theorem addOrgMember_userRoles (d : Directory) (org : String) (userId : String) (addedBy : Option String) :
    (d.addOrgMember org userId addedBy).1.userRoles = d.userRoles := by
  unfold addOrgMember
  split
  · rfl
  · split <;> rfl

theorem enroll_userRoles (org : String) (actor : Option String) (ids : List String) :
    (d.enroll org actor ids).1.userRoles = d.userRoles := by
  induction ids generalizing d with
  | nil => rfl
  | cons id ids ih =>
    have hadd := addOrgMember_userRoles d org id actor
    unfold enroll
    split
    · rename_i d' u hcall
      rw [ih]
      rwa [hcall] at hadd
    · rename_i d' e hcall
      rwa [hcall] at hadd

theorem assignAgentGroupToOrg_userRoles (org : String) (actor : Option String) (stop : Option ℕ) :
    (d.assignAgentGroupToOrg agentGroupId org actor stop).1.userRoles = d.userRoles := by
  unfold assignAgentGroupToOrg
  by_cases hgroup : agentGroupId ∈ d.agentGroups.map (·.id)
  · by_cases horg : org ∈ d.organizations
    · rw [if_pos hgroup, dif_pos horg]
      exact enroll_userRoles org actor _
    · rw [if_pos hgroup, dif_neg horg]
  · rw [if_neg hgroup]
    exact enroll_userRoles org actor _

theorem call_userRoles {c : DirectoryCall} (hgrant : ∀ u k s b a, c ≠ .grantRole u k s b a)
    (hrevoke : ∀ u k s, c ≠ .revokeRole u k s) : (d.call c).userRoles = d.userRoles := by
  cases c with
  | grantRole u k s b a => exact absurd rfl (hgrant u k s b a)
  | revokeRole u k s => exact absurd rfl (hrevoke u k s)
  | assignAgentGroupToOrg g org actor stop => exact assignAgentGroupToOrg_userRoles org actor stop
  | addOrgMember org u addedBy => exact addOrgMember_userRoles d org u addedBy
  | removeMember u g => rfl
  | removeOrgMember org u => rfl
  | upsertUser id =>
    show (d.upsertUser id).userRoles = d.userRoles
    unfold upsertUser
    split <;> rfl
  | createOrganization slug =>
    show (d.createOrganization slug).1.userRoles = d.userRoles
    unfold createOrganization
    split <;> rfl
  | createAgentGroup suffix org =>
    show (d.createAgentGroup suffix org).1.userRoles = d.userRoles
    unfold createAgentGroup
    split
    · rfl
    · split <;> rfl
  | addMember u g addedBy =>
    show (d.addMember u g addedBy).1.userRoles = d.userRoles
    unfold addMember
    split
    · rfl
    · split <;> rfl

theorem grantRole_error {grantedBy : Option String} {grantedAt e : String}
    (h : (d.grantRole userId role scope grantedBy grantedAt).2 = .error e) :
    (d.grantRole userId role scope grantedBy grantedAt).1 = d := by
  unfold grantRole at h ⊢
  dsimp only at h ⊢
  split at h
  · rfl
  · split at h
    · rename_i htaken
      rw [if_pos htaken]
    · split at h
      · cases h
      · rename_i htaken hrow
        rw [if_neg htaken, dif_neg hrow]

/-- One call: it grants, or what is granted stays unless it is what the call revokes. -/
theorem mem_grants_call {c : DirectoryCall} : (userId, role, scope) ∈ (d.call c).grants ↔
    (∃ grantedBy grantedAt, c = .grantRole userId role scope grantedBy grantedAt ∧
      (d.grantRole userId role scope grantedBy grantedAt).2 = .ok ()) ∨
    (userId, role, scope) ∈ d.grants ∧ c ≠ .revokeRole userId role scope := by
  by_cases hg : ∃ u k s b a, c = .grantRole u k s b a
  · obtain ⟨u, k, s, b, a, rfl⟩ := hg
    show (userId, role, scope) ∈ (d.grantRole u k s b a).1.grants ↔ _
    cases hres : (d.grantRole u k s b a).2 with
    | ok _ =>
      rw [grants_grantRole hres, Set.mem_insert_iff]
      constructor
      · rintro (heq | hold)
        · obtain ⟨rfl, rfl, rfl⟩ : userId = u ∧ role = k ∧ scope = s := by simpa using heq
          exact .inl ⟨b, a, rfl, hres⟩
        · exact .inr ⟨hold, by simp⟩
      · rintro (⟨b', a', heq, -⟩ | ⟨hold, -⟩)
        · obtain ⟨rfl, rfl, rfl, -, -⟩ := DirectoryCall.grantRole.inj heq
          exact .inl rfl
        · exact .inr hold
    | error e =>
      rw [grantRole_error hres]
      constructor
      · exact fun hold => .inr ⟨hold, by simp⟩
      · rintro (⟨b', a', heq, hok⟩ | ⟨hold, -⟩)
        · obtain ⟨rfl, rfl, rfl, rfl, rfl⟩ := DirectoryCall.grantRole.inj heq
          rw [hok] at hres
          cases hres
        · exact hold
  · have hnot : ¬ ∃ grantedBy grantedAt, c = .grantRole userId role scope grantedBy grantedAt ∧
        (d.grantRole userId role scope grantedBy grantedAt).2 = .ok () :=
      fun ⟨b, a, heq, _⟩ => hg ⟨_, _, _, b, a, heq⟩
    rw [or_iff_right hnot]
    by_cases hr : ∃ u k s, c = .revokeRole u k s
    · obtain ⟨u, k, s, rfl⟩ := hr
      show (userId, role, scope) ∈ (d.revokeRole u k s).grants ↔ _
      rw [grants_revokeRole, Set.mem_sdiff, Set.mem_singleton_iff]
      refine and_congr_right fun _ => not_congr ?_
      simp [eq_comm]
    · have hroles : (d.call c).userRoles = d.userRoles := by
        refine call_userRoles (fun u k s b a he => hg ⟨u, k, s, b, a, he⟩) ?_
        exact fun u k s he => hr ⟨u, k, s, he⟩
      unfold grants
      rw [hroles]
      exact (and_iff_left fun heq => hr ⟨_, _, _, heq⟩).symm

/-- Any calls: what is held was granted by one of them or before, and not revoked since. -/
theorem mem_grants_calls (d : Directory) (cs : List DirectoryCall) : (userId, role, scope) ∈ (d.calls cs).grants ↔
    (∃ before grantedBy grantedAt after, cs = before ++ .grantRole userId role scope grantedBy grantedAt :: after ∧
      ((d.calls before).grantRole userId role scope grantedBy grantedAt).2 = .ok () ∧
      .revokeRole userId role scope ∉ after) ∨
    (userId, role, scope) ∈ d.grants ∧ .revokeRole userId role scope ∉ cs := by
  induction cs generalizing d with
  | nil =>
    constructor
    · exact fun h => .inr ⟨h, List.not_mem_nil⟩
    · rintro (⟨before, _, _, _, heq, -⟩ | ⟨h, -⟩)
      · exact absurd heq.symm (List.append_ne_nil_of_right_ne_nil before (List.cons_ne_nil _ _))
      · exact h
  | cons c cs ih =>
    show _ ∈ ((d.call c).calls cs).grants ↔ _
    rw [ih, mem_grants_call]
    constructor
    · rintro (⟨before, b, a, after, rfl, hok, hafter⟩ | ⟨⟨b, a, rfl, hok⟩ | ⟨hold, hne⟩, hcs⟩)
      · exact .inl ⟨c :: before, b, a, after, rfl, hok, hafter⟩
      · exact .inl ⟨[], b, a, cs, rfl, hok, hcs⟩
      · exact .inr ⟨hold, List.not_mem_cons_of_ne_of_not_mem (Ne.symm hne) hcs⟩
    · rintro (⟨before, b, a, after, heq, hok, hafter⟩ | ⟨hold, hcs⟩)
      · cases before with
        | nil =>
          obtain ⟨rfl, rfl⟩ := List.cons.inj heq
          exact .inr ⟨.inl ⟨b, a, rfl, hok⟩, hafter⟩
        | cons c' before =>
          obtain ⟨rfl, rfl⟩ := List.cons.inj heq
          exact .inl ⟨before, b, a, after, rfl, hok, hafter⟩
      · obtain ⟨hne, hcs⟩ := List.ne_and_not_mem_of_not_mem_cons hcs
        exact .inr ⟨.inr ⟨hold, hne.symm⟩, hcs⟩

theorem holds_iff (d : Directory) (userId : String) (roles : List UserRoleKind) (scope : RoleScope) :
    d.permissions.holds userId roles scope.agentGroupId scope.organizationId = true ↔
      ∃ role ∈ roles, (userId, role, scope) ∈ d.grants := by
  simp only [Permissions.holds, permissions, List.any_map, List.any_eq_true, Function.comp_apply,
    Bool.and_eq_true, decide_eq_true_eq, grants, Set.mem_ofPred_eq, isGrant_iff]
  constructor
  · rintro ⟨r, hr, ⟨⟨hu, hk⟩, hg⟩, ho⟩
    exact ⟨r.role, hk, r, hr, hu, rfl, hg, ho⟩
  · rintro ⟨k, hk, r, hr, hu, rfl, hg, ho⟩
    exact ⟨r, hr, ⟨⟨hu, hk⟩, hg⟩, ho⟩

/-- **A role is held from its grant to its revocation.** After any calls the lookups find a user's role at a scope
exactly when a call has granted it, without throwing, or it was there before, and none since has revoked it at this
scope. -/
theorem role_held_iff (d : Directory) (cs : List DirectoryCall) (userId : String) (role : UserRoleKind)
    (scope : RoleScope) :
    (d.calls cs).permissions.holds userId [role] scope.agentGroupId scope.organizationId = true ↔
      (∃ before grantedBy grantedAt after, cs = before ++ .grantRole userId role scope grantedBy grantedAt :: after ∧
        ((d.calls before).grantRole userId role scope grantedBy grantedAt).2 = .ok () ∧
        .revokeRole userId role scope ∉ after) ∨
      d.permissions.holds userId [role] scope.agentGroupId scope.organizationId = true ∧
        .revokeRole userId role scope ∉ cs := by
  have hone : ∀ d : Directory, d.permissions.holds userId [role] scope.agentGroupId scope.organizationId = true ↔
      (userId, role, scope) ∈ d.grants := by
    intro d
    simpa using d.holds_iff userId [role] scope
  rw [hone, hone]
  exact mem_grants_calls d cs

theorem isOwner_iff : d.permissions.isOwner userId = true ↔ (userId, .owner, .global) ∈ d.grants := by
  have h := d.holds_iff userId [.owner] .global
  simp only [List.mem_singleton, exists_eq_left] at h
  exact h

theorem isGlobalAdmin_iff : d.permissions.isGlobalAdmin userId = true ↔ (userId, .admin, .global) ∈ d.grants := by
  have h := d.holds_iff userId [.admin] .global
  simp only [List.mem_singleton, exists_eq_left] at h
  exact h

theorem isOrgAdmin_iff {org : String} :
    d.permissions.isOrgAdmin userId org = true ↔ (userId, .orgAdmin, .org org) ∈ d.grants := by
  have h := d.holds_iff userId [.orgAdmin] (.org org)
  simp only [List.mem_singleton, exists_eq_left] at h
  exact h

theorem isAdminOfAgentGroup_iff : d.permissions.isAdminOfAgentGroup userId agentGroupId = true ↔
    (userId, .admin, .group agentGroupId) ∈ d.grants := by
  simp only [Permissions.isAdminOfAgentGroup, permissions, List.any_map, List.any_eq_true, Function.comp_apply,
    Bool.and_eq_true, decide_eq_true_eq, grants, Set.mem_ofPred_eq, isGrant_iff]
  constructor
  · rintro ⟨r, hr, ⟨hu, hk⟩, hg⟩
    obtain ⟨scope, -, hscope, ho⟩ := d.wellScoped r hr
    cases scope with
    | group g => exact ⟨r, hr, hu, hk, hg, ho⟩
    | global => cases hscope.symm.trans hg
    | org o => cases hscope.symm.trans hg
  · rintro ⟨r, hr, hu, hk, hg, -⟩
    exact ⟨r, hr, ⟨hu, hk⟩, hg⟩

end Directory

/-! ### Decisions -/

namespace Permissions

variable (t : Permissions) (userId agentGroupId : String)

/-- May the user operate the fleet, or the group? -/
def canOperate (agentGroupId : Option String) : Bool :=
  if userId ∉ t.users then false
  else if t.isOwner userId || t.isGlobalAdmin userId || t.hasGlobalOperabilityRole userId then true
  else if truthy agentGroupId then
    let group := agentGroupId.getD ""
    match t.orgOfAgentGroup group with
    | some org =>
      if !t.isMemberOfOrg userId org then false
      else if t.isAdminOfAgentGroup userId group || t.hasScopedOperabilityRole userId group then true
      else t.isOrgAdmin userId org || t.hasOrgOperabilityRole userId org
    | none => t.isAdminOfAgentGroup userId group || t.hasScopedOperabilityRole userId group
  else false

/-- Is a public channel's sender within the organisation? -/
def publicIngressAllowed (userId : Option String) (agentGroupId : String) : Bool :=
  match t.orgOfAgentGroup agentGroupId with
  | none => true
  | some org =>
    if !truthy userId then false
    else
      let user := userId.getD ""
      t.isMemberOfOrg user org || t.isOwner user || t.isGlobalAdmin user

end Permissions

def Permissions.AccessDecision.reason : Permissions.AccessDecision → String
  | .owner => "owner"
  | .globalAdmin => "global_admin"
  | .orgAdmin => "org_admin"
  | .adminOfGroup => "admin_of_group"
  | .member => "member"
  | .unknownUser => "unknown_user"
  | .notMember => "not_member"
  | .operabilityOnly => "operability_only"
  | .crossOrgDenied => "cross_org_denied"

inductive UnknownSenderPolicy where
  | strict | requestApproval | isPublic
  deriving DecidableEq, Repr

def UnknownSenderPolicy.text : UnknownSenderPolicy → String
  | .strict => "strict"
  | .requestApproval => "request_approval"
  | .isPublic => "public"

inductive SenderScope where
  | all | known
  deriving DecidableEq, Repr

structure AccessGateResult where
  allowed : Bool
  reason : Option String

/-- What the access gate has done to a sender it refuses. -/
inductive UnknownSenderEffect where
  | recordDroppedMessage (userId : Option String) (senderName : Option Json) (reason messagingGroupId : String)
      (agentGroupId : String)
  | requestSenderApproval (messagingGroupId agentGroupId senderIdentity : String) (senderName : Option Json)

/-- A refused sender is recorded and, where the policy asks for it, put to an approver. -/
def handleUnknownSender (policy : UnknownSenderPolicy) (mg : MessagingGroup) (userId : Option String)
    (agentGroupId : String) (event : InboundEvent) (recordDrop : Except String Unit) :
    List UnknownSenderEffect × Except String Unit :=
  match event.field "sender" with
  | .error e => ([], .error e)
  | .ok senderName =>
    let drop := UnknownSenderEffect.recordDroppedMessage userId senderName s!"unknown_sender_{policy.text}" mg.id
      agentGroupId
    match policy, recordDrop with
    | .isPublic, _ => ([], .ok ())
    | _, .error e => ([], .error e)
    | .strict, .ok _ => ([drop], .ok ())
    | .requestApproval, .ok _ =>
      ([drop] ++ (if truthy userId then
          [.requestSenderApproval mg.id agentGroupId (userId.getD "") senderName] else []), .ok ())

/-- The gate of a chat. -/
def accessGate (t : Permissions) (policy : UnknownSenderPolicy) (recordDrop : Except String Unit)
    (event : InboundEvent) (userId : Option String) (mg : MessagingGroup) (agentGroupId : String) :
    List UnknownSenderEffect × Except String AccessGateResult :=
  let refused := fun (userId : Option String) (reason : String) =>
    let handled := handleUnknownSender policy mg userId agentGroupId event recordDrop
    (handled.1, handled.2.map fun _ => AccessGateResult.mk false (some reason))
  if policy = .isPublic then
    if t.publicIngressAllowed userId agentGroupId then ([], .ok ⟨true, none⟩)
    else ([], .ok ⟨false, some "cross_org_public"⟩)
  else if !truthy userId then refused none "unknown_user"
  else
    let decision := t.canAccessAgentGroup (userId.getD "") agentGroupId
    if decision.allowed then ([], .ok ⟨true, none⟩) else refused userId decision.reason

/-- The gate of a wiring. -/
def senderScopeGate (t : Permissions) (senderScope : SenderScope) (userId : Option String) (agentGroupId : String) :
    AccessGateResult :=
  match senderScope with
  | .all =>
    if t.publicIngressAllowed userId agentGroupId then ⟨true, none⟩ else ⟨false, some "cross_org_scope_all"⟩
  | .known =>
    if !truthy userId then ⟨false, some "unknown_user_scope"⟩
    else
      let decision := t.canAccessAgentGroup (userId.getD "") agentGroupId
      if decision.allowed then ⟨true, none⟩ else ⟨false, some s!"sender_scope_{decision.reason}"⟩

/-! ### The boundary -/

namespace Permissions

variable {t : Permissions} {userId agentGroupId : String}

/-- Administering a group is for owners and global admins, and within its organisation for its own admins
and the organisation's. -/
theorem hasAdminPrivilege_iff : t.hasAdminPrivilege userId agentGroupId = true ↔
    (t.isOwner userId = true ∨ t.isGlobalAdmin userId = true) ∨
      (∀ org, t.orgOfAgentGroup agentGroupId = some org → t.isMemberOfOrg userId org = true) ∧
        (t.isAdminOfAgentGroup userId agentGroupId = true ∨
          ∃ org, t.orgOfAgentGroup agentGroupId = some org ∧ t.isOrgAdmin userId org = true) := by
  unfold hasAdminPrivilege
  by_cases hsuper : t.isOwner userId = true ∨ t.isGlobalAdmin userId = true
  · simp [hsuper]
  · rw [if_neg (by simpa using hsuper), or_iff_right hsuper]
    cases t.orgOfAgentGroup agentGroupId with
    | none => simp
    | some org =>
      by_cases hmember : t.isMemberOfOrg userId org = true
      · by_cases hadmin : t.isOrgAdmin userId org = true
        · simp [hmember, hadmin]
        · simp [hmember, hadmin]
      · simp [hmember]

/-- Not an owner, no global admin, and not in the organisation of the group. -/
def Outsider (t : Permissions) (userId agentGroupId : String) : Prop :=
  t.isOwner userId = false ∧ t.isGlobalAdmin userId = false ∧
    ∃ org, t.orgOfAgentGroup agentGroupId = some org ∧ t.isMemberOfOrg userId org = false

theorem Outsider.access (h : t.Outsider userId agentGroupId) :
    (t.canAccessAgentGroup userId agentGroupId).allowed = false := by
  obtain ⟨howner, hglobal, org, horg, hmember⟩ := h
  unfold canAccessAgentGroup
  rw [howner, hglobal, horg]
  dsimp only
  rw [hmember]
  by_cases hknown : userId ∈ t.users
  · simp [hknown, AccessDecision.allowed]
  · simp [hknown, AccessDecision.allowed]

theorem Outsider.publicIngress (h : t.Outsider userId agentGroupId) :
    t.publicIngressAllowed (some userId) agentGroupId = false := by
  obtain ⟨howner, hglobal, org, horg, hmember⟩ := h
  unfold publicIngressAllowed
  rw [horg]
  simp [howner, hglobal, hmember]

/-- Every function refuses the user; operating the group is left to a global role for that. -/
structure Refused (t : Permissions) (userId agentGroupId : String) : Prop where
  access : (t.canAccessAgentGroup userId agentGroupId).allowed = false
  admin : t.hasAdminPrivilege userId agentGroupId = false
  publicIngress : ∀ recordDrop event mg, accessGate t .isPublic recordDrop event (some userId) mg agentGroupId =
    ([], .ok ⟨false, some "cross_org_public"⟩)
  gate : ∀ policy recordDrop event mg result,
    (accessGate t policy recordDrop event (some userId) mg agentGroupId).2 = .ok result → result.allowed = false
  senderScope : ∀ scope, (senderScopeGate t scope (some userId) agentGroupId).allowed = false
  operate : t.canOperate userId (some agentGroupId) = true → t.hasGlobalOperabilityRole userId = true

theorem outsider_refused (h : t.Outsider userId agentGroupId) : t.Refused userId agentGroupId := by
  have haccess := h.access
  have hpublic := h.publicIngress
  have hpublicGate : ∀ recordDrop event mg, accessGate t .isPublic recordDrop event (some userId) mg agentGroupId =
      ([], .ok ⟨false, some "cross_org_public"⟩) := by
    intro recordDrop event mg
    unfold accessGate
    simp [hpublic]
  refine ⟨haccess, ?_, hpublicGate, ?_, ?_, ?_⟩
  · obtain ⟨howner, hglobal, org, horg, hmember⟩ := h
    rw [← Bool.not_eq_true, hasAdminPrivilege_iff]
    rintro ((hsuper | hsuper) | ⟨hprereq, -⟩)
    · rw [howner] at hsuper
      cases hsuper
    · rw [hglobal] at hsuper
      cases hsuper
    · rw [hprereq org horg] at hmember
      cases hmember
  · intro policy recordDrop event mg result hresult
    by_cases hpolicy : policy = .isPublic
    · rw [hpolicy, hpublicGate] at hresult
      rw [← Except.ok.inj hresult]
    · have hrefused : ∀ user reason, (handleUnknownSender policy mg user agentGroupId event recordDrop).2.map
          (fun _ => AccessGateResult.mk false (some reason)) = .ok result → result.allowed = false := by
        intro user reason hmap
        cases hh : (handleUnknownSender policy mg user agentGroupId event recordDrop).2 with
        | error e =>
          rw [hh] at hmap
          cases hmap
        | ok _ =>
          rw [hh] at hmap
          rw [← Except.ok.inj hmap]
      unfold accessGate at hresult
      dsimp only at hresult
      rw [if_neg hpolicy, Option.getD_some, haccess] at hresult
      split at hresult
      · exact hrefused _ _ hresult
      · exact hrefused _ _ hresult
  · intro scope
    unfold senderScopeGate
    cases scope with
    | all => simp [hpublic]
    | known =>
      dsimp only
      rw [Option.getD_some, haccess]
      split <;> rfl
  · obtain ⟨howner, hglobal, org, horg, hmember⟩ := h
    intro hoperate
    unfold canOperate at hoperate
    rw [howner, hglobal] at hoperate
    by_contra hnone
    rw [Bool.not_eq_true] at hnone
    rw [hnone] at hoperate
    dsimp only [Option.getD_some] at hoperate
    rw [horg] at hoperate
    dsimp only at hoperate
    rw [hmember] at hoperate
    simp at hoperate

end Permissions

namespace Directory

variable {d : Directory} {userId agentGroupId : String}

theorem group_of_admin (hadmin : d.permissions.isAdminOfAgentGroup userId agentGroupId = true ∨
    ∃ org, d.permissions.orgOfAgentGroup agentGroupId = some org) : agentGroupId ≠ "" := by
  have hrow : agentGroupId ∈ d.agentGroups.map (·.id) := by
    rcases hadmin with hadmin | ⟨org, horg⟩
    · obtain ⟨r, hr, hgrant⟩ := isAdminOfAgentGroup_iff.mp hadmin
      exact d.roleGroups r hr agentGroupId (isGrant_iff.mp hgrant).2.2.1
    · obtain ⟨g, hg, -⟩ := Option.bind_eq_some_iff.mp horg
      have hid := List.find?_some hg
      rw [decide_eq_true_eq] at hid
      exact List.mem_map.mpr ⟨g, List.mem_of_find?_eq_some hg, hid⟩
  rintro rfl
  exact d.groupsNamed hrow

theorem canOperate_of_admin (hknown : userId ∈ d.users)
    (h : d.permissions.hasAdminPrivilege userId agentGroupId = true) :
    d.permissions.canOperate userId (some agentGroupId) = true := by
  have hknown' : userId ∈ d.permissions.users := hknown
  unfold Permissions.canOperate
  rw [if_neg (not_not.mpr hknown')]
  rcases Permissions.hasAdminPrivilege_iff.mp h with hsuper | ⟨hprereq, hadmin⟩
  · rcases hsuper with hsuper | hsuper <;> simp [hsuper]
  · have hrow : d.permissions.isAdminOfAgentGroup userId agentGroupId = true ∨
        ∃ org, d.permissions.orgOfAgentGroup agentGroupId = some org := by
      rcases hadmin with hadmin | ⟨org, horg, -⟩
      · exact .inl hadmin
      · exact .inr ⟨org, horg⟩
    have hne : agentGroupId ≠ "" := group_of_admin hrow
    split
    · rfl
    · rw [if_pos (by simpa using hne), Option.getD_some]
      cases horg : d.permissions.orgOfAgentGroup agentGroupId with
      | none =>
        rcases hadmin with hadmin | ⟨org, horg', -⟩
        · simp [horg, hadmin]
        · rw [horg] at horg'
          cases horg'
      | some org =>
        have hmember := hprereq org horg
        rcases hadmin with hadmin | ⟨org', horg', hadmin⟩
        · simp [horg, hmember, hadmin]
        · obtain rfl : org = org' := Option.some.inj (horg.symm.trans horg')
          simp [horg, hmember, hadmin]

/-- **The boundary of an organisation.** From any tables, after any calls: an outsider to the organisation of a
group is refused by every function; and a known user who may administer a group may route to it and
operate it. -/
theorem organization_boundary (d : Directory) (cs : List DirectoryCall) (userId agentGroupId : String) :
    let t := (d.calls cs).permissions
    (t.Outsider userId agentGroupId → t.Refused userId agentGroupId) ∧
      (userId ∈ t.users → t.hasAdminPrivilege userId agentGroupId = true →
        (t.canAccessAgentGroup userId agentGroupId).allowed = true ∧
          t.canOperate userId (some agentGroupId) = true) := by
  intro t
  constructor
  · exact fun h => Permissions.outsider_refused h
  · intro hknown hadmin
    exact ⟨Permissions.canAccess_of_admin hknown hadmin, canOperate_of_admin hknown hadmin⟩

/-- Ann administers the organisation of a group; Bob administers the group, and is in no organisation. -/
def sampleCalls : List DirectoryCall :=
  [.createOrganization "acme", .createAgentGroup "1" (some "org-acme"), .upsertUser "ann", .upsertUser "bob",
    .addOrgMember "org-acme" "ann" none, .grantRole "ann" .orgAdmin (.org "org-acme") none "2026-01-01",
    .grantRole "bob" .admin (.group "ag-1") none "2026-01-02"]

theorem organization_boundary_sample :
    (empty.calls sampleCalls).permissions.Refused "bob" "ag-1" ∧
      ((empty.calls sampleCalls).permissions.canAccessAgentGroup "ann" "ag-1").allowed = true ∧
      (empty.calls sampleCalls).permissions.canOperate "ann" (some "ag-1") = true := by
  constructor
  · exact (organization_boundary empty sampleCalls "bob" "ag-1").1 ⟨by decide, by decide, "org-acme", by decide, by decide⟩
  · exact (organization_boundary empty sampleCalls "ann" "ag-1").2 (by decide) (by decide)

end Directory

end AgentDesk
