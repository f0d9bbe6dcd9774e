/-
# Who is asked to approve

`pickApprover` (`src/modules/approvals/primitive.ts`) lists the users an approval
card may be sent to: the admins of the group, the admins of its organisation, the
global admins and the owners. `hasAdminPrivilege` decides whose click counts. It
takes an admin for one only inside the organisation of the group; the list does
not ask, and a grant outlives the membership it needs.

* `mem_pickApprover`: who is on the list.
* `approvers_iff`: the list is exactly those whose click counts, exactly when
  every scoped admin of the group and every admin of its organisation is a
  member of that organisation, or above it.
* `stale_approver`: an admin who has left the organisation is still asked.
-/
import Mathlib.Data.List.Sort
import Mathlib.Data.String.Basic
import AgentDesk.Organizations

namespace AgentDesk

open Js

namespace Directory

variable (d : Directory)

/-- `ORDER BY granted_at`. -/
def byGrantedAt (rows : List UserRoleRow) : List UserRoleRow :=
  rows.insertionSort fun a b => a.grantedAt ≤ b.grantedAt

def getAdminsOfAgentGroup (agentGroupId : String) : List UserRoleRow :=
  byGrantedAt (d.userRoles.filter fun r => r.role = .admin && r.agentGroupId = some agentGroupId)

def getOrgAdmins (organizationId : String) : List UserRoleRow :=
  byGrantedAt (d.userRoles.filter fun r =>
    r.role = .orgAdmin && r.organizationId = some organizationId && r.agentGroupId = none)

def getGlobalAdmins : List UserRoleRow :=
  byGrantedAt (d.userRoles.filter fun r => r.role = .admin && r.agentGroupId = none && r.organizationId = none)

def getOwners : List UserRoleRow :=
  byGrantedAt (d.userRoles.filter fun r => r.role = .owner && r.agentGroupId = none && r.organizationId = none)

/-- The users to ask, those closest to the group first. -/
def pickApprover (agentGroupId : Option String) : List String :=
  let org := d.permissions.orgOfAgentGroup (agentGroupId.getD "")
  let ofGroup :=
    if truthy agentGroupId then
      (d.getAdminsOfAgentGroup (agentGroupId.getD "")).map (·.userId) ++
        (if truthy org then (d.getOrgAdmins (org.getD "")).map (·.userId) else [])
    else []
  insertAll [] (ofGroup ++ d.getGlobalAdmins.map (·.userId) ++ d.getOwners.map (·.userId))

variable {d} {userId agentGroupId : String}

theorem nodup_pickApprover (agentGroupId : Option String) : (d.pickApprover agentGroupId).Nodup :=
  nodup_insertAll List.nodup_nil

theorem mem_byGrantedAt {rows : List UserRoleRow} : userId ∈ (byGrantedAt rows).map (·.userId) ↔
    ∃ r ∈ rows, r.userId = userId := by
  unfold byGrantedAt
  simp [List.mem_map, List.mem_insertionSort]

theorem mem_listed {p : UserRoleRow → Bool} {q : RoleGrant → Bool}
    (hpq : ∀ r : UserRoleRow, q r.toRoleGrant = true ↔ r.userId = userId ∧ p r = true) :
    userId ∈ (byGrantedAt (d.userRoles.filter p)).map (·.userId) ↔ d.permissions.userRoles.any q = true := by
  rw [mem_byGrantedAt, permissions, List.any_map, List.any_eq_true]
  refine exists_congr fun r => ?_
  rw [List.mem_filter, and_assoc, Function.comp_apply, hpq, and_comm (a := p r = true)]

theorem mem_getAdminsOfAgentGroup : userId ∈ (d.getAdminsOfAgentGroup agentGroupId).map (·.userId) ↔
    d.permissions.isAdminOfAgentGroup userId agentGroupId = true :=
  mem_listed fun r => by simp [and_assoc]

theorem mem_getOrgAdmins {org : String} : userId ∈ (d.getOrgAdmins org).map (·.userId) ↔
    d.permissions.isOrgAdmin userId org = true :=
  mem_listed fun r => by
    simp only [Bool.and_eq_true, decide_eq_true_eq, List.mem_singleton]
    tauto

theorem mem_getGlobalAdmins : userId ∈ d.getGlobalAdmins.map (·.userId) ↔
    d.permissions.isGlobalAdmin userId = true :=
  mem_listed fun r => by simp [and_assoc]

theorem mem_getOwners : userId ∈ d.getOwners.map (·.userId) ↔ d.permissions.isOwner userId = true :=
  mem_listed fun r => by simp [and_assoc]

theorem orgOfAgentGroup_ne {org : String} (h : d.permissions.orgOfAgentGroup agentGroupId = some org) : org ≠ "" := by
  obtain ⟨g, hg, horg⟩ := Option.bind_eq_some_iff.mp h
  have hmem : org ∈ d.organizations := d.groupOrgs g (List.mem_of_find?_eq_some hg) org horg
  rintro rfl
  exact d.organizationsNamed hmem

/-- The list: scoped admins, those of the organisation, global admins and owners. -/
theorem mem_pickApprover : userId ∈ d.pickApprover (some agentGroupId) ↔
    d.permissions.isAdminOfAgentGroup userId agentGroupId = true ∨
      (∃ org, d.permissions.orgOfAgentGroup agentGroupId = some org ∧ d.permissions.isOrgAdmin userId org = true) ∨
      d.permissions.isGlobalAdmin userId = true ∨ d.permissions.isOwner userId = true := by
  have hgroup : userId ∈ (if truthy (some agentGroupId) then
      (d.getAdminsOfAgentGroup agentGroupId).map (·.userId) ++
        (if truthy (d.permissions.orgOfAgentGroup agentGroupId) then
          (d.getOrgAdmins ((d.permissions.orgOfAgentGroup agentGroupId).getD "")).map (·.userId) else [])
      else []) ↔
    d.permissions.isAdminOfAgentGroup userId agentGroupId = true ∨
      ∃ org, d.permissions.orgOfAgentGroup agentGroupId = some org ∧ d.permissions.isOrgAdmin userId org = true := by
    by_cases hempty : agentGroupId = ""
    · -- no row has an empty group
      have hnone : ¬ (d.permissions.isAdminOfAgentGroup userId agentGroupId = true ∨
          ∃ org, d.permissions.orgOfAgentGroup agentGroupId = some org) := fun h => group_of_admin h hempty
      rw [if_neg (by simp [hempty])]
      constructor
      · simp
      · rintro (h | ⟨org, horg, -⟩)
        · exact absurd (.inl h) hnone
        · exact absurd (.inr ⟨org, horg⟩) hnone
    · rw [if_pos (by simpa using hempty), List.mem_append, mem_getAdminsOfAgentGroup]
      cases horg : d.permissions.orgOfAgentGroup agentGroupId with
      | none => simp
      | some org =>
        rw [if_pos (by simpa using orgOfAgentGroup_ne horg), Option.getD_some, mem_getOrgAdmins]
        simp
  unfold pickApprover
  rw [mem_insertAll]
  dsimp only [Option.getD_some]
  rw [List.mem_append, List.mem_append, hgroup, mem_getGlobalAdmins, mem_getOwners, or_assoc, or_assoc]
  simp only [List.not_mem_nil, false_or]

/-! ### The list and the click -/

/-- The list has nobody twice, and exactly those who may administer the group. -/
def ApproversPrivileged (d : Directory) (agentGroupId : String) : Prop :=
  (d.pickApprover (some agentGroupId)).Nodup ∧
    ∀ userId, userId ∈ d.pickApprover (some agentGroupId) ↔
      d.permissions.hasAdminPrivilege userId agentGroupId = true

/-- Whoever has a role for the group or its organisation is a member of the organisation, or stands above it. -/
def NoStaleAdmin (d : Directory) (agentGroupId : String) : Prop :=
  ∀ org, d.permissions.orgOfAgentGroup agentGroupId = some org → ∀ userId,
    (userId, .admin, .group agentGroupId) ∈ d.grants ∨ (userId, .orgAdmin, .org org) ∈ d.grants →
      d.permissions.isMemberOfOrg userId org = true ∨ (userId, .owner, .global) ∈ d.grants ∨
        (userId, .admin, .global) ∈ d.grants

/-- **Who is asked, and whose answer counts.** After any calls: the list of approvers of a group is exactly
those who may administer it, exactly when no admin of the group or of its organisation has been left
outside the organisation. -/
theorem approvers_iff (d : Directory) (cs : List DirectoryCall) (agentGroupId : String) :
    (d.calls cs).ApproversPrivileged agentGroupId ↔ (d.calls cs).NoStaleAdmin agentGroupId := by
  generalize d.calls cs = d
  unfold ApproversPrivileged NoStaleAdmin
  rw [and_iff_right (nodup_pickApprover _)]
  simp only [mem_pickApprover, Permissions.hasAdminPrivilege_iff, ← isOwner_iff, ← isGlobalAdmin_iff,
    ← isOrgAdmin_iff, ← isAdminOfAgentGroup_iff]
  constructor
  · intro h org horg userId hadmin
    have hprivileged := (h userId).mp (by
      rcases hadmin with hadmin | hadmin
      · exact .inl hadmin
      · exact .inr (.inl ⟨org, horg, hadmin⟩))
    rcases hprivileged with hsuper | ⟨hprereq, -⟩
    · exact .inr hsuper
    · exact .inl (hprereq org horg)
  · intro h userId
    constructor
    · rintro (hadmin | ⟨org, horg, hadmin⟩ | hglobal | howner)
      · by_cases hsuper : d.permissions.isOwner userId = true ∨ d.permissions.isGlobalAdmin userId = true
        · exact .inl hsuper
        · refine .inr ⟨fun org horg => ?_, .inl hadmin⟩
          rcases h org horg userId (.inl hadmin) with hmember | habove
          · exact hmember
          · exact absurd habove hsuper
      · rcases h org horg userId (.inr hadmin) with hmember | habove
        · refine .inr ⟨fun org' horg' => ?_, .inr ⟨org, horg, hadmin⟩⟩
          rw [← Option.some.inj (horg.symm.trans horg')]
          exact hmember
        · exact .inl habove
      · exact .inl (.inr hglobal)
      · exact .inl (.inl howner)
    · rintro ((howner | hglobal) | ⟨-, hadmin | hadmin⟩)
      · exact .inr (.inr (.inr howner))
      · exact .inr (.inr (.inl hglobal))
      · exact .inl hadmin
      · exact .inr (.inl hadmin)

/-- Ann becomes a member of the organisation, an admin of its group, and leaves. -/
def staleCalls : List DirectoryCall :=
  [.createOrganization "acme", .createAgentGroup "1" (some "org-acme"), .upsertUser "ann",
    .addOrgMember "org-acme" "ann" none, .grantRole "ann" .admin (.group "ag-1") none "2026-01-01",
    .removeOrgMember "org-acme" "ann"]

/-- She is still asked, and her answer does not count. -/
theorem stale_approver :
    (empty.calls staleCalls).pickApprover (some "ag-1") = ["ann"] ∧
      (empty.calls staleCalls).permissions.hasAdminPrivilege "ann" "ag-1" = false ∧
      ¬ (empty.calls staleCalls).ApproversPrivileged "ag-1" := by
  have hlist : (empty.calls staleCalls).pickApprover (some "ag-1") = ["ann"] := by decide
  have hadmin : (empty.calls staleCalls).permissions.hasAdminPrivilege "ann" "ag-1" = false := by decide
  refine ⟨hlist, hadmin, fun h => ?_⟩
  have hyes := (h.2 "ann").mp (by simp [hlist])
  rw [hadmin] at hyes
  cases hyes

end Directory

end AgentDesk
