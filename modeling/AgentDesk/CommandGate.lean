/-
# The command gate and those it gates for

Two parts of the system say again what the command gate says. `hasAdminPrivilege` says who administers a
group; the gate asks `user_roles` with a query of its own, which knows nothing of organisations. The runner
takes a message for `/clear` by the beginning of its text; the gate, by its first word.

* `isAdmin_iff`: whom the gate takes for an admin.
* `gateCommand_admin`: what it does with a message whose first word is an admin command.
* `one_verdict_iff`: both pairs agree, exactly when no organisation decides and `/clear` is a word.
* `verdicts_differ`: an admin the organisation does not know, an admin of the organisation, and `/clearall`.
-/
import AgentDesk.Organizations
import AgentDesk.PollLoop

namespace AgentDesk

open Js
open Directory (isGrant isGrant_iff)

/-! ### Whom the gate takes for an admin -/

/-- The role column, as the gate reads it. -/
def UserRoleKind.gateRole : UserRoleKind → Role
  | .owner => .owner
  | .admin => .admin
  | .orgAdmin => .other "org-admin"
  | .operator => .other "operator"
  | .viewer => .other "viewer"

/-- The rows of `user_roles` that the gate queries. -/
def Directory.commandRoles (d : Directory) (adminWithoutRolesAllowed : Bool) : CommandRoles :=
  { userRoles := some (d.userRoles.map fun r => ⟨r.userId, r.role.gateRole, r.agentGroupId⟩)
    adminWithoutRolesAllowed }

variable {d : Directory} {allowed : Bool} {userId agentGroupId : String}

theorem gateRole_scope {r : UserRoleRow} (hr : r ∈ d.userRoles)
    (hrole : r.role.gateRole = .owner ∨ r.role.gateRole = .admin) :
    (r.agentGroupId = none → isGrant r.userId r.role .global r = true ∧ (r.role = .owner ∨ r.role = .admin)) ∧
      ∀ g, r.agentGroupId = some g → isGrant r.userId .admin (.group g) r = true := by
  obtain ⟨scope, hscope, hgroup, horg⟩ := d.wellScoped r hr
  have hkind : r.role = .owner ∨ r.role = .admin := by
    cases hk : r.role <;> simp [hk, UserRoleKind.gateRole] at hrole ⊢
  constructor
  · intro hnone
    rw [isGrant_iff]
    cases scope with
    | global => exact ⟨⟨rfl, rfl, hgroup, horg⟩, hkind⟩
    | group g => cases hgroup.symm.trans hnone
    | org o => rcases hkind with hk | hk <;> rw [hk] at hscope <;> cases hscope
  · intro g hg
    rw [isGrant_iff]
    cases scope with
    | global => cases hgroup.symm.trans hg
    | org o => cases hgroup.symm.trans hg
    | group g' =>
      obtain rfl : g' = g := Option.some.inj (hgroup.symm.trans hg)
      rcases hkind with hk | hk
      · rw [hk] at hscope
        cases hscope
      · exact ⟨rfl, hk, hgroup, horg⟩

/-- The gate takes for an admin whoever is an owner, a global admin or has the group's own admin role. -/
theorem isAdmin_iff : isAdmin (d.commandRoles allowed) (some userId) agentGroupId = true ↔
    userId ≠ "" ∧ ((d.permissions.isOwner userId = true ∨ d.permissions.isGlobalAdmin userId = true) ∨
      d.permissions.isAdminOfAgentGroup userId agentGroupId = true) := by
  unfold isAdmin Directory.commandRoles
  by_cases hu : userId = ""
  · simp [hu]
  · rw [if_neg (by simpa using hu), and_iff_right hu]
    dsimp only
    rw [Directory.isOwner_iff, Directory.isGlobalAdmin_iff, Directory.isAdminOfAgentGroup_iff]
    simp only [List.any_map, List.any_eq_true, Function.comp_apply, Bool.and_eq_true, Bool.or_eq_true,
      decide_eq_true_eq, Option.some.injEq]
    constructor
    · rintro ⟨r, hr, ⟨rfl, hrole⟩, hnone | hgroup⟩
      · obtain ⟨hgrant, hk | hk⟩ := (gateRole_scope hr hrole).1 hnone
        · exact .inl (.inl ⟨r, hr, hk ▸ hgrant⟩)
        · exact .inl (.inr ⟨r, hr, hk ▸ hgrant⟩)
      · exact .inr ⟨r, hr, (gateRole_scope hr hrole).2 agentGroupId hgroup⟩
    · rintro ((⟨r, hr, hgrant⟩ | ⟨r, hr, hgrant⟩) | ⟨r, hr, hgrant⟩)
      · obtain ⟨hu, hk, hg, -⟩ := isGrant_iff.mp hgrant
        exact ⟨r, hr, ⟨hu, .inl (by rw [hk]; rfl)⟩, .inl hg⟩
      · obtain ⟨hu, hk, hg, -⟩ := isGrant_iff.mp hgrant
        exact ⟨r, hr, ⟨hu, .inr (by rw [hk]; rfl)⟩, .inl hg⟩
      · obtain ⟨hu, hk, hg, -⟩ := isGrant_iff.mp hgrant
        exact ⟨r, hr, ⟨hu, .inr (by rw [hk]; rfl)⟩, .inr hg⟩

/-! ### The first word -/

theorem toLower_of_isSpace {c : Char} (h : isSpace c = true) : c.toLower = c := by
  unfold Char.toLower
  rw [dif_neg]
  rintro ⟨hA, hZ⟩
  unfold isSpace at h
  rw [Bool.or_eq_true, decide_eq_true_eq, Bool.and_eq_true, decide_eq_true_eq, decide_eq_true_eq] at h
  rcases h with h | ⟨h, -⟩
  · simp only [List.mem_cons, List.not_mem_nil, or_false] at h
    rcases h with rfl | rfl | rfl | rfl | rfl | rfl | rfl | rfl | rfl | rfl | rfl | rfl | rfl | rfl <;>
      revert hA hZ <;> decide
  · have hle : (0x2000 : UInt32) ≤ 'Z'.val := UInt32.le_trans h hZ
    revert hle
    decide

theorem firstWord_iff {text word : List Char} (hword : ∀ c ∈ word, isSpace c = false)
    (hstart : word.isPrefixOf (text.map Char.toLower) = true) :
    (text.takeWhile fun ch => !isSpace ch).map Char.toLower = word ↔
      (text.drop word.length).head?.all isSpace = true := by
  induction word generalizing text with
  | nil =>
    cases text with
    | nil => simp
    | cons ch text => by_cases h : isSpace ch = true <;> simp [h]
  | cons c word ih =>
    cases text with
    | nil => simp at hstart
    | cons ch text =>
      simp only [List.map_cons, List.isPrefixOf_cons_cons, Bool.and_eq_true, beq_iff_eq] at hstart
      obtain ⟨rfl, hrest⟩ := hstart
      have hch : isSpace ch = false := by
        by_contra h
        rw [Bool.not_eq_false] at h
        have hno := hword _ (.head _)
        rw [toLower_of_isSpace h, h] at hno
        cases hno
      simp only [hch, Bool.not_false, List.takeWhile_cons_of_pos, List.map_cons, List.cons.injEq, true_and,
        List.length_cons, List.drop_succ_cons]
      exact ih (fun c hc => hword c (.tail _ hc)) hrest

/-- The word that the gate looks up. -/
def gateWord (raw : String) (content : Content) : String :=
  String.ofList (((commandText raw content).toList.takeWhile fun ch => !isSpace ch).map Char.toLower)

theorem toLower_eq_slash {c : Char} (h : c.toLower = '/') : c = '/' := by
  unfold Char.toLower at h
  split at h
  · rename_i hupper
    have hval := congrArg Char.val h
    simp only at hval
    obtain ⟨hA, hZ⟩ := hupper
    have hA' : 65 ≤ c.val.toNat := hA
    have hZ' : c.val.toNat ≤ 90 := hZ
    have hval' := congrArg UInt32.toNat hval
    rw [UInt32.toNat_add] at hval'
    have h32 : ('a'.val - 'A'.val).toNat = 32 := rfl
    have h47 : (UInt32.toNat '/'.val) = 47 := rfl
    omega
  · exact h

/-- An admin command passes for an admin and is denied to others. -/
theorem gateCommand_admin {c : CommandRoles} {raw : String} {content : Content} {userId : Option String}
    (h : gateWord raw content ∈ adminCommands) : gateCommand c raw content userId agentGroupId =
      if isAdmin c userId agentGroupId then .pass else .deny (gateWord raw content) := by
  have hslash : ∀ command ∈ adminCommands, command.toList.head? = some '/' ∧ command ∉ filteredCommands := by decide
  obtain ⟨hhead, hkept⟩ := hslash _ h
  have hfirst : (commandText raw content).toList.head? = some '/' := by
    unfold gateWord at hhead
    rw [String.toList_ofList, List.head?_map, List.head?_takeWhile] at hhead
    obtain ⟨ch, hch, hlower⟩ := Option.map_eq_some_iff.mp hhead
    rw [(Option.filter_eq_some_iff.mp hch).1, toLower_eq_slash hlower]
  unfold gateCommand
  dsimp only
  rw [if_neg (not_not.mpr hfirst)]
  unfold gateWord at h hkept
  rw [if_neg hkept, if_pos h]
  rfl

theorem gateCommand_deny {c : CommandRoles} {raw command : String} {content : Content} {userId : Option String}
    (h : gateCommand c raw content userId agentGroupId = .deny command) : command = gateWord raw content := by
  unfold gateCommand at h
  dsimp only at h
  split at h
  · cases h
  · split at h
    · cases h
    · split at h
      · split at h
        · cases h
        · exact (GateResult.deny.inj h).symm
      · cases h

theorem commandText_eq {row : InboundRow} {text : String} (h : row.commandText = some text) :
    commandText row.raw row.content = text := by
  unfold InboundRow.commandText at h
  unfold commandText
  cases hc : row.content with
  | none =>
    rw [hc] at h
    exact Option.some.inj h
  | some parsed =>
    rw [hc] at h
    dsimp only at h ⊢
    generalize parsed.get "text" = value at h ⊢
    cases value with
    | error e => cases h
    | ok found =>
      cases found with
      | none => exact Option.some.inj h
      | some v =>
        cases v with
        | null => exact Option.some.inj h
        | bool b =>
          cases b
          · exact Option.some.inj h
          · cases h
        | num n =>
          dsimp only at h ⊢
          split at h
          · rename_i hn
            rw [if_pos hn]
            exact Option.some.inj h
          · cases h
        | str s => exact Option.some.inj h
        | arr l => cases h
        | obj fields => cases h

/-! ### One verdict -/

/-- An admin command of the user passes exactly when the user may administer the group. -/
def AdminsAgree (d : Directory) (adminWithoutRolesAllowed : Bool) (userId agentGroupId : String) : Prop :=
  ∀ raw content, gateWord raw content ∈ adminCommands →
    (gateCommand (d.commandRoles adminWithoutRolesAllowed) raw content (some userId) agentGroupId = .pass ↔
      d.permissions.hasAdminPrivilege userId agentGroupId = true)

/-- What the runner takes for `/clear` is the admin command `/clear` to the gate. -/
def ClearAgrees (row : InboundRow) : Prop :=
  isClearCommand row = some true → ∀ c userId agentGroupId, gateCommand c row.raw row.content userId agentGroupId =
    if isAdmin c userId agentGroupId then .pass else .deny "/clear"

def Permissions.Superuser (t : Permissions) (userId : String) : Prop :=
  t.isOwner userId = true ∨ t.isGlobalAdmin userId = true

/-- The organisation of the group makes no difference to the user's authority. -/
structure OneVerdict (t : Permissions) (userId agentGroupId : String) : Prop where
  /-- Whoever has the group's admin role is a member of its organisation. -/
  enrolled : userId ≠ "" → ¬ t.Superuser userId → t.isAdminOfAgentGroup userId agentGroupId = true →
    ∀ org, t.orgOfAgentGroup agentGroupId = some org → t.isMemberOfOrg userId org = true
  /-- An admin of the organisation who is its member has that role too. -/
  orgAdmins : userId ≠ "" → ¬ t.Superuser userId → ∀ org, t.orgOfAgentGroup agentGroupId = some org →
    t.isMemberOfOrg userId org = true → t.isOrgAdmin userId org = true →
      t.isAdminOfAgentGroup userId agentGroupId = true
  /-- A user without a name administers nothing. -/
  named : userId = "" → ¬ t.Superuser userId ∧
    (t.isAdminOfAgentGroup userId agentGroupId = true →
      ∃ org, t.orgOfAgentGroup agentGroupId = some org ∧ ¬ t.isMemberOfOrg userId org = true) ∧
    ∀ org, t.orgOfAgentGroup agentGroupId = some org → t.isMemberOfOrg userId org = true →
      ¬ t.isOrgAdmin userId org = true

/-- After `/clear` comes white space, or nothing. -/
def ClearIsWord (row : InboundRow) : Prop :=
  ∀ text, row.commandText = some text → isClearCommand row = some true →
    (text.toList.drop "/clear".length).head?.all isSpace = true

theorem adminsAgree_iff : AdminsAgree d allowed userId agentGroupId ↔
    (isAdmin (d.commandRoles allowed) (some userId) agentGroupId = true ↔
      d.permissions.hasAdminPrivilege userId agentGroupId = true) := by
  have hgate : ∀ {raw content}, gateWord raw content ∈ adminCommands →
      (gateCommand (d.commandRoles allowed) raw content (some userId) agentGroupId = .pass ↔
        isAdmin (d.commandRoles allowed) (some userId) agentGroupId = true) := by
    intro raw content hword
    rw [gateCommand_admin hword]
    by_cases hadmin : isAdmin (d.commandRoles allowed) (some userId) agentGroupId = true
    · simp [hadmin]
    · simp [hadmin]
  constructor
  · intro h
    have hword : gateWord "/clear" none ∈ adminCommands := by decide
    rw [← hgate hword]
    exact h "/clear" none hword
  · intro h raw content hword
    rw [hgate hword, h]

theorem oneVerdict_iff : (isAdmin (d.commandRoles allowed) (some userId) agentGroupId = true ↔
    d.permissions.hasAdminPrivilege userId agentGroupId = true) ↔ OneVerdict d.permissions userId agentGroupId := by
  rw [isAdmin_iff, Permissions.hasAdminPrivilege_iff]
  change (_ ∧ (d.permissions.Superuser userId ∨ _) ↔ d.permissions.Superuser userId ∨ _) ↔ _
  by_cases hu : userId = ""
  · constructor
    · intro h
      refine ⟨fun hne => absurd hu hne, fun hne => absurd hu hne, fun _ => ?_⟩
      have hno := fun hhas => (h.mpr hhas).1 hu
      refine ⟨fun hsuper => hno (.inl hsuper), fun hadmin => ?_, fun org horg hmember hadmin => ?_⟩
      · by_contra hall
        push Not at hall
        exact hno (.inr ⟨hall, .inl hadmin⟩)
      · refine hno (.inr ⟨fun o ho => ?_, .inr ⟨org, horg, hadmin⟩⟩)
        rwa [← Option.some.inj (horg.symm.trans ho)]
    · intro h
      obtain ⟨hsuper, hscoped, horg⟩ := h.named hu
      constructor
      · exact fun hgate => absurd hu hgate.1
      · rintro (hs | ⟨hprereq, hadmin | ⟨org, ho, hadmin⟩⟩)
        · exact absurd hs hsuper
        · obtain ⟨org, ho, hno⟩ := hscoped hadmin
          exact absurd (hprereq org ho) hno
        · exact absurd hadmin (horg org ho (hprereq org ho))
  · rw [and_iff_right hu]
    by_cases hsuper : d.permissions.Superuser userId
    · constructor
      · exact fun _ => ⟨fun _ hno => absurd hsuper hno, fun _ hno => absurd hsuper hno, fun h => absurd h hu⟩
      · exact fun _ => ⟨fun _ => .inl hsuper, fun _ => .inl hsuper⟩
    · rw [or_iff_right hsuper, or_iff_right hsuper]
      constructor
      · intro h
        refine ⟨fun _ _ hadmin => (h.mp hadmin).1, fun _ _ org horg hmember hadmin => h.mpr ⟨fun o ho => ?_, ?_⟩,
          fun hno => absurd hno hu⟩
        · rwa [← Option.some.inj (horg.symm.trans ho)]
        · exact .inr ⟨org, horg, hadmin⟩
      · intro h
        constructor
        · exact fun hadmin => ⟨h.enrolled hu hsuper hadmin, .inl hadmin⟩
        · rintro ⟨hprereq, hadmin | ⟨org, horg, hadmin⟩⟩
          · exact hadmin
          · exact h.orgAdmins hu hsuper org horg (hprereq org horg) hadmin

theorem clearIsWord_iff (row : InboundRow) : ClearAgrees row ↔ ClearIsWord row := by
  unfold ClearAgrees ClearIsWord
  cases htext : row.commandText with
  | none => simp [isClearCommand, htext]
  | some text =>
    by_cases hclear : isClearCommand row = some true
    · have hstart : "/clear".toList.isPrefixOf (text.toList.map Char.toLower) = true := by
        unfold isClearCommand at hclear
        rw [htext] at hclear
        exact Option.some.inj hclear
      have hspace : ∀ c ∈ "/clear".toList, isSpace c = false := by
        have hall : ("/clear".toList.all fun c => !isSpace c) = true := by decide
        simpa using hall
      have hword : gateWord row.raw row.content = "/clear" ↔
          (text.toList.drop "/clear".length).head?.all isSpace = true := by
        rw [← String.length_toList, ← firstWord_iff hspace hstart, ← commandText_eq htext]
        unfold gateWord
        rw [← String.toList_inj, String.toList_ofList]
      have htext' : ∀ text', some text = some text' → text' = text := fun _ h => (Option.some.inj h).symm
      rw [forall_prop_of_true hclear]
      constructor
      · intro h text' ht _
        rw [htext' text' ht, ← hword]
        have hdenied := h ⟨none, false⟩ none ""
        exact (gateCommand_deny hdenied).symm
      · intro h c userId agentGroupId
        have hw := hword.mpr (h text rfl hclear)
        rw [gateCommand_admin (by rw [hw]; decide), hw]
    · simp [hclear]

/-- **One verdict.** In every state of the tables, the gate lets the admin commands of a user pass exactly when
the user may administer the group, and knows every `/clear` of the runner for one: exactly when the group's
organisation makes no difference, and the `/clear` is a word. -/
theorem one_verdict_iff (d : Directory) (adminWithoutRolesAllowed : Bool) (userId agentGroupId : String)
    (row : InboundRow) : AdminsAgree d adminWithoutRolesAllowed userId agentGroupId ∧ ClearAgrees row ↔
      OneVerdict d.permissions userId agentGroupId ∧ ClearIsWord row := by
  rw [adminsAgree_iff, oneVerdict_iff, clearIsWord_iff]

def clearAllRow : InboundRow :=
  { id := "om_1", seq := 2, kind := .chat, pending := true, processAfter := none, trigger := true
    platformId := some "oc_1", channelType := some "feishu", threadId := none, raw := ""
    content := some (.obj [("text", .str "/clearall")]), originUserId := none }

/-- Ann is an admin of the organisation, and is denied; Bob has the admin role of its group without being a
member, and passes; and the gate lets anybody's `/clearall` pass, which the runner takes for `/clear`. -/
theorem verdicts_differ :
    ¬ AdminsAgree (Directory.empty.calls Directory.sampleCalls) false "ann" "ag-1" ∧
      ¬ AdminsAgree (Directory.empty.calls Directory.sampleCalls) false "bob" "ag-1" ∧
      isClearCommand clearAllRow = some true ∧
      gateCommand ((Directory.empty.calls Directory.sampleCalls).commandRoles false) clearAllRow.raw
        clearAllRow.content none "ag-1" = .pass ∧
      ¬ ClearAgrees clearAllRow := by
  have hclear : isClearCommand clearAllRow = some true := by decide
  refine ⟨fun h => ?_, fun h => ?_, hclear, by decide, fun h => ?_⟩
  · have hann := h "/clear" none (by decide)
    revert hann
    decide
  · have hbob := h "/clear" none (by decide)
    revert hbob
    decide
  · have hdenied := h hclear ⟨none, false⟩ none "ag-1"
    revert hdenied
    decide

end AgentDesk
