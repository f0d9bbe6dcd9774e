/-
# Additional mounts

`src/modules/mount-security/index.ts`: what of the host a container may have mounted under `/workspace/extra`. The
allow-list is a file that is read once. A request is granted for a path whose real path, with all links resolved, is
below a root on the list and has none of the blocked patterns in it. For writing, the first root that is found must
permit it.

Whether a path is below a root is tested by two dots at the start of the relative path, which a name of a directory
may begin with too. Such a directory is not below its parent then, and the next root on the list decides. And a
container path of dots and slashes alone is `/workspace/extra` itself.

* `load_again`: the list stays what it was read as.
* `mounts_confined`: whatever the file and the disk become, what is mounted is below a root and has no default pattern.
* `findAllowedRoot_eq`: the first root that is found has no such name below it.
* `validated_real`: what is mounted is at its own path, without links, below the real path of a root.
* `mounts_exact_iff`: **the mounts are what was asked for and permitted exactly when no such name is passed over and
  the container paths have more than dots and slashes**.

The tree and the file do not change during a call. What the module logs is left out.
-/
import AgentDesk.FileTree
import AgentDesk.JsonObjects
import AgentDesk.PathNames

namespace AgentDesk.MountSecurity

open JsonText FileTree

abbrev Name := PosixPath.Name (unit '/') (unit '.')

structure AdditionalMount where
  hostPath : Text
  containerPath : Option Text
  readonly : Option Bool

structure AllowedRoot where
  path : Text
  allowReadWrite : Bool
  description : Option Text

structure MountAllowlist where
  allowedRoots : List AllowedRoot
  blockedPatterns : List Text

/-! ### The allow-list -/

def DEFAULT_BLOCKED_PATTERNS : List Text :=
  [".ssh", ".gnupg", ".gpg", ".aws", ".azure", ".gcloud", ".kube", ".docker", "credentials", ".env", ".netrc",
    ".npmrc", ".pypirc", "id_rsa", "id_ed25519", "private_key", ".secret"].map ofString

/-- The object in the file; `none` for what is not an array. -/
structure AllowlistObject where
  allowedRoots : Option (List AllowedRoot)
  blockedPatterns : Option (List Text)

/-- The file: not there, not readable as JSON for some reason, or an object. -/
inductive AllowlistFile where
  | missing
  | unreadable (message : Text)
  | object (allowlist : AllowlistObject)

/-- The two variables of the module. -/
structure Cache where
  cachedAllowlist : Option MountAllowlist
  allowlistLoadError : Option Text

/-- The checks of the structure, and the patterns with the default ones before them, each once. -/
def checkedAllowlist (allowlist : AllowlistObject) : Except Text MountAllowlist :=
  match allowlist.allowedRoots, allowlist.blockedPatterns with
  | none, _ => .error (ofString "allowedRoots must be an array")
  | some _, none => .error (ofString "blockedPatterns must be an array")
  | some roots, some patterns => .ok ⟨roots, (DEFAULT_BLOCKED_PATTERNS ++ patterns).eraseDups⟩

def loadMountAllowlist (cache : Cache) (file : AllowlistFile) : Cache × Option MountAllowlist :=
  match cache.cachedAllowlist, cache.allowlistLoadError with
  | some allowlist, _ => (cache, some allowlist)
  | none, some _ => (cache, none)
  | none, none => match file with
    | .missing => (cache, none)
    | .unreadable message => (⟨none, some message⟩, none)
    | .object object => match checkedAllowlist object with
      | .error message => (⟨none, some message⟩, none)
      | .ok allowlist => (⟨some allowlist, none⟩, some allowlist)

theorem load_cases (cache : Cache) (file : AllowlistFile) :
    loadMountAllowlist cache file = (cache, cache.cachedAllowlist) ∨
      (∃ message, loadMountAllowlist cache file = (⟨none, some message⟩, none)) ∨
      ∃ object allowlist, checkedAllowlist object = .ok allowlist ∧
        loadMountAllowlist cache file = (⟨some allowlist, none⟩, some allowlist) := by
  obtain ⟨cached, error⟩ := cache
  cases cached with
  | some allowlist => exact .inl rfl
  | none =>
    cases error with
    | some message => exact .inl rfl
    | none =>
      cases file with
      | missing => exact .inl rfl
      | unreadable message => exact .inr (.inl ⟨message, rfl⟩)
      | object object =>
        have hload : loadMountAllowlist ⟨none, none⟩ (.object object) = match checkedAllowlist object with
          | .error message => (⟨none, some message⟩, none)
          | .ok allowlist => (⟨some allowlist, none⟩, some allowlist) := rfl
        rw [hload]
        cases hchecked : checkedAllowlist object with
        | error message => exact .inr (.inl ⟨message, rfl⟩)
        | ok allowlist => exact .inr (.inr ⟨object, allowlist, hchecked, rfl⟩)

/-- **What was read stays.** -/
theorem load_again (cache : Cache) (file : AllowlistFile) :
    (loadMountAllowlist (loadMountAllowlist cache file).1 file).2 = (loadMountAllowlist cache file).2 := by
  rcases load_cases cache file with hsame | ⟨message, herror⟩ | ⟨object, allowlist, -, hread⟩
  · rw [hsame]
    exact congrArg Prod.snd hsame
  · rw [herror]
    rfl
  · rw [hread]
    rfl

/-- The default patterns are blocked. -/
def BlocksDefaults (allowlist : MountAllowlist) : Prop :=
  ∀ pattern ∈ DEFAULT_BLOCKED_PATTERNS, pattern ∈ allowlist.blockedPatterns

theorem checked_blocks {object : AllowlistObject} {allowlist : MountAllowlist}
    (h : checkedAllowlist object = .ok allowlist) : BlocksDefaults allowlist := by
  obtain ⟨roots, patterns⟩ := object
  cases roots with
  | none => cases h
  | some roots =>
    cases patterns with
    | none => cases h
    | some patterns =>
      have hlist : MountAllowlist.mk roots (DEFAULT_BLOCKED_PATTERNS ++ patterns).eraseDups = allowlist :=
        Except.ok.inj h
      intro pattern hpattern
      rw [← hlist]
      exact List.mem_eraseDups.mpr (List.mem_append_left _ hpattern)

/-! ### The checks -/

/-- The process: its home directories, where it runs, and the constant of `config.ts`. -/
structure Env where
  HOME : Option Text
  homedir : Text
  cwd : List Name
  MOUNT_ALLOWLIST_PATH : Text

/-- `a || b`, of texts. -/
def orElse (a : Option Text) (b : Text) : Text := (a.filter fun t => t ≠ []).getD b

def expandPath (env : Env) (p : Text) : Text :=
  let homeDir := orElse env.HOME env.homedir
  if (ofString "~/").isPrefixOf p then PosixPath.joined (unit '/') (unit '.') homeDir (p.drop 2)
  else if p = ofString "~" then homeDir
  else PosixPath.resolve (unit '/') (unit '.') env.cwd p

/-- `t.includes(pattern)`. -/
def includes (t pattern : Text) : Bool := decide (pattern <:+: t)

def matchesBlockedPattern (realPath : Text) (blockedPatterns : List Text) : Option Text :=
  let pathParts := realPath.splitOn (unit '/')
  blockedPatterns.find? fun pattern =>
    (pathParts.any fun part => part = pattern || includes part pattern) || includes realPath pattern

def isValidContainerPath (containerPath : Text) : Bool :=
  if includes containerPath (ofString "..") then false
  else if containerPath.head? = some (unit '/') then false
  else if containerPath = [] ∨ trimText containerPath = [] then false
  else if includes containerPath (ofString ":") then false
  else true

variable {β : Type}

/-- The real path, where there is something. A path with a zero in it is refused. -/
def getRealPath (env : Env) (d : Disk Name β) (p : Text) : Option (List Name) :=
  if 0 ∈ p then none
  else (d.realpath (PosixPath.names (unit '/') (unit '.') (PosixPath.resolve (unit '/') (unit '.') env.cwd p))).toOption

def findAllowedRoot (env : Env) (d : Disk Name β) (realPath : List Name) (allowedRoots : List AllowedRoot) :
    Option AllowedRoot :=
  allowedRoots.find? fun root => match getRealPath env d (expandPath env root.path) with
    | none => false
    | some realRoot =>
      let relative := PosixPath.relative realRoot realPath
      !(ofString "..").isPrefixOf relative && relative.head? ≠ some (unit '/')

inductive MountValidationResult where
  | refused (reason : Text)
  | allowed (reason : Text) (realHostPath : List Name) (resolvedContainerPath : Text) (effectiveReadonly : Bool)

def MountValidationResult.isAllowed : MountValidationResult → Bool
  | .refused _ => false
  | .allowed .. => true

def MountValidationResult.effectiveReadonly : MountValidationResult → Option Bool
  | .refused _ => none
  | .allowed _ _ _ readonly => some readonly

/-- The container path that is asked for, or the name of the host's. -/
def AdditionalMount.target (mount : AdditionalMount) : Text :=
  orElse mount.containerPath (PosixPath.basename (unit '/') mount.hostPath)

/-- A text in quotes. -/
def quoted (t : Text) : Text := unit '"' :: (t ++ [unit '"'])

def notUnderReason (env : Env) (realPath : Text) (roots : List AllowedRoot) : Text :=
  ofString "Path " ++ quoted realPath ++ ofString " is not under any allowed root. Allowed roots: " ++
    (ofString ", ").intercalate (roots.map fun root => expandPath env root.path)

def allowedReason (root : AllowedRoot) : Text :=
  ofString "Allowed under root " ++ quoted root.path ++
    if orElse root.description [] = [] then [] else ofString " (" ++ orElse root.description [] ++ ofString ")"

/-- The checks, with the list that is loaded. -/
def checkMount (env : Env) (d : Disk Name β) (allowlist : Option MountAllowlist) (mount : AdditionalMount) :
    MountValidationResult :=
  match allowlist with
  | none => .refused (ofString "No mount allowlist configured at " ++ env.MOUNT_ALLOWLIST_PATH)
  | some allowlist =>
    if !isValidContainerPath mount.target then
      .refused (ofString "Invalid container path: " ++ quoted mount.target ++
        ofString " - must be relative, non-empty, and not contain \"..\"")
    else
      let expandedPath := expandPath env mount.hostPath
      match getRealPath env d expandedPath with
      | none => .refused (ofString "Host path does not exist: " ++ quoted mount.hostPath ++ ofString " (expanded: " ++
          quoted expandedPath ++ ofString ")")
      | some realPath => match matchesBlockedPattern (PosixPath.text realPath) allowlist.blockedPatterns with
        | some blockedMatch => .refused (ofString "Path matches blocked pattern " ++ quoted blockedMatch ++
            ofString ": " ++ quoted (PosixPath.text realPath))
        | none => match findAllowedRoot env d realPath allowlist.allowedRoots with
          | none => .refused (notUnderReason env (PosixPath.text realPath) allowlist.allowedRoots)
          | some allowedRoot =>
            let requestedReadWrite := mount.readonly = some false
            .allowed (allowedReason allowedRoot) realPath mount.target
              (!(requestedReadWrite && allowedRoot.allowReadWrite))

def validateMount (env : Env) (d : Disk Name β) (file : AllowlistFile) (cache : Cache) (mount : AdditionalMount) :
    Cache × MountValidationResult :=
  let (cache, allowlist) := loadMountAllowlist cache file
  (cache, checkMount env d allowlist mount)

structure ValidatedMount where
  hostPath : List Name
  containerPath : Text
  readonly : Bool

def MountValidationResult.validated : MountValidationResult → List ValidatedMount
  | .refused _ => []
  | .allowed _ realHostPath resolvedContainerPath effectiveReadonly =>
    [⟨realHostPath, ofString "/workspace/extra/" ++ resolvedContainerPath, effectiveReadonly⟩]

def validateAdditionalMounts (env : Env) (d : Disk Name β) (file : AllowlistFile) :
    Cache → List AdditionalMount → Cache × List ValidatedMount
  | cache, [] => (cache, [])
  | cache, mount :: mounts =>
    let (cache, result) := validateMount env d file cache mount
    let (cache, validatedMounts) := validateAdditionalMounts env d file cache mounts
    (cache, result.validated ++ validatedMounts)

/-! ### What is permitted -/

section spec

variable (env : Env) (d : Disk Name β) (realPath : List Name)

/-- The path is the real path of the root, or below it. -/
def Contains (root : AllowedRoot) : Prop :=
  ∃ realRoot, getRealPath env d (expandPath env root.path) = some realRoot ∧ realRoot <+: realPath

/-- The first name below the root begins with two dots. -/
def DotsBelow (root : AllowedRoot) : Prop :=
  ∃ realRoot n, getRealPath env d (expandPath env root.path) = some realRoot ∧
    realPath[realRoot.length]? = some n ∧ ofString ".." <+: n.val

instance : DecidablePred (Contains env d realPath) := fun root =>
  match h : getRealPath env d (expandPath env root.path) with
  | none => isFalse (by simp [Contains, h])
  | some realRoot => decidable_of_iff (realRoot <+: realPath) (by simp [Contains, h])

instance : DecidablePred (DotsBelow env d realPath) := fun root =>
  match h : getRealPath env d (expandPath env root.path) with
  | none => isFalse (by simp [DotsBelow, h])
  | some realRoot => match hn : realPath[realRoot.length]? with
    | none => isFalse (by simp [DotsBelow, h, hn])
    | some n => decidable_of_iff (ofString ".." <+: n.val) (by simp [DotsBelow, h, hn])

end spec

/-- A relative path that says something, without `..` and `:`. -/
structure RelativePath (containerPath : Text) : Prop where
  nonblank : trimText containerPath ≠ []
  relative : containerPath.head? ≠ some (unit '/')
  noDots : ¬ ofString ".." <:+: containerPath
  noColon : unit ':' ∉ containerPath

/-- What a request needs besides a root. -/
structure Eligible (env : Env) (d : Disk Name β) (list : MountAllowlist) (mount : AdditionalMount)
    (realPath : List Name) : Prop where
  real : getRealPath env d (expandPath env mount.hostPath) = some realPath
  unblocked : ∀ pattern ∈ list.blockedPatterns, ¬ pattern <:+: PosixPath.text realPath
  target : RelativePath mount.target

def Permitted (env : Env) (d : Disk Name β) (allowlist : Option MountAllowlist) (mount : AdditionalMount) : Prop :=
  ∃ list realPath, allowlist = some list ∧ Eligible env d list mount realPath ∧
    ∃ root ∈ list.allowedRoots, Contains env d realPath root

/-- Writing is asked for, and the first root that the path is below permits it. -/
def ReadWriteDue (env : Env) (d : Disk Name β) (allowlist : Option MountAllowlist) (mount : AdditionalMount) : Prop :=
  mount.readonly = some false ∧ ∃ list realPath root, allowlist = some list ∧
    getRealPath env d (expandPath env mount.hostPath) = some realPath ∧
      list.allowedRoots.find? (Contains env d realPath) = some root ∧ root.allowReadWrite = true

def extraDir : Text := ofString "/workspace/extra"

/-- The path leads strictly below `/workspace/extra`. -/
def BelowExtra (containerPath : Text) : Prop :=
  let fromRoot := PosixPath.fromRoot (unit '/') (unit '.')
  fromRoot extraDir <+: fromRoot containerPath ∧ fromRoot containerPath ≠ fromRoot extraDir

/-- The mounts of a list of requests are what was asked for and is permitted. -/
structure MountsExact (env : Env) (d : Disk Name β) (file : AllowlistFile) (cache : Cache)
    (mounts : List AdditionalMount) : Prop where
  allowed : ∀ mount ∈ mounts, (validateMount env d file cache mount).2.isAllowed = true ↔
    Permitted env d (loadMountAllowlist cache file).2 mount
  readWrite : ∀ mount ∈ mounts, (validateMount env d file cache mount).2.isAllowed = true →
    ((validateMount env d file cache mount).2.effectiveReadonly = some false ↔
      ReadWriteDue env d (loadMountAllowlist cache file).2 mount)
  below : ∀ mount ∈ (validateAdditionalMounts env d file cache mounts).2, BelowExtra mount.containerPath

/-- No name that begins with two dots makes a difference, and the container path has more than dots and slashes. -/
def WellPlaced (env : Env) (d : Disk Name β) (list : MountAllowlist) (mount : AdditionalMount) : Prop :=
  ∀ realPath first, Eligible env d list mount realPath →
    list.allowedRoots.find? (Contains env d realPath) = some first →
      (∃ found, list.allowedRoots.find? (fun root => Contains env d realPath root ∧ ¬DotsBelow env d realPath root) =
          some found ∧ (mount.readonly = some false → found.allowReadWrite = first.allowReadWrite)) ∧
        ∃ c ∈ mount.target, c ≠ unit '.' ∧ c ≠ unit '/'

/-! ### What is found -/

theorem dots_eq : ofString ".." = [unit '.', unit '.'] := by decide

theorem slash_ne_dot : unit '/' ≠ unit '.' := by decide

/-- **The root that is found** is the first that the path is below, under no name that begins with two dots. -/
theorem findAllowedRoot_eq (env : Env) (d : Disk Name β) (realPath : List Name) (roots : List AllowedRoot) :
    findAllowedRoot env d realPath roots =
      roots.find? fun root => Contains env d realPath root ∧ ¬DotsBelow env d realPath root := by
  unfold findAllowedRoot
  congr 1
  funext root
  cases hroot : getRealPath env d (expandPath env root.path) with
  | none => simp [Contains, hroot]
  | some realRoot =>
    have hhead : (PosixPath.relative realRoot realPath).head? ≠ some (unit '/') :=
      PosixPath.relative_head slash_ne_dot realRoot realPath
    have hdots : [unit '.', unit '.'] <+: PosixPath.relative realRoot realPath ↔ _ :=
      PosixPath.dots_prefix_relative slash_ne_dot realRoot realPath
    have hprefix : (ofString "..").isPrefixOf (PosixPath.relative realRoot realPath) = true ↔
        (realRoot <+: realPath → DotsBelow env d realPath root) := by
      rw [List.isPrefixOf_iff_prefix, dots_eq, hdots]
      simp [DotsBelow, hroot, dots_eq]
    have hcontains : Contains env d realPath root ↔ realRoot <+: realPath := by simp [Contains, hroot]
    dsimp only
    rw [Bool.eq_iff_iff, Bool.and_eq_true, Bool.not_eq_true', ← Bool.not_eq_true, hprefix, decide_eq_true_eq,
      decide_eq_true_eq, hcontains]
    tauto

theorem matchesBlockedPattern_none {realPath : Text} {patterns : List Text} :
    matchesBlockedPattern realPath patterns = none ↔ ∀ pattern ∈ patterns, ¬ pattern <:+: realPath := by
  have hpattern : ∀ pattern : Text, (((realPath.splitOn (unit '/')).any fun part =>
      part = pattern || includes part pattern) || includes realPath pattern) = true ↔ pattern <:+: realPath := by
    intro pattern
    rw [Bool.or_eq_true, includes, decide_eq_true_eq]
    refine ⟨fun h => h.elim (fun hpart => ?_) id, .inr⟩
    obtain ⟨part, hmem, hmatch⟩ := List.any_eq_true.mp hpart
    have hwithin : part <:+: realPath := PosixPath.infix_of_mem_splitOn hmem
    rcases (Bool.or_eq_true _ _).mp hmatch with hsame | hincludes
    · exact (of_decide_eq_true hsame) ▸ hwithin
    · exact (of_decide_eq_true hincludes).trans hwithin
  unfold matchesBlockedPattern
  rw [List.find?_eq_none]
  exact forall₂_congr fun pattern _ => (hpattern pattern).not

theorem isValidContainerPath_iff {containerPath : Text} :
    isValidContainerPath containerPath = true ↔ RelativePath containerPath := by
  have hcolon : ofString ":" <:+: containerPath ↔ unit ':' ∈ containerPath :=
    List.singleton_infix_iff (unit ':') containerPath
  have hblank : (containerPath = [] ∨ trimText containerPath = []) ↔ trimText containerPath = [] := by
    refine ⟨fun h => h.elim (fun hempty => ?_) id, .inr⟩
    rw [hempty]
    rfl
  simp only [isValidContainerPath, includes, decide_eq_true_eq, hcolon, hblank]
  constructor
  · intro h
    split at h
    · cases h
    · split at h
      · cases h
      · split at h
        · cases h
        · split at h
          · cases h
          · rename_i hdots hslash htrim hcolon
            exact ⟨htrim, hslash, hdots, hcolon⟩
  · intro h
    rw [if_neg h.noDots, if_neg h.relative, if_neg h.nonblank, if_neg h.noColon]

theorem checkMount_eligible {env : Env} {d : Disk Name β} {list : MountAllowlist} {mount : AdditionalMount}
    {realPath : List Name} (h : Eligible env d list mount realPath) :
    checkMount env d (some list) mount = match findAllowedRoot env d realPath list.allowedRoots with
      | none => .refused (notUnderReason env (PosixPath.text realPath) list.allowedRoots)
      | some root => .allowed (allowedReason root) realPath mount.target
          (!(mount.readonly = some false && root.allowReadWrite)) := by
  have hvalid : isValidContainerPath mount.target = true := isValidContainerPath_iff.mpr h.target
  have hblocked : matchesBlockedPattern (PosixPath.text realPath) list.blockedPatterns = none :=
    matchesBlockedPattern_none.mpr h.unblocked
  simp only [checkMount, hvalid, h.real, hblocked, Bool.not_true, Bool.false_eq_true, if_false]

/-- **What is allowed** is eligible, and a root is found for it. -/
theorem allowed_iff {env : Env} {d : Disk Name β} {allowlist : Option MountAllowlist} {mount : AdditionalMount} :
    (checkMount env d allowlist mount).isAllowed = true ↔
      ∃ list realPath root, allowlist = some list ∧ Eligible env d list mount realPath ∧
        findAllowedRoot env d realPath list.allowedRoots = some root := by
  constructor
  · intro h
    unfold checkMount at h
    cases allowlist with
    | none => cases h
    | some list =>
      dsimp only at h
      split at h
      · cases h
      · rename_i hvalid
        split at h
        · cases h
        · rename_i realPath hreal
          split at h
          · cases h
          · rename_i hblocked
            split at h
            · cases h
            · rename_i root hroot
              have htarget : isValidContainerPath mount.target = true := by simpa using hvalid
              exact ⟨list, realPath, root, rfl, ⟨hreal, matchesBlockedPattern_none.mp hblocked,
                isValidContainerPath_iff.mp htarget⟩, hroot⟩
  · rintro ⟨list, realPath, root, rfl, heligible, hroot⟩
    rw [checkMount_eligible heligible, hroot]
    rfl

/-! ### Whether the mounts are exact -/

section exact

variable {env : Env} {d : Disk Name β} {allowlist : Option MountAllowlist} {mount : AdditionalMount}

theorem belowExtra_iff {target : Text} (h : RelativePath target) :
    BelowExtra (ofString "/workspace/extra/" ++ target) ↔ ∃ c ∈ target, c ≠ unit '.' ∧ c ≠ unit '/' := by
  have hpath : ofString "/workspace/extra/" ++ target = extraDir ++ unit '/' :: target := by
    rw [show ofString "/workspace/extra/" = extraDir ++ [unit '/'] by decide, List.append_assoc]
    rfl
  have hdots : ¬ [unit '.', unit '.'] <:+: target := by
    rw [← dots_eq]
    exact h.noDots
  rw [hpath]
  exact PosixPath.below_iff hdots extraDir

theorem first_of_contains {realPath : List Name} {roots : List AllowedRoot} {root : AllowedRoot} (hmem : root ∈ roots)
    (h : Contains env d realPath root) : ∃ first, roots.find? (Contains env d realPath) = some first := by
  apply Option.isSome_iff_exists.mp
  rw [List.find?_isSome]
  exact ⟨root, hmem, decide_eq_true h⟩

theorem contains_of_found {realPath : List Name} {roots : List AllowedRoot} {root : AllowedRoot}
    (h : findAllowedRoot env d realPath roots = some root) : root ∈ roots ∧ Contains env d realPath root := by
  rw [findAllowedRoot_eq] at h
  have hroot : Contains env d realPath root ∧ ¬DotsBelow env d realPath root := by simpa using List.find?_some h
  exact ⟨List.mem_of_find?_eq_some h, hroot.1⟩

/-- The result for one request is what was asked for and is permitted. -/
structure MountExact (env : Env) (d : Disk Name β) (allowlist : Option MountAllowlist) (mount : AdditionalMount) :
    Prop where
  allowed : (checkMount env d allowlist mount).isAllowed = true ↔ Permitted env d allowlist mount
  readWrite : (checkMount env d allowlist mount).isAllowed = true →
    ((checkMount env d allowlist mount).effectiveReadonly = some false ↔ ReadWriteDue env d allowlist mount)
  below : ∀ validated ∈ (checkMount env d allowlist mount).validated, BelowExtra validated.containerPath

theorem permitted_of_allowed (h : (checkMount env d allowlist mount).isAllowed = true) :
    Permitted env d allowlist mount := by
  obtain ⟨list, realPath, root, hlist, heligible, hroot⟩ := allowed_iff.mp h
  obtain ⟨hmem, hcontains⟩ := contains_of_found hroot
  exact ⟨list, realPath, hlist, heligible, root, hmem, hcontains⟩

theorem readWriteDue_iff {list : MountAllowlist} {realPath : List Name} {first : AllowedRoot}
    (h : Eligible env d list mount realPath) (hfirst : list.allowedRoots.find? (Contains env d realPath) = some first) :
    ReadWriteDue env d (some list) mount ↔ mount.readonly = some false ∧ first.allowReadWrite = true := by
  constructor
  · rintro ⟨hreadonly, list', realPath', first', hlist, hreal, hfirst', hwrite⟩
    obtain rfl := Option.some.inj hlist
    obtain rfl := Option.some.inj (h.real.symm.trans hreal)
    obtain rfl := Option.some.inj (hfirst.symm.trans hfirst')
    exact ⟨hreadonly, hwrite⟩
  · rintro ⟨hreadonly, hwrite⟩
    exact ⟨hreadonly, list, realPath, first, rfl, h.real, hfirst, hwrite⟩

theorem exact_of_found {list : MountAllowlist} {realPath : List Name} {first found : AllowedRoot}
    (h : Eligible env d list mount realPath) (hfirst : list.allowedRoots.find? (Contains env d realPath) = some first)
    (hfound : findAllowedRoot env d realPath list.allowedRoots = some found) :
    MountExact env d (some list) mount ↔ (mount.readonly = some false → found.allowReadWrite = first.allowReadWrite) ∧
      ∃ c ∈ mount.target, c ≠ unit '.' ∧ c ≠ unit '/' := by
  have hallowed : (checkMount env d (some list) mount).isAllowed = true :=
    allowed_iff.mpr ⟨list, realPath, found, rfl, h, hfound⟩
  have hresult : checkMount env d (some list) mount = .allowed (allowedReason found) realPath mount.target
      (!(mount.readonly = some false && found.allowReadWrite)) := by
    rw [checkMount_eligible h, hfound]
  have hwrite : (checkMount env d (some list) mount).effectiveReadonly = some false ↔
      mount.readonly = some false ∧ found.allowReadWrite = true := by
    rw [hresult]
    simp [MountValidationResult.effectiveReadonly]
  have hbelow : (∀ validated ∈ (checkMount env d (some list) mount).validated, BelowExtra validated.containerPath) ↔
      ∃ c ∈ mount.target, c ≠ unit '.' ∧ c ≠ unit '/' := by
    rw [hresult, ← belowExtra_iff h.target]
    exact List.forall_mem_singleton
  have hdue := readWriteDue_iff h hfirst
  constructor
  · intro hexact
    refine ⟨fun hreadonly => ?_, hbelow.mp hexact.below⟩
    have hsame := hexact.readWrite hallowed
    rw [hwrite, hdue, and_congr_right_iff] at hsame
    exact Bool.eq_iff_iff.mpr (hsame hreadonly)
  · rintro ⟨hpermission, htarget⟩
    refine ⟨iff_of_true hallowed (permitted_of_allowed hallowed), fun _ => ?_, hbelow.mpr htarget⟩
    rw [hwrite, hdue]
    refine and_congr_right fun hreadonly => ?_
    rw [hpermission hreadonly]

/-- **One request.** -/
theorem mountExact_iff :
    MountExact env d allowlist mount ↔ ∀ list, allowlist = some list → WellPlaced env d list mount := by
  constructor
  · rintro hexact list rfl realPath first heligible hfirst
    have hmem : first ∈ list.allowedRoots := List.mem_of_find?_eq_some hfirst
    have hcontains : Contains env d realPath first := by simpa using List.find?_some hfirst
    have hallowed := hexact.allowed.mpr ⟨list, realPath, rfl, heligible, first, hmem, hcontains⟩
    obtain ⟨list', realPath', found, hlist, heligible', hfound⟩ := allowed_iff.mp hallowed
    obtain rfl := Option.some.inj hlist
    obtain rfl := Option.some.inj (heligible.real.symm.trans heligible'.real)
    obtain ⟨hpermission, htarget⟩ := (exact_of_found heligible hfirst hfound).mp hexact
    rw [findAllowedRoot_eq] at hfound
    exact ⟨⟨found, hfound, hpermission⟩, htarget⟩
  · intro hplaced
    by_cases hpermitted : Permitted env d allowlist mount
    · obtain ⟨list, realPath, rfl, heligible, root, hmem, hcontains⟩ := hpermitted
      obtain ⟨first, hfirst⟩ := first_of_contains hmem hcontains
      obtain ⟨⟨found, hfound, hpermission⟩, htarget⟩ := hplaced list rfl realPath first heligible hfirst
      rw [← findAllowedRoot_eq] at hfound
      exact (exact_of_found heligible hfirst hfound).mpr ⟨hpermission, htarget⟩
    · have hrefused : (checkMount env d allowlist mount).isAllowed ≠ true :=
        fun h => hpermitted (permitted_of_allowed h)
      refine ⟨iff_of_false hrefused hpermitted, fun h => absurd h hrefused, fun validated hvalidated => ?_⟩
      cases hresult : checkMount env d allowlist mount with
      | refused reason =>
        rw [hresult] at hvalidated
        exact absurd hvalidated List.not_mem_nil
      | allowed reason realPath target readonly => exact absurd (by rw [hresult]; rfl) hrefused

end exact

theorem validateAdditionalMounts_eq (env : Env) (d : Disk Name β) (file : AllowlistFile) (cache : Cache)
    (mounts : List AdditionalMount) : (validateAdditionalMounts env d file cache mounts).2 =
      mounts.flatMap fun mount => (checkMount env d (loadMountAllowlist cache file).2 mount).validated := by
  induction mounts generalizing cache with
  | nil => rfl
  | cons mount mounts ih =>
    have hstep : (validateAdditionalMounts env d file cache (mount :: mounts)).2 =
        (checkMount env d (loadMountAllowlist cache file).2 mount).validated ++
          (validateAdditionalMounts env d file (loadMountAllowlist cache file).1 mounts).2 := rfl
    rw [hstep, ih, load_again, List.flatMap_cons]

theorem getRealPath_node {env : Env} {d : Disk Name β} {p : Text} {realPath : List Name}
    (h : getRealPath env d p = some realPath) : ∃ x, d.node realPath = some x ∧ x.isLink = false := by
  unfold getRealPath at h
  split at h
  · cases h
  · generalize hresolved : d.realpath _ = resolved at h
    cases resolved with
    | error e => cases h
    | ok q =>
      obtain ⟨x, hx, hlink⟩ := Disk.resolve_node hresolved
      rw [← Option.some.inj h]
      exact ⟨x, hx, hlink.resolve_left (by simp)⟩

/-- **What is mounted is no link**, nor behind one: it is at its own path, and below the real path of a root. -/
theorem validated_real {env : Env} {d : Disk Name β} {file : AllowlistFile} {cache : Cache}
    {mounts : List AdditionalMount} {v : ValidatedMount} (h : v ∈ (validateAdditionalMounts env d file cache mounts).2) :
    (∃ x, d.node v.hostPath = some x ∧ x.isLink = false) ∧
      ∃ list, (loadMountAllowlist cache file).2 = some list ∧
        (∀ pattern ∈ list.blockedPatterns, ¬ pattern <:+: PosixPath.text v.hostPath) ∧
          ∃ root ∈ list.allowedRoots, Contains env d v.hostPath root := by
  rw [validateAdditionalMounts_eq] at h
  obtain ⟨mount, -, hv⟩ := List.mem_flatMap.mp h
  have hallowed : (checkMount env d (loadMountAllowlist cache file).2 mount).isAllowed = true := by
    cases hresult : checkMount env d (loadMountAllowlist cache file).2 mount with
    | refused reason =>
      rw [hresult] at hv
      exact absurd hv List.not_mem_nil
    | allowed reason realPath target readonly => rfl
  obtain ⟨list, realPath, root, hlist, heligible, hroot⟩ := allowed_iff.mp hallowed
  rw [hlist, checkMount_eligible heligible, hroot] at hv
  have hpath : v.hostPath = realPath := by rw [List.mem_singleton.mp hv]
  rw [hpath]
  exact ⟨getRealPath_node heligible.real, list, hlist, heligible.unblocked, root, contains_of_found hroot⟩

/-- A container that is spawned: the tree, what is in the allow-list's file then, and the mounts asked for. -/
structure SpawnMounts (β : Type) where
  disk : Disk Name β
  file : AllowlistFile
  mounts : List AdditionalMount

/-- What the process has read of the allow-list after the spawns. -/
def cacheAfter (env : Env) (spawns : List (SpawnMounts β)) : Cache :=
  spawns.foldl (fun cache s => (validateAdditionalMounts env s.disk s.file cache s.mounts).1) ⟨none, none⟩

/-- A list that the file held, with the default patterns added, at one of the spawns. -/
def ReadFrom (spawns : List (SpawnMounts β)) (allowlist : MountAllowlist) : Prop :=
  ∃ s ∈ spawns, ∃ object, s.file = .object object ∧ checkedAllowlist object = .ok allowlist

theorem load_readFrom {spawns : List (SpawnMounts β)} {s : SpawnMounts β} (hs : s ∈ spawns) {cache : Cache}
    (hcache : ∀ list ∈ cache.cachedAllowlist, ReadFrom spawns list) :
    (∀ list ∈ (loadMountAllowlist cache s.file).2, ReadFrom spawns list) ∧
      ∀ list ∈ (loadMountAllowlist cache s.file).1.cachedAllowlist, ReadFrom spawns list := by
  unfold loadMountAllowlist
  split
  · rename_i hcached
    exact ⟨hcached ▸ hcache, hcache⟩
  · exact ⟨by simp, hcache⟩
  · split
    · exact ⟨by simp, hcache⟩
    · simp
    · rename_i object hfile
      cases hchecked : checkedAllowlist object with
      | error message => simp
      | ok allowlist =>
        have hfrom : ∀ list ∈ some allowlist, ReadFrom spawns list := by
          intro list hlist
          rw [← Option.some.inj hlist]
          exact ⟨s, hs, object, hfile, hchecked⟩
        exact ⟨hfrom, hfrom⟩

theorem validated_readFrom {env : Env} {spawns : List (SpawnMounts β)} {s : SpawnMounts β} (hs : s ∈ spawns)
    (mounts : List AdditionalMount) {cache : Cache} (hcache : ∀ list ∈ cache.cachedAllowlist, ReadFrom spawns list) :
    ∀ list ∈ (validateAdditionalMounts env s.disk s.file cache mounts).1.cachedAllowlist, ReadFrom spawns list := by
  induction mounts generalizing cache with
  | nil => exact hcache
  | cons mount mounts ih => exact ih (load_readFrom hs hcache).2

theorem cacheAfter_readFrom (env : Env) (spawns : List (SpawnMounts β)) :
    ∀ list ∈ (cacheAfter env spawns).cachedAllowlist, ReadFrom spawns list := by
  have hfrom : ∀ (later : List (SpawnMounts β)) cache, later ⊆ spawns →
      (∀ list ∈ cache.cachedAllowlist, ReadFrom spawns list) →
      ∀ list ∈ (later.foldl (fun cache s => (validateAdditionalMounts env s.disk s.file cache s.mounts).1)
        cache).cachedAllowlist, ReadFrom spawns list := by
    intro later
    induction later with
    | nil => exact fun cache _ hcache => hcache
    | cons s later ih =>
      intro cache hsub hcache
      have hs : s ∈ spawns := hsub List.mem_cons_self
      exact ih _ (fun s' hs' => hsub (List.mem_cons_of_mem s hs')) (validated_readFrom hs s.mounts hcache)
  exact hfrom spawns ⟨none, none⟩ (List.Subset.refl spawns) (by simp)

/-- What the last of the spawns mounts is no link, has no default pattern in its path, and is at or below a root of a
list that the file held. -/
def MountsConfined (env : Env) (spawns : List (SpawnMounts β)) (s : SpawnMounts β) : Prop :=
  ∀ v ∈ (validateAdditionalMounts env s.disk s.file (cacheAfter env spawns) s.mounts).2,
    (∃ x, s.disk.node v.hostPath = some x ∧ x.isLink = false) ∧
    (∀ pattern ∈ DEFAULT_BLOCKED_PATTERNS, ¬ pattern <:+: PosixPath.text v.hostPath) ∧
    ∃ list, ReadFrom (spawns ++ [s]) list ∧ ∃ root ∈ list.allowedRoots, Contains env s.disk v.hostPath root

/-- **No spawn of the process mounts anything else**, whatever is in the file and on the disk at each. -/
theorem mounts_confined (env : Env) (spawns : List (SpawnMounts β)) (s : SpawnMounts β) :
    MountsConfined env spawns s := by
  intro v hv
  obtain ⟨hnode, list, hlist, hblocked, hroot⟩ := validated_real hv
  have hcache : ∀ list ∈ (cacheAfter env spawns).cachedAllowlist, ReadFrom (spawns ++ [s]) list := by
    intro list hlist
    obtain ⟨s', hs', hread⟩ := cacheAfter_readFrom env spawns list hlist
    exact ⟨s', List.mem_append_left _ hs', hread⟩
  have hfrom : ReadFrom (spawns ++ [s]) list :=
    (load_readFrom (List.mem_append_right _ List.mem_cons_self) hcache).1 list hlist
  obtain ⟨s', hs', object, hfile, hchecked⟩ := hfrom
  exact ⟨hnode, fun pattern hpattern => hblocked pattern (checked_blocks hchecked pattern hpattern), list,
    ⟨s', hs', object, hfile, hchecked⟩, hroot⟩

/-- **Mount validation is exact** for a list of requests exactly when each is well placed. -/
theorem mounts_exact_iff (env : Env) (d : Disk Name β) (file : AllowlistFile) (cache : Cache)
    (mounts : List AdditionalMount) : MountsExact env d file cache mounts ↔
      ∀ mount ∈ mounts, ∀ list, (loadMountAllowlist cache file).2 = some list → WellPlaced env d list mount := by
  have hone : ∀ mount, (∀ list, (loadMountAllowlist cache file).2 = some list → WellPlaced env d list mount) ↔
      MountExact env d (loadMountAllowlist cache file).2 mount := fun mount => mountExact_iff.symm
  simp only [hone]
  constructor
  · intro h mount hmount
    refine ⟨h.allowed mount hmount, h.readWrite mount hmount, fun validated hvalidated => ?_⟩
    apply h.below
    rw [validateAdditionalMounts_eq]
    exact List.mem_flatMap.mpr ⟨mount, hmount, hvalidated⟩
  · intro h
    refine ⟨fun mount hmount => (h mount hmount).allowed, fun mount hmount => (h mount hmount).readWrite,
      fun validated hvalidated => ?_⟩
    rw [validateAdditionalMounts_eq] at hvalidated
    obtain ⟨mount, hmount, hmem⟩ := List.mem_flatMap.mp hvalidated
    exact (h mount hmount).below validated hmem

def sampleEnv : Env := ⟨some (ofString "/root"), ofString "/root", [], ofString "/root/mount-allowlist.json"⟩

def nameOf (s : String) (h : PosixPath.IsName (unit '/') (unit '.') (ofString s)) : Name := ⟨ofString s, h⟩

/-- `/srv/..data`. -/
def sampleDisk : Disk Name Unit :=
  Disk.ofEntries (fun _ => true) 40 [([nameOf "srv" (by decide)], .dir),
    ([nameOf "srv" (by decide), nameOf "..data" (by decide)], .dir)] (by decide)

/-- The first root is for reading only. -/
def sampleFile : AllowlistFile :=
  .object ⟨some [⟨ofString "/srv", false, none⟩, ⟨ofString "/srv/..data", true, none⟩], some []⟩

def sampleMount : AdditionalMount := ⟨ofString "/srv/..data", some (ofString "data"), some false⟩

/-- **A directory of `/srv` that begins with two dots is not found below it**: a later root lets it be written. -/
theorem dotted_root_passed_over : ¬∀ (env : Env) (d : Disk Name Unit) (file : AllowlistFile) (cache : Cache)
    (mounts : List AdditionalMount), MountsExact env d file cache mounts := by
  intro h
  have hexact := h sampleEnv sampleDisk sampleFile ⟨none, none⟩ [sampleMount]
  have hallowed : (validateMount sampleEnv sampleDisk sampleFile ⟨none, none⟩ sampleMount).2.isAllowed = true := by
    decide
  have hwrite : (validateMount sampleEnv sampleDisk sampleFile ⟨none, none⟩ sampleMount).2.effectiveReadonly =
      some false := by decide
  have hfirst : ((loadMountAllowlist ⟨none, none⟩ sampleFile).2.bind fun list =>
      (getRealPath sampleEnv sampleDisk (expandPath sampleEnv sampleMount.hostPath)).bind fun realPath =>
        list.allowedRoots.find? (Contains sampleEnv sampleDisk realPath)).all (fun root => !root.allowReadWrite) =
      true := by decide
  obtain ⟨-, list, realPath, root, hlist, hreal, hroot, hpermits⟩ :=
    (hexact.readWrite sampleMount List.mem_cons_self hallowed).mp hwrite
  rw [hlist, Option.bind_some, hreal, Option.bind_some, hroot, Option.all_some, hpermits] at hfirst
  cases hfirst

end AgentDesk.MountSecurity
