/-
# File trees with symbolic links

A file system as the calls of a program see it: what is at each path that goes through no link. That the root is
a directory, and that what is somewhere is in a directory, are fields of `Disk`, so that no call can leave a file
behind whose directory is gone.

A call names its file by a path, that is followed name by name from the root. A link on the way is replaced by
its target, with at most `maxLinks` replacements, and `..` is the directory above the one that was reached. The
last name is followed too, or not, as the call has it. What is reached has a path without links, its real path.

* `Disk.realpath_of_lstat`: a path whose last name is no link leads into the directory that the rest of it leads to.
* `Disk.Le.resolve`: in a larger tree a path still leads where it led.
* `Disk.create_ok`, `Disk.mkdirs_ok`, `Disk.remove_node`: what each change leaves where.

Names and contents are arbitrary types. A name can be too long; that a whole path can be is left out, as are
permissions, hard links and changes by others.
-/
import Mathlib.Data.List.Infix

namespace FileTree

/-- A component of a path that a link names. -/
inductive PathPart (ν : Type) where
  | here
  | up
  | name (n : ν)
  deriving DecidableEq

/-- What is at a path. -/
inductive Node (ν β : Type) where
  | dir
  | file (bytes : β)
  | link (absolute : Bool) (target : List (PathPart ν))
  /-- A socket, a pipe or a device. -/
  | special
  deriving DecidableEq

/-- Why a call fails. -/
inductive Errno where
  | enoent | enotdir | eexist | eisdir | eloop | enametoolong | einval
  deriving DecidableEq, Repr

structure Disk (ν β : Type) where
  node : List ν → Option (Node ν β)
  /-- The names that are not too long for the file system. -/
  fits : ν → Bool
  maxLinks : ℕ
  root : node [] = some .dir
  parent : ∀ p n x, node (p ++ [n]) = some x → node p = some .dir
  short : ∀ p n x, node (p ++ [n]) = some x → fits n = true

def Node.isLink {ν β : Type} : Node ν β → Bool
  | .link _ _ => true
  | _ => false

/-- The node with other bytes. -/
def Node.recode {ν β : Type} (g : β → β) : Node ν β → Node ν β
  | .file bytes => .file (g bytes)
  | x => x

variable {ν β : Type}

instance (o : Option (Node ν β)) : Decidable (o = some .dir) :=
  match o with
  | some .dir => isTrue rfl
  | none | some (.file _) | some (.link _ _) | some .special => isFalse (by simp)

namespace Disk

/-! ### Following a path -/

/-- Follow the parts from a directory. After a link, `again` goes on with its target. -/
def follow (d : Disk ν β) (last : Bool) (again : List ν → List (PathPart ν) → Except Errno (List ν)) :
    List ν → List (PathPart ν) → Except Errno (List ν)
  | dir, [] => .ok dir
  | dir, .here :: rest => d.follow last again dir rest
  | dir, .up :: rest => d.follow last again dir.dropLast rest
  | dir, .name n :: rest => match d.node (dir ++ [n]) with
    | none => .error .enoent
    | some .dir => d.follow last again (dir ++ [n]) rest
    | some (.link absolute target) =>
      if rest.isEmpty && !last then .ok (dir ++ [n]) else again (if absolute then [] else dir) (target ++ rest)
    | some _ => if rest.isEmpty then .ok (dir ++ [n]) else .error .enotdir

/-- Follow the parts, through so many links at most. -/
def walk (d : Disk ν β) (last : Bool) : ℕ → List ν → List (PathPart ν) → Except Errno (List ν)
  | 0 => d.follow last fun _ _ => .error .eloop
  | links + 1 => d.follow last (d.walk last links)

/-- The real path of what an absolute path names; `last` says whether its last name is followed. -/
def resolve (d : Disk ν β) (last : Bool) (p : List ν) : Except Errno (List ν) :=
  d.walk last d.maxLinks [] (p.map .name)

/-- `realpath`. -/
def realpath (d : Disk ν β) (p : List ν) : Except Errno (List ν) := d.resolve true p

/-- `lstat`: what is there, a link unfollowed. -/
def lstat (d : Disk ν β) (p : List ν) : Except Errno (Node ν β) :=
  (d.resolve false p).bind fun q => match d.node q with
    | some x => .ok x
    | none => .error .enoent

/-- Something is there, after all links. -/
def exists' (d : Disk ν β) (p : List ν) : Bool := (d.realpath p).isOk

/-- `stat`: what is there, after all links. -/
def stat (d : Disk ν β) (p : List ν) : Except Errno (Node ν β) :=
  (d.realpath p).bind fun q => match d.node q with
    | some x => .ok x
    | none => .error .enoent

def isDir (d : Disk ν β) (p : List ν) : Bool :=
  match d.stat p with
  | .ok .dir => true
  | _ => false

def readFile (d : Disk ν β) (p : List ν) : Except Errno β :=
  (d.stat p).bind fun x => match x with
    | .file bytes => .ok bytes
    | .dir => .error .eisdir
    | _ => .error .einval

end Disk

/-! ### Where a path leads -/

theorem node_above (d : Disk ν β) {p q : List ν} {x : Node ν β} (h : d.node (p ++ q) = some x) (hq : q ≠ []) :
    d.node p = some .dir := by
  induction q using List.reverseRecOn generalizing x with
  | nil => exact absurd rfl hq
  | append_singleton q n ih =>
    rw [← List.append_assoc] at h
    have hdir := d.parent _ _ _ h
    cases q with
    | nil => simpa using hdir
    | cons m q => exact ih hdir (List.cons_ne_nil _ _)

theorem node_below (d : Disk ν β) {p : List ν} (h : d.node p = none) (q : List ν) : d.node (p ++ q) = none := by
  by_contra hsome
  obtain ⟨x, hx⟩ := Option.ne_none_iff_exists'.mp hsome
  by_cases hq : q = []
  · rw [hq, List.append_nil, h] at hx
    cases hx
  · rw [node_above d hx hq] at h
    cases h

section walk

variable (d : Disk ν β)

theorem walk_nil (last : Bool) (links : ℕ) (dir : List ν) : d.walk last links dir [] = .ok dir := by
  cases links <;> rfl

theorem walk_here (last : Bool) (links : ℕ) (dir : List ν) (rest : List (PathPart ν)) :
    d.walk last links dir (.here :: rest) = d.walk last links dir rest := by
  cases links <;> rfl

theorem walk_up (last : Bool) (links : ℕ) (dir : List ν) (rest : List (PathPart ν)) :
    d.walk last links dir (.up :: rest) = d.walk last links dir.dropLast rest := by
  cases links <;> rfl

variable {d}

theorem walk_none {last : Bool} {links : ℕ} {dir : List ν} {n : ν} {rest : List (PathPart ν)}
    (h : d.node (dir ++ [n]) = none) : d.walk last links dir (.name n :: rest) = .error .enoent := by
  cases links <;> simp only [Disk.walk, Disk.follow, h]

theorem walk_dir {last : Bool} {links : ℕ} {dir : List ν} {n : ν} {rest : List (PathPart ν)}
    (h : d.node (dir ++ [n]) = some .dir) :
    d.walk last links dir (.name n :: rest) = d.walk last links (dir ++ [n]) rest := by
  cases links <;> simp only [Disk.walk, Disk.follow, h]

theorem walk_link {last : Bool} {links : ℕ} {dir : List ν} {n : ν} {rest : List (PathPart ν)} {absolute : Bool}
    {target : List (PathPart ν)} (h : d.node (dir ++ [n]) = some (.link absolute target)) :
    d.walk last links dir (.name n :: rest) =
      if rest.isEmpty && !last then .ok (dir ++ [n])
      else match links with
        | 0 => .error .eloop
        | links + 1 => d.walk last links (if absolute then [] else dir) (target ++ rest) := by
  cases links <;> simp only [Disk.walk, Disk.follow, h]

theorem walk_leaf {last : Bool} {links : ℕ} {dir : List ν} {n : ν} {rest : List (PathPart ν)} {x : Node ν β}
    (h : d.node (dir ++ [n]) = some x) (hdir : x ≠ .dir) (hlink : x.isLink = false) :
    d.walk last links dir (.name n :: rest) = if rest.isEmpty then .ok (dir ++ [n]) else .error .enotdir := by
  cases x with
  | dir => exact absurd rfl hdir
  | link absolute target => cases hlink
  | file bytes => cases links <;> simp only [Disk.walk, Disk.follow, h]
  | special => cases links <;> simp only [Disk.walk, Disk.follow, h]

end walk

theorem node_cases (d : Disk ν β) (p : List ν) :
    d.node p = none ∨ d.node p = some .dir ∨ (∃ absolute target, d.node p = some (.link absolute target)) ∨
      ∃ x, d.node p = some x ∧ x ≠ .dir ∧ x.isLink = false := by
  cases h : d.node p with
  | none => exact .inl rfl
  | some x => cases x with
    | dir => exact .inr (.inl rfl)
    | link absolute target => exact .inr (.inr (.inl ⟨absolute, target, rfl⟩))
    | file bytes => exact .inr (.inr (.inr ⟨_, rfl, by simp, rfl⟩))
    | special => exact .inr (.inr (.inr ⟨_, rfl, by simp, rfl⟩))

/-- A path leads, with so many links, from a directory to a real path. -/
inductive Reaches (d : Disk ν β) (last : Bool) : ℕ → List ν → List (PathPart ν) → List ν → Prop
  | nil {links dir} : Reaches d last links dir [] dir
  | here {links dir rest q} (h : Reaches d last links dir rest q) : Reaches d last links dir (.here :: rest) q
  | up {links dir rest q} (h : Reaches d last links dir.dropLast rest q) : Reaches d last links dir (.up :: rest) q
  | dir {links dir n rest q} (hnode : d.node (dir ++ [n]) = some .dir)
      (h : Reaches d last links (dir ++ [n]) rest q) : Reaches d last links dir (.name n :: rest) q
  | leaf {links dir n x} (hnode : d.node (dir ++ [n]) = some x) (hdir : x ≠ .dir)
      (hlink : last = false ∨ x.isLink = false) : Reaches d last links dir [.name n] (dir ++ [n])
  | link {links dir n rest q absolute target} (hnode : d.node (dir ++ [n]) = some (.link absolute target))
      (hlast : rest ≠ [] ∨ last = true)
      (h : Reaches d last links (if absolute then [] else dir) (target ++ rest) q) :
      Reaches d last (links + 1) dir (.name n :: rest) q

theorem reaches_of_walk {d : Disk ν β} {last : Bool} {q : List ν} :
    ∀ {links : ℕ} {parts : List (PathPart ν)} {dir : List ν},
      d.walk last links dir parts = .ok q → Reaches d last links dir parts q := by
  intro links
  induction links using Nat.strong_induction_on with
  | _ links ihlinks =>
  intro parts
  induction parts with
  | nil =>
    intro dir h
    rw [walk_nil] at h
    cases h
    exact .nil
  | cons part rest ih =>
    intro dir h
    cases part with
    | here => exact .here (ih (by rwa [walk_here] at h))
    | up => exact .up (ih (by rwa [walk_up] at h))
    | name n =>
      rcases node_cases d (dir ++ [n]) with hnode | hnode | ⟨absolute, target, hnode⟩ | ⟨x, hnode, hdir, hlink⟩
      · rw [walk_none hnode] at h
        cases h
      · exact .dir hnode (ih (by rwa [walk_dir hnode] at h))
      · rw [walk_link hnode] at h
        by_cases hlast : (rest.isEmpty && !last) = true
        · rw [if_pos hlast] at h
          cases h
          simp only [Bool.and_eq_true, List.isEmpty_iff, Bool.not_eq_true'] at hlast
          obtain ⟨rfl, rfl⟩ := hlast
          exact .leaf hnode (by simp) (.inl rfl)
        · rw [if_neg hlast] at h
          cases links with
          | zero => cases h
          | succ links =>
            have hfollowed : rest ≠ [] ∨ last = true := by
              rcases rest with - | ⟨r, rest⟩
              · cases last with
                | false => exact absurd rfl hlast
                | true => exact .inr rfl
              · exact .inl (List.cons_ne_nil _ _)
            exact .link hnode hfollowed (ihlinks links (Nat.lt_succ_self _) h)
      · rw [walk_leaf hnode hdir hlink] at h
        by_cases hrest : rest.isEmpty = true
        · rw [if_pos hrest] at h
          cases h
          rw [List.isEmpty_iff.mp hrest]
          exact .leaf hnode hdir (.inr hlink)
        · rw [if_neg hrest] at h
          cases h

theorem walk_of_reaches {d : Disk ν β} {last : Bool} {links : ℕ} {dir q : List ν} {parts : List (PathPart ν)}
    (h : Reaches d last links dir parts q) : d.walk last links dir parts = .ok q := by
  induction h with
  | nil => exact walk_nil ..
  | here _ ih => rwa [walk_here]
  | up _ ih => rwa [walk_up]
  | dir hnode _ ih => rwa [walk_dir hnode]
  | @leaf links dir n x hnode hdir hlink =>
    by_cases hx : x.isLink = true
    · have hlast : last = false := hlink.resolve_right (by simp [hx])
      cases x with
      | link absolute target => rw [walk_link hnode, if_pos (by simp [hlast])]
      | _ => cases hx
    · rw [walk_leaf hnode hdir (by simpa using hx)]
      rfl
  | @link links dir n rest q absolute target hnode hlast _ ih =>
    have hfollowed : ¬(rest.isEmpty && !last) = true := by
      simp only [Bool.and_eq_true, List.isEmpty_iff, Bool.not_eq_true', not_and_or, Bool.not_eq_false]
      exact hlast
    rw [walk_link hnode, if_neg hfollowed]
    exact ih

/-- `walk` finds what is reached. -/
theorem walk_iff {d : Disk ν β} {last : Bool} {links : ℕ} {dir q : List ν} {parts : List (PathPart ν)} :
    d.walk last links dir parts = .ok q ↔ Reaches d last links dir parts q :=
  ⟨reaches_of_walk, walk_of_reaches⟩

theorem Reaches.snoc {d : Disk ν β} {last : Bool} {links : ℕ} {dir q : List ν} {all parts : List (PathPart ν)} {n : ν}
    (h : Reaches d last links dir all q) (hall : all = parts ++ [.name n]) :
    ∃ r x, Reaches d true links dir parts r ∧ d.node (r ++ [n]) = some x ∧
      (last = false ∨ x.isLink = false → q = r ++ [n]) := by
  induction h generalizing parts with
  | nil => exact absurd hall.symm (by simp)
  | here _ ih =>
    cases parts with
    | nil => cases hall
    | cons part parts =>
      obtain ⟨rfl, hrest⟩ := List.cons.inj hall
      obtain ⟨r, x, hr, hx⟩ := ih hrest
      exact ⟨r, x, .here hr, hx⟩
  | up _ ih =>
    cases parts with
    | nil => cases hall
    | cons part parts =>
      obtain ⟨rfl, hrest⟩ := List.cons.inj hall
      obtain ⟨r, x, hr, hx⟩ := ih hrest
      exact ⟨r, x, .up hr, hx⟩
  | @dir links dir m rest q hnode h ih =>
    cases parts with
    | nil =>
      cases hall
      cases h
      exact ⟨dir, _, .nil, hnode, fun _ => rfl⟩
    | cons part parts =>
      obtain ⟨rfl, hrest⟩ := List.cons.inj hall
      obtain ⟨r, x, hr, hx⟩ := ih hrest
      exact ⟨r, x, .dir hnode hr, hx⟩
  | @leaf links dir m x hnode hdir hlink =>
    cases parts with
    | nil =>
      cases hall
      exact ⟨dir, x, .nil, hnode, fun _ => rfl⟩
    | cons part parts => exact absurd (List.cons.inj hall).2.symm (by simp)
  | @link links dir m rest q absolute target hnode hlast _ ih =>
    cases parts with
    | nil =>
      cases hall
      exact ⟨dir, _, .nil, hnode, fun hstop => absurd hstop (by simpa [Node.isLink] using hlast)⟩
    | cons part parts =>
      obtain ⟨rfl, rfl⟩ := List.cons.inj hall
      obtain ⟨r, x, hr, hx⟩ := ih (List.append_assoc _ _ _).symm
      exact ⟨r, x, .link hnode (.inr rfl) hr, hx⟩

theorem Reaches.concat {d : Disk ν β} {last : Bool} {links : ℕ} {dir r : List ν} {parts : List (PathPart ν)} {n : ν}
    {x : Node ν β} (h : Reaches d true links dir parts r) (hnode : d.node (r ++ [n]) = some x)
    (hlink : last = false ∨ x.isLink = false) : Reaches d last links dir (parts ++ [.name n]) (r ++ [n]) := by
  induction h with
  | nil =>
    by_cases hx : x = .dir
    · subst hx
      exact .dir hnode .nil
    · exact .leaf hnode hx hlink
  | here _ ih => exact .here (ih hnode)
  | up _ ih => exact .up (ih hnode)
  | dir hdir _ ih => exact .dir hdir (ih hnode)
  | leaf hleaf hdir _ =>
    have hparent := d.parent _ _ _ hnode
    rw [hleaf, Option.some.injEq] at hparent
    exact absurd hparent hdir
  | link hfirst _ _ ih =>
    have hrest := ih hnode
    rw [List.append_assoc] at hrest
    exact .link hfirst (.inl (by simp)) hrest

theorem node_dropLast (d : Disk ν β) {p : List ν} (h : d.node p = some .dir) : d.node p.dropLast = some .dir := by
  rcases List.eq_nil_or_concat p with rfl | ⟨p, n, rfl⟩
  · exact h
  · rw [List.concat_eq_append] at h ⊢
    rw [List.dropLast_concat]
    exact d.parent _ _ _ h

/-- Something is where a path leads, and no link if the last name was followed. -/
theorem Reaches.node {d : Disk ν β} {last : Bool} {links : ℕ} {dir q : List ν} {parts : List (PathPart ν)}
    (h : Reaches d last links dir parts q) (hdir : d.node dir = some .dir) :
    ∃ x, d.node q = some x ∧ (last = false ∨ x.isLink = false) := by
  induction h with
  | nil => exact ⟨_, hdir, .inr rfl⟩
  | here _ ih => exact ih hdir
  | up _ ih => exact ih (node_dropLast d hdir)
  | dir hnode _ ih => exact ih hnode
  | leaf hnode _ hlink => exact ⟨_, hnode, hlink⟩
  | @link _ dir _ _ _ absolute _ _ _ _ ih =>
    have hstart : d.node (if absolute then [] else dir) = some .dir := by
      split
      · exact d.root
      · exact hdir
    exact ih hstart

theorem Reaches.real {d : Disk ν β} {last : Bool} {links : ℕ} {x : Node ν β} (hlink : last = false ∨ x.isLink = false) :
    ∀ {names start : List ν}, d.node (start ++ names) = some x →
      Reaches d last links start (names.map .name) (start ++ names)
  | [], start, _ => by
    rw [List.append_nil]
    exact .nil
  | n :: names, start, h => by
    rw [show start ++ n :: names = (start ++ [n]) ++ names by simp] at h ⊢
    by_cases hnames : names = []
    · subst hnames
      rw [List.append_nil] at h ⊢
      by_cases hx : x = .dir
      · subst hx
        exact .dir h .nil
      · exact .leaf h hx hlink
    · exact .dir (node_above d h hnames) (Reaches.real hlink h)

/-! ### Larger trees -/

/-- All that is in one tree is in the other. -/
structure Disk.Le (d d' : Disk ν β) : Prop where
  node : ∀ p x, d.node p = some x → d'.node p = some x
  fits : d'.fits = d.fits
  maxLinks : d'.maxLinks = d.maxLinks

namespace Disk.Le

variable {d d' d'' : Disk ν β}

theorem refl (d : Disk ν β) : d.Le d := ⟨fun _ _ h => h, rfl, rfl⟩

theorem trans (h : d.Le d') (h' : d'.Le d'') : d.Le d'' :=
  ⟨fun p x hx => h'.node p x (h.node p x hx), h'.fits.trans h.fits, h'.maxLinks.trans h.maxLinks⟩

theorem node_none (h : d.Le d') {p : List ν} (hp : d'.node p = none) : d.node p = none := by
  by_contra hsome
  obtain ⟨x, hx⟩ := Option.ne_none_iff_exists'.mp hsome
  rw [h.node p x hx] at hp
  cases hp

theorem reaches (h : d.Le d') {last : Bool} {links : ℕ} {dir q : List ν} {parts : List (PathPart ν)}
    (hq : Reaches d last links dir parts q) : Reaches d' last links dir parts q := by
  induction hq with
  | nil => exact .nil
  | here _ ih => exact .here ih
  | up _ ih => exact .up ih
  | dir hnode _ ih => exact .dir (h.node _ _ hnode) ih
  | leaf hnode hdir hlink => exact .leaf (h.node _ _ hnode) hdir hlink
  | link hnode hlast _ ih => exact .link (h.node _ _ hnode) hlast ih

end Disk.Le

namespace Disk

/-! ### Real paths -/

theorem resolve_iff {d : Disk ν β} {last : Bool} {p q : List ν} :
    d.resolve last p = .ok q ↔ Reaches d last d.maxLinks [] (p.map .name) q := walk_iff

theorem Le.resolve {d d' : Disk ν β} (h : d.Le d') {last : Bool} {p q : List ν} (hq : d.resolve last p = .ok q) :
    d'.resolve last p = .ok q := by
  rw [resolve_iff] at hq ⊢
  rw [h.maxLinks]
  exact h.reaches hq

theorem bind_ok_iff {α γ : Type} {e : Except Errno α} {f : α → Except Errno γ} {c : γ} :
    e.bind f = .ok c ↔ ∃ a, e = .ok a ∧ f a = .ok c := by
  cases e with
  | ok a => exact ⟨fun h => ⟨a, rfl, h⟩, fun ⟨_, ha, h⟩ => by cases ha; exact h⟩
  | error _ => exact ⟨fun h => (nomatch h), fun ⟨_, ha, _⟩ => (nomatch ha)⟩

theorem found_iff {x : Option (Node ν β)} {y : Node ν β} :
    (match x with | some x => Except.ok x | none => .error Errno.enoent) = .ok y ↔ x = some y := by
  cases x <;> simp

theorem lstat_iff {d : Disk ν β} {p : List ν} {x : Node ν β} :
    d.lstat p = .ok x ↔ ∃ q, d.resolve false p = .ok q ∧ d.node q = some x := by
  unfold lstat
  simp only [bind_ok_iff, found_iff]

theorem stat_iff {d : Disk ν β} {p : List ν} {x : Node ν β} :
    d.stat p = .ok x ↔ ∃ q, d.realpath p = .ok q ∧ d.node q = some x := by
  unfold stat
  simp only [bind_ok_iff, found_iff]

theorem exists_iff {d : Disk ν β} {p : List ν} : d.exists' p = true ↔ ∃ q, d.realpath p = .ok q := by
  unfold exists'
  cases d.realpath p with
  | ok q => exact ⟨fun _ => ⟨q, rfl⟩, fun _ => rfl⟩
  | error e => exact ⟨fun h => (nomatch h), fun ⟨_, h⟩ => (nomatch h)⟩

theorem isDir_iff {d : Disk ν β} {p : List ν} : d.isDir p = true ↔ d.stat p = .ok .dir := by
  unfold isDir
  split
  · simp [*]
  · rename_i hdir
    exact ⟨fun h => (nomatch h), fun h => absurd h hdir⟩

theorem readFile_iff {d : Disk ν β} {p : List ν} {bytes : β} :
    d.readFile p = .ok bytes ↔ ∃ q, d.realpath p = .ok q ∧ d.node q = some (.file bytes) := by
  unfold readFile
  rw [bind_ok_iff, ← stat_iff]
  constructor
  · rintro ⟨x, hx, hfile⟩
    cases x with
    | file b =>
      cases hfile
      exact hx
    | _ => cases hfile
  · exact fun h => ⟨_, h, rfl⟩

theorem resolve_snoc {d : Disk ν β} {last : Bool} {p q : List ν} {n : ν} (h : d.resolve last (p ++ [n]) = .ok q) :
    ∃ r x, d.realpath p = .ok r ∧ d.node (r ++ [n]) = some x ∧ (last = false ∨ x.isLink = false → q = r ++ [n]) := by
  have hreach := resolve_iff.mp h
  rw [List.map_append] at hreach
  obtain ⟨r, x, hr, hx, hq⟩ := hreach.snoc rfl
  exact ⟨r, x, resolve_iff.mpr hr, hx, hq⟩

theorem resolve_concat {d : Disk ν β} {last : Bool} {p r : List ν} {n : ν} {x : Node ν β} (hr : d.realpath p = .ok r)
    (hx : d.node (r ++ [n]) = some x) (hlink : last = false ∨ x.isLink = false) :
    d.resolve last (p ++ [n]) = .ok (r ++ [n]) := by
  refine resolve_iff.mpr ?_
  rw [List.map_append]
  exact (resolve_iff.mp hr).concat hx hlink

theorem exists_free {d : Disk ν β} {p r : List ν} {n : ν} (hr : d.realpath p = .ok r)
    (hfree : d.node (r ++ [n]) = none) :
    d.exists' (p ++ [n]) = false := by
  refine Bool.eq_false_iff.mpr fun hexists => ?_
  obtain ⟨q, hq⟩ := exists_iff.mp hexists
  obtain ⟨r', x, hr', hx, -⟩ := resolve_snoc hq
  cases hr.symm.trans hr'
  cases hfree.symm.trans hx

/-- **An entry that is no link** is at its name in the real directory. -/
theorem realpath_of_lstat {d : Disk ν β} {p r : List ν} {n : ν} {x : Node ν β} (h : d.lstat (p ++ [n]) = .ok x)
    (hlink : x.isLink = false) (hr : d.realpath p = .ok r) :
    d.node (r ++ [n]) = some x ∧ d.realpath (p ++ [n]) = .ok (r ++ [n]) := by
  obtain ⟨q, hq, hx⟩ := lstat_iff.mp h
  obtain ⟨r', y, hr', hy, hqr⟩ := resolve_snoc hq
  cases hqr (.inl rfl)
  cases hr'.symm.trans hr
  cases hx.symm.trans hy
  exact ⟨hx, resolve_concat hr hx (.inr hlink)⟩

theorem resolve_real {d : Disk ν β} {last : Bool} {q : List ν} {x : Node ν β} (hx : d.node q = some x)
    (hlink : last = false ∨ x.isLink = false) : d.resolve last q = .ok q :=
  resolve_iff.mpr (Reaches.real hlink (show d.node ([] ++ q) = some x from hx))

theorem realpath_dir {d : Disk ν β} {q : List ν} (h : d.node q = some .dir) : d.realpath q = .ok q :=
  resolve_real h (.inr rfl)

theorem resolve_node {d : Disk ν β} {last : Bool} {p q : List ν} (h : d.resolve last p = .ok q) :
    ∃ x, d.node q = some x ∧ (last = false ∨ x.isLink = false) :=
  (resolve_iff.mp h).node d.root

theorem real_of_resolve {d : Disk ν β} {last : Bool} {p q : List ν} {x : Node ν β} (h : d.resolve last p = .ok q)
    (hx : d.node p = some x) (hlink : last = false ∨ x.isLink = false) : q = p := by
  cases (resolve_real hx hlink).symm.trans h
  rfl

/-! ### Changes -/

section changes

variable [DecidableEq ν]

/-- A new entry in a directory. -/
def add (d : Disk ν β) (r : List ν) (n : ν) (x : Node ν β) (hdir : d.node r = some .dir)
    (hfree : d.node (r ++ [n]) = none) (hfits : d.fits n = true) : Disk ν β where
  node q := if q = r ++ [n] then some x else d.node q
  fits := d.fits
  maxLinks := d.maxLinks
  root := by simpa using d.root
  parent p m y h := by
    have hold : p ≠ r ++ [n] := by
      rintro rfl
      rw [if_neg (by simp)] at h
      have hnone := node_below d hfree [m]
      rw [h] at hnone
      cases hnone
    rw [if_neg hold]
    by_cases hnew : p ++ [m] = r ++ [n]
    · rwa [(List.append_inj' hnew rfl).1]
    · rw [if_neg hnew] at h
      exact d.parent p m y h
  short p m y h := by
    by_cases hnew : p ++ [m] = r ++ [n]
    · cases (List.append_inj' hnew rfl).2
      exact hfits
    · rw [if_neg hnew] at h
      exact d.short p m y h

/-- What a list of entries has at a path. -/
def entryAt (entries : List (List ν × Node ν β)) (p : List ν) : Option (Node ν β) :=
  if p = [] then some .dir else (entries.find? fun e => e.1 = p).map (·.2)

/-- Each entry is in a directory that is listed too, under a name that fits. -/
def wellPlaced (fits : ν → Bool) (entries : List (List ν × Node ν β)) : Bool :=
  entries.all fun e => decide (entryAt entries e.1.dropLast = some .dir) && e.1.getLast?.all fits

/-- The tree of the entries that are listed. -/
def ofEntries (fits : ν → Bool) (maxLinks : ℕ) (entries : List (List ν × Node ν β))
    (h : wellPlaced fits entries = true) : Disk ν β :=
  have hplaced : ∀ p n x, entryAt entries (p ++ [n]) = some x →
      entryAt entries p = some .dir ∧ fits n = true := by
    intro p n x hx
    unfold entryAt at hx
    rw [if_neg (by simp)] at hx
    obtain ⟨e, he, -⟩ := Option.map_eq_some_iff.mp hx
    have hpath : e.1 = p ++ [n] := by simpa using List.find?_some he
    have hentry := List.all_eq_true.mp h e (List.mem_of_find?_eq_some he)
    simpa [hpath] using hentry
  { node := entryAt entries
    fits := fits
    maxLinks := maxLinks
    root := if_pos rfl
    parent := fun p n x hx => (hplaced p n x hx).1
    short := fun p n x hx => (hplaced p n x hx).2 }

/-- Everything at and below a path is gone. -/
def prune (d : Disk ν β) (q : List ν) (hq : q ≠ []) : Disk ν β where
  node p := if q <+: p then none else d.node p
  fits := d.fits
  maxLinks := d.maxLinks
  root := by rw [if_neg (by simpa using hq), d.root]
  parent p n x h := by
    by_cases hgone : q <+: p ++ [n]
    · rw [if_pos hgone] at h
      cases h
    · rw [if_neg hgone] at h
      rw [if_neg fun hp => hgone (hp.trans (List.prefix_append _ _)), d.parent p n x h]
  short p n x h := by
    split at h
    · cases h
    · exact d.short p n x h

/-- A new entry `n` in what `p` leads to. It replaces nothing, not even a link. -/
def create (d : Disk ν β) (p : List ν) (n : ν) (x : Node ν β) : Except Errno (Disk ν β) :=
  (d.realpath p).bind fun r =>
    if hdir : d.node r = some .dir then
      if hfree : d.node (r ++ [n]) = none then
        if hfits : d.fits n = true then .ok (d.add r n x hdir hfree hfits) else .error .enametoolong
      else .error .eexist
    else .error .enotdir

/-- A copy that replaces nothing. -/
def copyFile (d : Disk ν β) (src p : List ν) (n : ν) : Except Errno (Disk ν β) :=
  (d.readFile src).bind fun bytes => d.create p n (.file bytes)

/-- A directory that cannot be made may be there. -/
def already (d : Disk ν β) (p : List ν) (e : Errno) : Except Errno Unit := if d.isDir p then .ok () else .error e

/-- `mkdir -p` of a path, with its last name first. What was made stays where a later name fails. -/
def mkdirs (d : Disk ν β) : List ν → Disk ν β × Except Errno Unit
  | [] => (d, .ok ())
  | n :: up => match d.create up.reverse n .dir with
    | .ok d' => (d', .ok ())
    | .error .enoent => match d.mkdirs up with
      | (d', .ok ()) => match d'.create up.reverse n .dir with
        | .ok d'' => (d'', .ok ())
        | .error e => (d', d'.already (up.reverse ++ [n]) e)
      | failed => failed
    | .error e => (d, d.already (up.reverse ++ [n]) e)

/-- `rm -rf`. No link is followed below the path, or at its last name. -/
def remove (d : Disk ν β) (p : List ν) : Disk ν β :=
  match d.resolve false p with
  | .ok q => if hq : q ≠ [] then d.prune q hq else d
  | .error _ => d

variable {d d' : Disk ν β}

theorem add_node {r : List ν} {n : ν} {x : Node ν β} (hdir : d.node r = some .dir) (hfree : d.node (r ++ [n]) = none)
    (hfits : d.fits n = true) (q : List ν) :
    (d.add r n x hdir hfree hfits).node q = if q = r ++ [n] then some x else d.node q := rfl

theorem le_add {r : List ν} {n : ν} {x : Node ν β} (hdir : d.node r = some .dir) (hfree : d.node (r ++ [n]) = none)
    (hfits : d.fits n = true) : d.Le (d.add r n x hdir hfree hfits) := by
  refine ⟨fun p y hy => ?_, rfl, rfl⟩
  rw [add_node, if_neg, hy]
  rintro rfl
  rw [hfree] at hy
  cases hy

theorem create_ok {p : List ν} {n : ν} {x : Node ν β} (h : d.create p n x = .ok d') :
    ∃ r, ∃ hdir : d.node r = some .dir, ∃ hfree : d.node (r ++ [n]) = none, ∃ hfits : d.fits n = true,
      d.realpath p = .ok r ∧ d' = d.add r n x hdir hfree hfits := by
  obtain ⟨r, hr, hmake⟩ := bind_ok_iff.mp h
  split at hmake
  · rename_i hdir
    split at hmake
    · rename_i hfree
      split at hmake
      · rename_i hfits
        cases hmake
        exact ⟨r, hdir, hfree, hfits, hr, rfl⟩
      · cases hmake
    · cases hmake
  · cases hmake

theorem create_in {p r : List ν} {n : ν} (x : Node ν β) (hr : d.realpath p = .ok r) (hdir : d.node r = some .dir) :
    d.create p n x = if hfree : d.node (r ++ [n]) = none then
      if hfits : d.fits n = true then .ok (d.add r n x hdir hfree hfits) else .error .enametoolong
    else .error .eexist := by
  unfold create
  rw [hr]
  exact dif_pos hdir

theorem create_enoent {p : List ν} {n : ν} {x : Node ν β} (h : d.create p n x = .error .enoent) (r : List ν) :
    d.realpath p ≠ .ok r := by
  intro hr
  unfold create at h
  rw [hr] at h
  change (if hdir : _ then _ else _) = _ at h
  split at h
  · split at h
    · split at h <;> cases h
    · cases h
  · cases h

/-- What `mkdir -p` may have done on the way to `q`. -/
structure Opened (d d' : Disk ν β) (q : List ν) : Prop where
  le : d.Le d'
  /-- `q` is the last directory that is made, if one is. -/
  last : d' = d ∨ d.node q = none
  new : ∀ t, d'.node t ≠ d.node t → t <+: q ∧ d'.node t = some .dir

omit [DecidableEq ν] in
theorem Opened.refl (d : Disk ν β) (q : List ν) : Opened d d q := ⟨.refl d, .inl rfl, fun _ h => absurd rfl h⟩

theorem Opened.add {d₁ : Disk ν β} {r : List ν} (h : Opened d d₁ r) (n : ν) (hdir : d₁.node r = some .dir)
    (hfree : d₁.node (r ++ [n]) = none) (hfits : d₁.fits n = true) :
    Opened d (d₁.add r n .dir hdir hfree hfits) (r ++ [n]) where
  le := h.le.trans (le_add hdir hfree hfits)
  last := .inr (h.le.node_none hfree)
  new t ht := by
    rw [add_node] at ht ⊢
    by_cases hnew : t = r ++ [n]
    · rw [if_pos hnew]
      exact ⟨hnew ▸ List.prefix_rfl, rfl⟩
    · rw [if_neg hnew] at ht ⊢
      obtain ⟨hbelow, hd⟩ := h.new t ht
      exact ⟨hbelow.trans (List.prefix_append _ _), hd⟩

theorem realpath_add {p r : List ν} {n : ν} {x : Node ν β} (hr : d.realpath p = .ok r) (hdir : d.node r = some .dir)
    (hfree : d.node (r ++ [n]) = none) (hfits : d.fits n = true) (hlink : x.isLink = false) :
    (d.add r n x hdir hfree hfits).realpath (p ++ [n]) = .ok (r ++ [n]) :=
  resolve_concat ((le_add hdir hfree hfits).resolve hr) (if_pos rfl) (.inr hlink)

omit [DecidableEq ν] in
theorem already_ok {p : List ν} {e : Errno} (h : d.already p e = .ok ()) :
    ∃ q, d.realpath p = .ok q ∧ d.node q = some .dir := by
  unfold already at h
  split at h
  · rename_i hdir
    exact stat_iff.mp (isDir_iff.mp hdir)
  · cases h

/-- **`mkdir -p`** that returns leaves a directory there, and the directories that were missing on the way. -/
theorem mkdirs_ok : ∀ {p : List ν} {d d' : Disk ν β}, d.mkdirs p = (d', .ok ()) →
    ∃ q, d'.realpath p.reverse = .ok q ∧ d'.node q = some .dir ∧ Opened d d' q
  | [], d, d', h => by
    cases h
    exact ⟨[], realpath_dir d.root, d.root, .refl d _⟩
  | n :: up, d, d', h => by
    rw [List.reverse_cons]
    unfold mkdirs at h
    split at h
    · rename_i d₁ hcreate
      cases h
      obtain ⟨r, hdir, hfree, hfits, hr, rfl⟩ := create_ok hcreate
      exact ⟨r ++ [n], realpath_add hr hdir hfree hfits rfl, if_pos rfl, (Opened.refl d r).add n hdir hfree hfits⟩
    · rename_i hcreate
      have hmissing := create_enoent hcreate
      split at h
      · rename_i d₁ hup
        obtain ⟨r, hr, hdir, hopened⟩ := mkdirs_ok hup
        have hlast : d.node r = none := by
          refine hopened.last.resolve_left ?_
          rintro rfl
          exact hmissing r hr
        have hfree : d₁.node (r ++ [n]) = none := by
          by_contra hsome
          have hbelow := (hopened.new (r ++ [n]) (by rw [node_below d hlast]; exact hsome)).1.length_le
          simp only [List.length_append, List.length_singleton] at hbelow
          omega
        rw [create_in .dir hr hdir, dif_pos hfree] at h
        by_cases hfits : d₁.fits n = true
        · rw [dif_pos hfits] at h
          cases h
          exact ⟨r ++ [n], realpath_add hr hdir hfree hfits rfl, if_pos rfl, hopened.add n hdir hfree hfits⟩
        · rw [dif_neg hfits] at h
          obtain ⟨q, hq, -⟩ := already_ok (Prod.mk.inj h).2
          obtain ⟨r', x, hr', hx, -⟩ := resolve_snoc hq
          cases hr.symm.trans hr'
          cases hfree.symm.trans hx
      · rename_i hfailed
        exact absurd h (hfailed d')
    · obtain ⟨rfl, hthere⟩ := Prod.mk.inj h
      obtain ⟨q, hq, hnode⟩ := already_ok hthere
      exact ⟨q, hq, hnode, .refl _ q⟩

theorem mkdirs_new : ∀ (p : List ν) (d : Disk ν β), d.Le (d.mkdirs p).1 ∧
    ∀ t, (d.mkdirs p).1.node t ≠ d.node t → (d.mkdirs p).1.node t = some .dir
  | [], d => ⟨.refl d, fun _ h => absurd rfl h⟩
  | n :: up, d => by
    obtain ⟨hle, hdirs⟩ := mkdirs_new up d
    unfold mkdirs
    split
    · rename_i d₁ hcreate
      obtain ⟨r, hdir, hfree, hfits, -, rfl⟩ := create_ok hcreate
      have hopened := (Opened.refl d r).add n hdir hfree hfits
      exact ⟨hopened.le, fun t ht => (hopened.new t ht).2⟩
    · split
      · rename_i d₁ hup
        rw [hup] at hle hdirs
        split
        · rename_i d₂ hcreate
          obtain ⟨r, hdir, hfree, hfits, -, rfl⟩ := create_ok hcreate
          refine ⟨hle.trans (le_add hdir hfree hfits), fun t ht => ?_⟩
          rw [add_node] at ht ⊢
          split
          · rfl
          · rename_i hold
            rw [if_neg hold] at ht
            exact hdirs t ht
        · exact ⟨hle, hdirs⟩
      · exact ⟨hle, hdirs⟩
    · exact ⟨.refl d, fun _ h => absurd rfl h⟩

theorem mkdirs_child {p r : List ν} {n : ν} (hr : d.realpath p = .ok r) {t : List ν}
    (ht : (d.mkdirs (p ++ [n]).reverse).1.node t ≠ d.node t) : t = r ++ [n] := by
  rw [List.reverse_append, List.reverse_singleton, List.singleton_append] at ht
  unfold mkdirs at ht
  rw [List.reverse_reverse] at ht
  split at ht
  · rename_i d₁ hcreate
    obtain ⟨r', hdir, hfree, hfits, hr', rfl⟩ := create_ok hcreate
    cases hr.symm.trans hr'
    by_contra hold
    exact ht (if_neg hold)
  · rename_i hcreate
    exact absurd hr (create_enoent hcreate r)
  · exact absurd rfl ht

theorem mkdirs_child_ok {p r : List ν} {n : ν} (hr : d.realpath p = .ok r)
    (h : d.mkdirs (p ++ [n]).reverse = (d', .ok ())) : d'.node (r ++ [n]) = some .dir ∨
      d.exists' (p ++ [n]) = true ∧ ∃ x, d.node (r ++ [n]) = some x ∧ x.isLink = true := by
  rw [List.reverse_append, List.reverse_singleton, List.singleton_append] at h
  unfold mkdirs at h
  rw [List.reverse_reverse] at h
  split at h
  · rename_i d₁ hcreate
    cases h
    obtain ⟨r', hdir, hfree, hfits, hr', rfl⟩ := create_ok hcreate
    cases hr.symm.trans hr'
    exact .inl (if_pos rfl)
  · rename_i hcreate
    exact absurd hr (create_enoent hcreate r)
  · obtain ⟨rfl, hthere⟩ := Prod.mk.inj h
    obtain ⟨q, hq, hnode⟩ := already_ok hthere
    obtain ⟨r', x, hr', hx, hqr⟩ := resolve_snoc hq
    cases hr.symm.trans hr'
    by_cases hlink : x.isLink = true
    · exact .inr ⟨exists_iff.mpr ⟨q, hq⟩, x, hx, hlink⟩
    · cases hqr (.inr (by simpa using hlink))
      exact .inl hnode

theorem mkdirs_make {p r : List ν} {n : ν} (hr : d.realpath p = .ok r) (hdir : d.node r = some .dir)
    (hfree : d.node (r ++ [n]) = none) (hfits : d.fits n = true) :
    d.mkdirs (p ++ [n]).reverse = (d.add r n .dir hdir hfree hfits, .ok ()) := by
  rw [List.reverse_append, List.reverse_singleton, List.singleton_append]
  unfold mkdirs
  rw [List.reverse_reverse, create_in .dir hr hdir, dif_pos hfree, dif_pos hfits]

theorem mkdirs_there {p r : List ν} {n : ν} (hr : d.realpath p = .ok r) (hdir : d.node (r ++ [n]) = some .dir) :
    d.mkdirs (p ++ [n]).reverse = (d, .ok ()) := by
  have hthere : d.isDir (p ++ [n]) = true := isDir_iff.mpr (stat_iff.mpr ⟨_, resolve_concat hr hdir (.inr rfl), hdir⟩)
  rw [List.reverse_append, List.reverse_singleton, List.singleton_append]
  unfold mkdirs
  rw [List.reverse_reverse, create_in .dir hr (d.parent _ _ _ hdir), dif_neg (by simp [hdir])]
  simp only [already, hthere, if_true]

theorem copyFile_ok {src p : List ν} {n : ν} (h : d.copyFile src p n = .ok d') :
    ∃ q bytes r, ∃ hdir : d.node r = some .dir, ∃ hfree : d.node (r ++ [n]) = none, ∃ hfits : d.fits n = true,
      d.realpath src = .ok q ∧ d.node q = some (.file bytes) ∧ d.realpath p = .ok r ∧
        d' = d.add r n (.file bytes) hdir hfree hfits := by
  obtain ⟨bytes, hread, hcreate⟩ := bind_ok_iff.mp h
  obtain ⟨q, hq, hfile⟩ := readFile_iff.mp hread
  obtain ⟨r, hdir, hfree, hfits, hr, hd'⟩ := create_ok hcreate
  exact ⟨q, bytes, r, hdir, hfree, hfits, hq, hfile, hr, hd'⟩

/-- `rm -rf` of a path takes away what is at or below the real path of its entry. -/
theorem remove_node {p t : List ν} (h : (d.remove p).node t ≠ d.node t) :
    ∃ q, d.resolve false p = .ok q ∧ q <+: t ∧ (d.remove p).node t = none := by
  unfold remove at h ⊢
  split at h
  · rename_i q hq
    rw [hq]
    split at h
    · rename_i hne
      change (if q <+: t then none else d.node t) ≠ d.node t at h
      by_cases hbelow : q <+: t
      · refine ⟨q, rfl, hbelow, ?_⟩
        rw [dif_pos hne]
        exact if_pos hbelow
      · exact absurd (if_neg hbelow) h
    · exact absurd rfl h
  · exact absurd rfl h

end changes

/-! ### Other bytes in the same files -/


/-- The tree with other bytes in its files. -/
def recode (f : List ν → β → β) (d : Disk ν β) : Disk ν β where
  node p := (d.node p).map (Node.recode (f p))
  fits := d.fits
  maxLinks := d.maxLinks
  root := by rw [d.root]; rfl
  parent p n x h := by
    obtain ⟨y, hy, -⟩ := Option.map_eq_some_iff.mp h
    rw [d.parent p n y hy]
    rfl
  short p n x h := by
    obtain ⟨y, hy, -⟩ := Option.map_eq_some_iff.mp h
    exact d.short p n y hy

theorem ext_node {d d' : Disk ν β} (hnode : ∀ p, d.node p = d'.node p) (hfits : d.fits = d'.fits)
    (hlinks : d.maxLinks = d'.maxLinks) : d = d' := by
  obtain ⟨node, _, _, _, _, _⟩ := d
  obtain ⟨node', _, _, _, _, _⟩ := d'
  cases funext hnode
  cases hfits
  cases hlinks
  rfl

section recode

variable (f : List ν → β → β) (d : Disk ν β)

theorem recode_node (p : List ν) : (d.recode f).node p = (d.node p).map (Node.recode (f p)) := rfl

theorem recode_none {p : List ν} : (d.recode f).node p = none ↔ d.node p = none := Option.map_eq_none_iff

theorem recode_dir {p : List ν} : (d.recode f).node p = some .dir ↔ d.node p = some .dir := by
  rw [recode_node]
  cases d.node p with
  | none => simp
  | some x => cases x <;> simp [Node.recode]

theorem recode_follow {last : Bool} {again again' : List ν → List (PathPart ν) → Except Errno (List ν)}
    (hagain : ∀ dir parts, again dir parts = again' dir parts) : ∀ (parts : List (PathPart ν)) (dir : List ν),
      (d.recode f).follow last again dir parts = d.follow last again' dir parts
  | [], _ => rfl
  | .here :: rest, dir => recode_follow hagain rest dir
  | .up :: rest, dir => recode_follow hagain rest dir.dropLast
  | .name n :: rest, dir => by
    have hrest : (d.recode f).follow last again (dir ++ [n]) rest = d.follow last again' (dir ++ [n]) rest :=
      recode_follow hagain rest (dir ++ [n])
    unfold follow
    rw [recode_node]
    cases d.node (dir ++ [n]) with
    | none => rfl
    | some x => cases x with
      | dir => exact hrest
      | file bytes => rfl
      | link absolute target => simp only [Option.map_some, Node.recode, hagain]
      | special => rfl

theorem recode_walk (last : Bool) : ∀ (links : ℕ) (dir : List ν) (parts : List (PathPart ν)),
    (d.recode f).walk last links dir parts = d.walk last links dir parts
  | 0, dir, parts => recode_follow f d (fun _ _ => rfl) parts dir
  | links + 1, dir, parts => recode_follow f d (recode_walk last links) parts dir

theorem recode_resolve (last : Bool) (p : List ν) : (d.recode f).resolve last p = d.resolve last p :=
  recode_walk f d last d.maxLinks [] _

theorem recode_exists (p : List ν) : (d.recode f).exists' p = d.exists' p := by
  unfold exists' realpath
  rw [recode_resolve]

theorem recode_isDir (p : List ν) : (d.recode f).isDir p = d.isDir p := by
  have hiff : (d.recode f).isDir p = true ↔ d.isDir p = true := by
    rw [isDir_iff, isDir_iff, stat_iff, stat_iff]
    unfold realpath
    simp only [recode_resolve, recode_dir]
  exact Bool.eq_iff_iff.mpr hiff

theorem recode_lstat (p : List ν) : ∃ g, (d.recode f).lstat p = (d.lstat p).map (Node.recode g) := by
  unfold lstat
  rw [recode_resolve]
  cases d.resolve false p with
  | error e => exact ⟨id, rfl⟩
  | ok q =>
    refine ⟨f q, ?_⟩
    simp only [Except.bind, recode_node]
    cases d.node q <;> rfl

theorem recode_readFile {p q : List ν} (hq : d.realpath p = .ok q) :
    (d.recode f).readFile p = (d.readFile p).map (f q) := by
  unfold readFile stat realpath
  rw [recode_resolve, show d.resolve true p = .ok q from hq]
  simp only [Except.bind, recode_node]
  cases d.node q with
  | none => rfl
  | some x => cases x <;> rfl

variable [DecidableEq ν]

theorem recode_add {r : List ν} {n : ν} {x : Node ν β} (hdir : d.node r = some .dir) (hfree : d.node (r ++ [n]) = none)
    (hfits : d.fits n = true) (hdir' : (d.recode f).node r = some .dir) (hfree' : (d.recode f).node (r ++ [n]) = none)
    (hfits' : (d.recode f).fits n = true) (hx : ∀ bytes, x = .file bytes → f (r ++ [n]) bytes = bytes) :
    (d.add r n x hdir hfree hfits).recode f = (d.recode f).add r n x hdir' hfree' hfits' := by
  refine ext_node (fun p => ?_) rfl rfl
  rw [recode_node, add_node, add_node, recode_node]
  split
  · rename_i hp
    subst hp
    cases x with
    | file bytes => simp [Node.recode, hx bytes rfl]
    | _ => rfl
  · rfl

theorem recode_create {p : List ν} {n : ν} {x : Node ν β}
    (hx : ∀ r bytes, d.node (r ++ [n]) = none → x = .file bytes → f (r ++ [n]) bytes = bytes) :
    (d.recode f).create p n x = (d.create p n x).map (recode f) := by
  unfold create realpath
  rw [recode_resolve]
  cases d.resolve true p with
  | error e => rfl
  | ok r =>
    show (if hdir : _ then _ else _) = Except.map (recode f) (if hdir : _ then _ else _)
    by_cases hdir : d.node r = some .dir
    · rw [dif_pos hdir, dif_pos ((recode_dir f d).mpr hdir)]
      by_cases hfree : d.node (r ++ [n]) = none
      · rw [dif_pos hfree, dif_pos ((recode_none f d).mpr hfree)]
        by_cases hfits : d.fits n = true
        · have hfits' : (d.recode f).fits n = true := hfits
          rw [dif_pos hfits, dif_pos hfits', Except.map,
            recode_add f d hdir hfree hfits _ _ hfits' fun b hb => hx r b hfree hb]
        · have hfits' : ¬(d.recode f).fits n = true := hfits
          rw [dif_neg hfits, dif_neg hfits', Except.map]
      · rw [dif_neg hfree, dif_neg fun h => hfree ((recode_none f d).mp h), Except.map]
    · rw [dif_neg hdir, dif_neg fun h => hdir ((recode_dir f d).mp h), Except.map]

theorem recode_mkdirs : ∀ (p : List ν) (d : Disk ν β),
    (d.recode f).mkdirs p = ((d.mkdirs p).1.recode f, (d.mkdirs p).2)
  | [], d => rfl
  | n :: up, d => by
    have hcreate : ∀ d : Disk ν β, (d.recode f).create up.reverse n .dir =
        (d.create up.reverse n .dir).map (recode f) := fun d => recode_create f d fun _ _ _ hx => (nomatch hx)
    have halready : ∀ (d : Disk ν β) (e : Errno), (d.recode f).already (up.reverse ++ [n]) e =
        d.already (up.reverse ++ [n]) e := by
      intro d e
      unfold already
      rw [recode_isDir]
    unfold mkdirs
    rw [hcreate, recode_mkdirs up d]
    cases d.create up.reverse n .dir with
    | ok d₁ => rfl
    | error e => cases e with
      | enoent =>
        rcases hup : d.mkdirs up with ⟨d₁, _ | _⟩
        · rfl
        · simp only [Except.map, hcreate]
          cases d₁.create up.reverse n .dir with
          | ok d₂ => rfl
          | error e => simp only [halready]
      | _ => simp only [Except.map, halready]

end recode

end Disk

end FileTree
