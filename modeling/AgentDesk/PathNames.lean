/-
# Absolute paths by their names

An absolute path leads through names: the segments that are not empty and no dots. `path.resolve` of Node gives
them, `path.relative` says how to come from one to another, with two dots for each name to go back. Over any
alphabet with a slash and a dot.

A test for two dots at the start of the relative path is a test whether one path is below another, but for a name
below that begins with two dots itself.

* `names_resolve`: a path from another is its segments on those of the other.
* `dots_prefix_relative`: when the relative path begins with two dots.
* `below_iff`: a path without two dots together leads below where it starts as soon as it has another symbol.
-/
import AgentDesk.PosixPath
import Mathlib.Data.List.Infix
import Mathlib.Data.List.TakeWhile

namespace PosixPath

variable {α : Type*}

/-- A segment that can be the name of something in a directory. -/
def IsName (slash dot : α) (s : List α) : Prop := (s ≠ [] ∧ s ≠ [dot]) ∧ s ≠ [dot, dot] ∧ slash ∉ s

/-- A name in a directory. -/
abbrev Name (slash dot : α) := {s : List α // IsName slash dot s}

/-- The text of an absolute path. -/
def absolute (slash : α) (l : List (List α)) : List α := slash :: [slash].intercalate l

variable {slash dot : α}

theorem infix_join {s : List α} {l : List (List α)} (hs : s ∈ l) : s <:+: [slash].intercalate l := by
  induction l with
  | nil => exact absurd hs List.not_mem_nil
  | cons s' l ih =>
    by_cases hl : l = []
    · subst hl
      rw [List.intercalate_singleton, ← List.mem_singleton.mp hs]
    · rw [List.intercalate_cons_of_ne_nil hl]
      rcases List.mem_cons.mp hs with rfl | hmem
      · rw [List.append_assoc]
        exact (List.prefix_append _ _).isInfix
      · exact (ih hmem).trans (List.suffix_append _ _).isInfix

theorem dots_prefix_append (hne : slash ≠ dot) (s t : List α) :
    [dot, dot] <+: s ++ slash :: t ↔ [dot, dot] <+: s := by
  constructor
  · intro h
    cases s with
    | nil => exact absurd (List.cons_prefix_cons.mp h).1.symm hne
    | cons a s =>
      obtain ⟨rfl, hrest⟩ := List.cons_prefix_cons.mp h
      cases s with
      | nil => exact absurd (List.cons_prefix_cons.mp hrest).1.symm hne
      | cons b s =>
        obtain ⟨rfl, -⟩ := List.cons_prefix_cons.mp hrest
        exact ⟨s, rfl⟩
  · intro h
    exact h.trans (List.prefix_append _ _)

theorem dots_prefix_join (hne : slash ≠ dot) (l : List (List α)) :
    [dot, dot] <+: [slash].intercalate l ↔ ∃ s, l.head? = some s ∧ [dot, dot] <+: s := by
  cases l with
  | nil => simp
  | cons s l =>
    have hhead : (∃ s', (s :: l).head? = some s' ∧ [dot, dot] <+: s') ↔ [dot, dot] <+: s := by simp
    rw [hhead]
    by_cases hl : l = []
    · rw [hl, List.intercalate_singleton]
    · rw [List.intercalate_cons_of_ne_nil hl, List.append_assoc, List.singleton_append, dots_prefix_append hne]

variable [DecidableEq α]

instance : DecidablePred (IsName slash dot) := fun _ => inferInstanceAs (Decidable (_ ∧ _))

/-! ### The names of a path -/

theorem isName_push {stack : List (List α)} {s : List α} (hstack : ∀ s' ∈ stack, IsName slash dot s') (hs : slash ∉ s) :
    ∀ s' ∈ push dot false stack s, IsName slash dot s' := by
  intro s' hs'
  unfold push at hs'
  by_cases hdrop : s = [] ∨ s = [dot]
  · rw [if_pos hdrop] at hs'
    exact hstack s' hs'
  · rw [if_neg hdrop] at hs'
    by_cases hup : s = [dot, dot]
    · rw [if_pos hup] at hs'
      cases stack with
      | nil => exact absurd hs' List.not_mem_nil
      | cons top rest =>
        dsimp only at hs'
        have htop : top ≠ [dot, dot] := (hstack top List.mem_cons_self).2.1
        rw [if_neg htop] at hs'
        exact hstack s' (List.mem_cons_of_mem top hs')
    · rw [if_neg hup] at hs'
      rcases List.mem_cons.mp hs' with rfl | hmem
      · exact ⟨not_or.mp hdrop, hup, hs⟩
      · exact hstack s' hmem

theorem isName_foldl {l stack : List (List α)} (hstack : ∀ s ∈ stack, IsName slash dot s) (hl : ∀ s ∈ l, slash ∉ s) :
    ∀ s ∈ l.foldl (push dot false) stack, IsName slash dot s := by
  induction l generalizing stack with
  | nil => exact hstack
  | cons s l ih =>
    have hhead : slash ∉ s := hl s List.mem_cons_self
    exact ih (isName_push hstack hhead) fun s' hs' => hl s' (List.mem_cons_of_mem s hs')

/-- The segments that a path leads to from the root. -/
def fromRoot (slash dot : α) (path : List α) : List (List α) :=
  ((path.splitOn slash).foldl (push dot false) []).reverse

theorem isName_fromRoot {path s : List α} (hs : s ∈ fromRoot slash dot path) : IsName slash dot s :=
  isName_foldl (fun _ h => absurd h List.not_mem_nil) (fun _ h => not_mem_splitOn h) s (List.mem_reverse.mp hs)

/-- The names that an absolute path leads through. -/
def names (slash dot : α) (path : List α) : List (Name slash dot) :=
  (fromRoot slash dot path).attach.map fun s => ⟨s.1, isName_fromRoot s.2⟩

/-- The text of the path through these names. -/
def text (l : List (Name slash dot)) : List α := absolute slash (l.map Subtype.val)

@[simp] theorem names_val (path : List α) : (names slash dot path).map Subtype.val = fromRoot slash dot path := by
  simp [names]

/-- `path.resolve` of one path, in a directory. -/
def resolve (slash dot : α) (cwd : List (Name slash dot)) (path : List α) : List α :=
  absolute slash (fromRoot slash dot (if path.head? = some slash then path else text cwd ++ slash :: path))

/-- `path.join` of two paths. -/
def joined (slash dot : α) (a b : List α) : List α :=
  normalize slash dot (if a = [] then b else if b = [] then a else a ++ slash :: b)

/-- `path.basename`: what follows the last slash, but for slashes at the end. -/
def basename (slash : α) (path : List α) : List α :=
  ((path.reverse.dropWhile (· = slash)).takeWhile (· ≠ slash)).reverse

theorem basename_eq_iff {slash : α} {path : List α} : basename slash path = path ↔ slash ∉ path := by
  unfold basename
  constructor
  · intro h hmem
    rw [← h, List.mem_reverse] at hmem
    have hne := List.mem_takeWhile_imp hmem
    simp at hne
  · intro h
    have hdrop : path.reverse.dropWhile (· = slash) = path.reverse := by
      rw [List.dropWhile_eq_self_iff]
      intro hlen heq
      exact h (List.mem_reverse.mp (of_decide_eq_true heq ▸ List.get_mem _ _))
    have htake : path.reverse.takeWhile (· ≠ slash) = path.reverse := by
      rw [List.takeWhile_eq_self_iff]
      intro c hc
      exact decide_eq_true fun heq => h (List.mem_reverse.mp (heq ▸ hc))
    rw [hdrop, htake, List.reverse_reverse]

/-! ### From one path to another -/

/-- The way from a path to another, segment by segment. -/
def steps (dot : α) : List (List α) → List (List α) → List (List α)
  | a :: parent, b :: child =>
    if a = b then steps dot parent child else (a :: parent).map (fun _ => [dot, dot]) ++ b :: child
  | parent, child => parent.map (fun _ => [dot, dot]) ++ child

/-- `path.relative`, of absolute paths by their names. -/
def relative (parent child : List (Name slash dot)) : List α :=
  [slash].intercalate (steps dot (parent.map Subtype.val) (child.map Subtype.val))

theorem steps_nil (child : List (List α)) : steps dot [] child = child := by simp [steps]

theorem steps_append (parent rest : List (List α)) : steps dot parent (parent ++ rest) = rest := by
  induction parent with
  | nil => exact steps_nil rest
  | cons a parent ih => rw [List.cons_append, steps, if_pos rfl, ih]

theorem steps_of_not_prefix {parent child : List (List α)} (h : ¬ parent <+: child) :
    ∃ rest, steps dot parent child = [dot, dot] :: rest := by
  induction parent generalizing child with
  | nil => exact absurd List.nil_prefix h
  | cons a parent ih =>
    cases child with
    | nil => exact ⟨_, rfl⟩
    | cons b child =>
      by_cases hab : a = b
      · rw [steps, if_pos hab]
        apply ih
        intro hprefix
        exact h (List.cons_prefix_cons.mpr ⟨hab, hprefix⟩)
      · rw [steps, if_neg hab]
        exact ⟨_, rfl⟩

/-- **The relative path begins with two dots** where the other path is not below, or where the first name below
begins with two dots. -/
theorem dots_prefix_relative (hne : slash ≠ dot) (parent child : List (Name slash dot)) :
    [dot, dot] <+: relative parent child ↔
      (parent <+: child → ∃ n, child[parent.length]? = some n ∧ [dot, dot] <+: n.val) := by
  rw [relative]
  by_cases hprefix : parent <+: child
  · obtain ⟨rest, rfl⟩ := hprefix
    have hfirst : (parent ++ rest)[parent.length]? = rest.head? := by
      rw [List.getElem?_append_right (Nat.le_refl _), Nat.sub_self, List.head?_eq_getElem?]
    have hhead : (∃ s, (rest.map Subtype.val).head? = some s ∧ [dot, dot] <+: s) ↔
        ∃ n, rest.head? = some n ∧ [dot, dot] <+: n.val := by
      cases rest with
      | nil => simp
      | cons n rest => simp
    rw [List.map_append, steps_append, dots_prefix_join hne, hfirst, hhead]
    simp
  · have hval : ¬ parent.map Subtype.val <+: child.map Subtype.val := by
      intro h
      apply hprefix
      have hsame : (child.map Subtype.val).take (parent.map Subtype.val).length = parent.map Subtype.val :=
        (List.prefix_iff_eq_take.mp h).symm
      rw [List.length_map, ← List.map_take] at hsame
      have htake : child.take parent.length = parent := List.map_injective_iff.mpr Subtype.val_injective hsame
      rw [← htake]
      exact List.take_prefix _ _
    obtain ⟨rest, hsteps⟩ : ∃ rest, steps dot (parent.map Subtype.val) (child.map Subtype.val) = [dot, dot] :: rest :=
      steps_of_not_prefix hval
    have hdots : [dot, dot] <+: [slash].intercalate (steps dot (parent.map Subtype.val) (child.map Subtype.val)) := by
      rw [dots_prefix_join hne, hsteps]
      exact ⟨[dot, dot], rfl, List.prefix_refl _⟩
    exact iff_of_true hdots fun h => absurd h hprefix

theorem relative_head (hne : slash ≠ dot) (parent child : List (Name slash dot)) :
    (relative parent child).head? ≠ some slash := by
  have hsteps : ∀ {p c : List (List α)}, (∀ s ∈ c, s.head? ≠ some slash ∧ s ≠ []) →
      ∀ s ∈ steps dot p c, s.head? ≠ some slash ∧ s ≠ [] := by
    intro p
    have hup : ([dot, dot] : List α).head? ≠ some slash ∧ ([dot, dot] : List α) ≠ [] := by
      simpa using hne.symm
    induction p with
    | nil =>
      intro c hc s hs
      rw [steps_nil] at hs
      exact hc s hs
    | cons a p ih =>
      intro c hc s hs
      cases c with
      | nil =>
        rw [steps, List.append_nil] at hs
        · obtain ⟨_, -, rfl⟩ := List.mem_map.mp hs
          exact hup
        · simp
      | cons b c =>
        rw [steps] at hs
        by_cases hab : a = b
        · rw [if_pos hab] at hs
          exact ih (fun s' hs' => hc s' (List.mem_cons_of_mem b hs')) s hs
        · rw [if_neg hab] at hs
          rcases List.mem_append.mp hs with hback | hforth
          · obtain ⟨_, -, rfl⟩ := List.mem_map.mp hback
            exact hup
          · exact hc s hforth
  have hnames : ∀ s ∈ child.map Subtype.val, s.head? ≠ some slash ∧ s ≠ [] := by
    intro s hs
    obtain ⟨n, -, rfl⟩ := List.mem_map.mp hs
    refine ⟨fun h => ?_, n.2.1.1⟩
    exact n.2.2.2 (List.mem_of_mem_head? h)
  have hall : ∀ s ∈ steps dot (parent.map Subtype.val) (child.map Subtype.val), s.head? ≠ some slash ∧ s ≠ [] :=
    hsteps hnames
  rw [relative]
  generalize steps dot (parent.map Subtype.val) (child.map Subtype.val) = l at hall
  cases l with
  | nil => simp
  | cons s l =>
    obtain ⟨hhead, hs⟩ := hall s List.mem_cons_self
    obtain ⟨c, s, rfl⟩ := List.exists_cons_of_ne_nil hs
    by_cases hl : l = []
    · rwa [hl, List.intercalate_singleton]
    · rw [List.intercalate_cons_of_ne_nil hl]
      exact hhead

/-! ### Below a directory -/

theorem infix_of_mem_splitOn {s path : List α} (hs : s ∈ path.splitOn slash) : s <:+: path := by
  have h : s <:+: [slash].intercalate (path.splitOn slash) := infix_join hs
  rwa [List.intercalate_splitOn] at h

theorem foldl_push_of_no_dots {l : List (List α)} (hl : [dot, dot] ∉ l) (stack : List (List α)) :
    l.foldl (push dot false) stack = (l.filter fun s => s ≠ [] ∧ s ≠ [dot]).reverse ++ stack := by
  induction l generalizing stack with
  | nil => rfl
  | cons s l ih =>
    obtain ⟨hs, hrest⟩ := not_or.mp (List.mem_cons.not.mp hl)
    rw [List.foldl_cons, ih hrest]
    unfold push
    by_cases hdrop : s = [] ∨ s = [dot]
    · have hskip : ¬ (s ≠ [] ∧ s ≠ [dot]) := by
        intro h
        exact hdrop.elim h.1 h.2
      rw [if_pos hdrop, List.filter_cons_of_neg (by simpa using hskip)]
    · rw [if_neg hdrop, if_neg (Ne.symm hs), List.filter_cons_of_pos (by simpa using not_or.mp hdrop)]
      simp

theorem fromRoot_append {path : List α} (hpath : [dot, dot] ∉ path.splitOn slash) (base : List α) :
    fromRoot slash dot (base ++ slash :: path) =
      fromRoot slash dot base ++ (path.splitOn slash).filter fun s => s ≠ [] ∧ s ≠ [dot] := by
  have hsplit : (base ++ slash :: path).splitOn slash = base.splitOn slash ++ path.splitOn slash :=
    List.splitOn_append_cons_self ..
  rw [fromRoot, hsplit, List.foldl_append, foldl_push_of_no_dots hpath, List.reverse_append, List.reverse_reverse]
  rfl

/-- **A path without two dots together leads below the directory that it starts in** where it has a symbol that is
neither a dot nor a slash. -/
theorem below_iff {path : List α} (hdots : ¬ [dot, dot] <:+: path) (base : List α) :
    (fromRoot slash dot base <+: fromRoot slash dot (base ++ slash :: path) ∧
      fromRoot slash dot (base ++ slash :: path) ≠ fromRoot slash dot base) ↔
    ∃ c ∈ path, c ≠ dot ∧ c ≠ slash := by
  have hsegment : [dot, dot] ∉ path.splitOn slash := fun h => hdots (infix_of_mem_splitOn h)
  rw [fromRoot_append hsegment, ne_eq, List.append_right_eq_self, List.filter_eq_nil_iff]
  constructor
  · rintro ⟨-, h⟩
    push Not at h
    obtain ⟨s, hs, hcounts⟩ := h
    obtain ⟨hempty, hdot⟩ : s ≠ [] ∧ s ≠ [dot] := by simpa using hcounts
    have hwithin : s <:+: path := infix_of_mem_splitOn hs
    by_contra hnone
    push Not at hnone
    have hall : ∀ c ∈ s, c = dot := by
      intro c hc
      by_contra hcdot
      have hslash : c = slash := hnone c (hwithin.subset hc) hcdot
      exact not_mem_splitOn hs (hslash ▸ hc)
    -- a segment of dots alone is one dot, or has two together
    obtain ⟨n, rfl⟩ : ∃ n, s = List.replicate n dot := ⟨s.length, List.eq_replicate_of_mem hall⟩
    match n with
    | 0 => exact hempty rfl
    | 1 => exact hdot rfl
    | n + 2 => exact hdots (List.IsInfix.trans ⟨[], List.replicate n dot, rfl⟩ hwithin)
  · rintro ⟨c, hc, hcdot, hcslash⟩
    refine ⟨List.prefix_append _ _, fun h => ?_⟩
    have hmem : c ∈ [slash].intercalate (path.splitOn slash) := by rwa [List.intercalate_splitOn]
    rcases mem_join hmem with rfl | ⟨s, hs, hcs⟩
    · exact hcslash rfl
    · apply h s hs
      have hempty : s ≠ [] := List.ne_nil_of_mem hcs
      have hdot : s ≠ [dot] := by
        rintro rfl
        exact hcdot (List.mem_singleton.mp hcs)
      simpa using And.intro hempty hdot

end PosixPath
