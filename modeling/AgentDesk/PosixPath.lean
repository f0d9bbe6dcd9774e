/-
# Normal paths

`path.posix.normalize` of Node, over any alphabet with a slash and a dot. The path is cut at the slashes. An
empty segment or a dot is dropped, two dots drop the segment before them, or stay where there is none and the
path is relative. A slash at the end stays.

* `normalize_normalize`: a normal path is left as it is.
* `length_normalize_le`: normalizing makes no path longer, but for the empty one.
* `mem_normalize`: no symbol is new, but for the slash and the dot.
-/
import Mathlib.Data.List.Basic
import Mathlib.Algebra.BigOperators.Group.List.Basic
import Mathlib.Algebra.Ring.Nat

namespace PosixPath

variable {α : Type*}

/-- What a list of segments takes, a slash after each. -/
def cost (l : List (List α)) : ℕ := (l.map fun s => s.length + 1).sum

variable {slash dot : α} {above : Bool}

/-! ### Joining -/

theorem mem_join {c : α} {l : List (List α)} (h : c ∈ [slash].intercalate l) : c = slash ∨ ∃ s ∈ l, c ∈ s := by
  induction l with
  | nil => simp at h
  | cons s l ih =>
    by_cases hl : l = []
    · rw [hl, List.intercalate_singleton] at h
      exact .inr ⟨s, List.mem_cons_self, h⟩
    · rw [List.intercalate_cons_of_ne_nil hl] at h
      rcases List.mem_append.mp h with hfront | hrest
      · rcases List.mem_append.mp hfront with hs | hslash
        · exact .inr ⟨s, List.mem_cons_self, hs⟩
        · exact .inl (List.mem_singleton.mp hslash)
      · rcases ih hrest with rfl | ⟨s', hs', hc⟩
        · exact .inl rfl
        · exact .inr ⟨s', List.mem_cons_of_mem s hs', hc⟩

theorem mem_join_of_mem {c : α} {s : List α} {l : List (List α)} (hs : s ∈ l) (hc : c ∈ s) :
    c ∈ [slash].intercalate l := by
  induction l with
  | nil => exact absurd hs List.not_mem_nil
  | cons s' l ih =>
    by_cases hl : l = []
    · subst hl
      rw [List.intercalate_singleton, ← List.mem_singleton.mp hs]
      exact hc
    · rw [List.intercalate_cons_of_ne_nil hl]
      rcases List.mem_cons.mp hs with rfl | hmem
      · exact List.mem_append_left _ (List.mem_append_left _ hc)
      · exact List.mem_append_right _ (ih hmem)

theorem length_join {l : List (List α)} (hl : l ≠ []) : ([slash].intercalate l).length + 1 = cost l := by
  induction l with
  | nil => exact absurd rfl hl
  | cons s l ih =>
    by_cases hl : l = []
    · simp [hl, cost]
    · rw [List.intercalate_cons_of_ne_nil hl]
      have hrest := ih hl
      simp only [cost, List.map_cons, List.sum_cons, List.length_append, List.length_singleton] at hrest ⊢
      omega

theorem cost_append (l m : List (List α)) : cost (l ++ m) = cost l + cost m := by simp [cost]

theorem join_eq_nil {l : List (List α)} (hl : ∀ s ∈ l, s ≠ []) : [slash].intercalate l = [] ↔ l = [] := by
  constructor
  · intro h
    cases l with
    | nil => rfl
    | cons s l =>
      obtain ⟨c, hc⟩ := List.exists_mem_of_ne_nil s (hl s List.mem_cons_self)
      have hmem : c ∈ [slash].intercalate (s :: l) := mem_join_of_mem List.mem_cons_self hc
      rw [h] at hmem
      exact absurd hmem List.not_mem_nil
  · rintro rfl
    rfl

theorem join_append_empty {l : List (List α)} (hl : l ≠ []) :
    [slash].intercalate (l ++ [[]]) = [slash].intercalate l ++ [slash] := by
  induction l with
  | nil => exact absurd rfl hl
  | cons s l ih =>
    by_cases hl : l = []
    · subst hl
      rw [List.singleton_append, List.intercalate_cons_of_ne_nil (List.cons_ne_nil _ _), List.intercalate_singleton,
        List.intercalate_singleton, List.append_nil]
    · rw [List.cons_append, List.intercalate_cons_of_ne_nil (List.append_ne_nil_of_left_ne_nil hl _), ih hl,
        List.intercalate_cons_of_ne_nil hl, List.append_assoc, List.append_assoc, List.append_assoc]

/-- No segment is empty or a dot, and two dots are at the bottom. -/
def Stacked (dot : α) (above : Bool) : List (List α) → Prop
  | [] => True
  | s :: rest => (s ≠ [] ∧ s ≠ [dot]) ∧ (s = [dot, dot] → above = true ∧ ∀ s' ∈ rest, s' = [dot, dot]) ∧
      Stacked dot above rest

theorem ne_nil_of_stacked {stack : List (List α)} (h : Stacked dot above stack) : ∀ s ∈ stack, s ≠ [] := by
  induction stack with
  | nil => exact fun s hs => absurd hs List.not_mem_nil
  | cons s stack ih => exact List.forall_mem_cons.mpr ⟨h.1.1, ih h.2.2⟩

/-! ### Paths -/

variable [DecidableEq α]

/-- Put a segment on a stack of segments. -/
def push (dot : α) (allowAboveRoot : Bool) (stack : List (List α)) (segment : List α) : List (List α) :=
  if segment = [] ∨ segment = [dot] then stack
  else if segment = [dot, dot] then
    match stack with
    | [] => if allowAboveRoot then [segment] else []
    | top :: rest => if top = [dot, dot] then segment :: top :: rest else rest
  else segment :: stack

/-- The segments of the normal path. -/
def segments (slash dot : α) (path : List α) : List (List α) :=
  ((path.splitOn slash).foldl (push dot (path.head? ≠ some slash)) []).reverse

def normalize (slash dot : α) (path : List α) : List α :=
  if path = [] then [dot]
  else
    let isAbsolute := path.head? = some slash
    let trailingSeparator := path.getLast? = some slash
    let body := [slash].intercalate (segments slash dot path)
    if body = [] then (if isAbsolute then [slash] else if trailingSeparator then [dot, slash] else [dot])
    else (if isAbsolute then [slash] else []) ++ body ++ (if trailingSeparator then [slash] else [])

/-! ### The stack -/

theorem not_mem_splitOn {path s : List α} (hs : s ∈ path.splitOn slash) : slash ∉ s := by
  induction path generalizing s with
  | nil =>
    rw [List.splitOn_nil] at hs
    rw [List.mem_singleton.mp hs]
    exact List.not_mem_nil
  | cons x path ih =>
    rw [List.splitOn_cons_eq_if_modifyHead] at hs
    by_cases hx : x = slash
    · rw [if_pos (beq_iff_eq.mpr hx)] at hs
      rcases List.mem_cons.mp hs with rfl | hrest
      · exact List.not_mem_nil
      · exact ih hrest
    · rw [if_neg fun h => hx (beq_iff_eq.mp h)] at hs
      cases hsplit : path.splitOn slash with
      | nil => exact absurd hsplit (List.splitOn_ne_nil slash path)
      | cons s' rest =>
        rw [hsplit, List.modifyHead_cons] at hs
        rcases List.mem_cons.mp hs with rfl | hrest
        · intro hmem
          rcases List.mem_cons.mp hmem with rfl | h
          · exact hx rfl
          · exact ih (hsplit ▸ List.mem_cons_self) h
        · exact ih (hsplit ▸ List.mem_cons_of_mem s' hrest)

theorem stacked_push {stack : List (List α)} {s : List α} (h : Stacked dot above stack) :
    Stacked dot above (push dot above stack s) := by
  unfold push
  by_cases hdrop : s = [] ∨ s = [dot]
  · rw [if_pos hdrop]
    exact h
  · rw [if_neg hdrop]
    have hs : s ≠ [] ∧ s ≠ [dot] := not_or.mp hdrop
    by_cases hup : s = [dot, dot]
    · rw [if_pos hup]
      cases stack with
      | nil =>
        cases above with
        | false => exact trivial
        | true => exact ⟨hs, fun _ => ⟨rfl, fun s' hs' => absurd hs' List.not_mem_nil⟩, trivial⟩
      | cons top rest =>
        dsimp only
        by_cases htop : top = [dot, dot]
        · rw [if_pos htop]
          obtain ⟨habove, hrest⟩ := h.2.1 htop
          exact ⟨hs, fun _ => ⟨habove, List.forall_mem_cons.mpr ⟨htop, hrest⟩⟩, h⟩
        · rw [if_neg htop]
          exact h.2.2
    · rw [if_neg hup]
      exact ⟨hs, fun he => absurd he hup, h⟩

/-- What stays on the stack is there or is put there. -/
theorem mem_push {stack : List (List α)} {s s' : List α} (h : s' ∈ push dot above stack s) : s' ∈ s :: stack := by
  unfold push at h
  by_cases hdrop : s = [] ∨ s = [dot]
  · rw [if_pos hdrop] at h
    exact List.mem_cons_of_mem s h
  · rw [if_neg hdrop] at h
    by_cases hup : s = [dot, dot]
    · rw [if_pos hup] at h
      cases stack with
      | nil =>
        cases above with
        | false => exact absurd h List.not_mem_nil
        | true => exact h
      | cons top rest =>
        dsimp only at h
        by_cases htop : top = [dot, dot]
        · rwa [if_pos htop] at h
        · rw [if_neg htop] at h
          exact List.mem_cons_of_mem s (List.mem_cons_of_mem top h)
    · rwa [if_neg hup] at h

/-- An empty segment costs nothing, another one at most itself. -/
theorem cost_push (stack : List (List α)) (s : List α) :
    cost (push dot above stack s) + (if s = [] then 1 else 0) ≤ cost stack + (s.length + 1) := by
  unfold push
  by_cases hempty : s = []
  · simp [hempty]
  · by_cases hdot : s = [dot]
    · simp [hdot]
    · rw [if_neg (not_or.mpr ⟨hempty, hdot⟩), if_neg hempty]
      by_cases hup : s = [dot, dot]
      · rw [if_pos hup]
        cases stack with
        | nil => cases above <;> simp [cost, hup]
        | cons top rest =>
          dsimp only
          by_cases htop : top = [dot, dot]
          · rw [if_pos htop]
            simp only [cost, List.map_cons, List.sum_cons]
            omega
          · rw [if_neg htop]
            simp only [cost, List.map_cons, List.sum_cons]
            omega
      · rw [if_neg hup]
        simp only [cost, List.map_cons, List.sum_cons]
        omega

theorem stacked_foldl (l : List (List α)) {stack : List (List α)} (h : Stacked dot above stack) :
    Stacked dot above (l.foldl (push dot above) stack) := by
  induction l generalizing stack with
  | nil => exact h
  | cons s l ih => exact ih (stacked_push h)

theorem mem_foldl {l stack : List (List α)} {s : List α} (h : s ∈ l.foldl (push dot above) stack) :
    s ∈ l ∨ s ∈ stack := by
  induction l generalizing stack with
  | nil => exact .inr h
  | cons s' l ih =>
    rcases ih h with hl | hpush
    · exact .inl (List.mem_cons_of_mem s' hl)
    · rcases List.mem_cons.mp (mem_push hpush) with rfl | hstack
      · exact .inl List.mem_cons_self
      · exact .inr hstack

theorem cost_foldl (l stack : List (List α)) :
    cost (l.foldl (push dot above) stack) + l.countP (· = []) ≤ cost stack + cost l := by
  induction l generalizing stack with
  | nil => simp [cost]
  | cons s l ih =>
    have hpush : cost (push dot above stack s) + _ ≤ _ := cost_push stack s
    have hrest := ih (push dot above stack s)
    have hcount : (s :: l).countP (· = []) = l.countP (· = []) + if s = [] then 1 else 0 := by
      rw [List.countP_cons]
      simp
    rw [List.foldl_cons, hcount]
    simp only [cost, List.map_cons, List.sum_cons] at hpush hrest ⊢
    omega

/-- Segments that make a stack are put on it as they are. -/
theorem foldl_of_stacked (l : List (List α)) {stack : List (List α)} (h : Stacked dot above (l.reverse ++ stack)) :
    l.foldl (push dot above) stack = l.reverse ++ stack := by
  induction l generalizing stack with
  | nil => rfl
  | cons s l ih =>
    have hall : Stacked dot above (l.reverse ++ s :: stack) := by simpa using h
    have hs : Stacked dot above (s :: stack) := by
      clear ih h
      generalize l.reverse = front at hall
      induction front with
      | nil => exact hall
      | cons s' front ih => exact ih hall.2.2
    have hpush : push dot above stack s = s :: stack := by
      obtain ⟨⟨hempty, hdot⟩, hup, -⟩ := hs
      unfold push
      rw [if_neg (not_or.mpr ⟨hempty, hdot⟩)]
      by_cases hdots : s = [dot, dot]
      · rw [if_pos hdots]
        obtain ⟨habove, hrest⟩ := hup hdots
        cases stack with
        | nil => simp [habove]
        | cons top rest => simp [hrest top List.mem_cons_self]
      · rw [if_neg hdots]
    rw [List.foldl_cons, hpush, ih hall]
    simp

/-! ### The normal path -/

variable {path : List α}

theorem mem_segments {s : List α} (h : s ∈ segments slash dot path) : s ∈ path.splitOn slash := by
  rcases mem_foldl (List.mem_reverse.mp h) with hs | hs
  · exact hs
  · exact absurd hs List.not_mem_nil

theorem stacked_segments : Stacked dot (path.head? ≠ some slash) (segments slash dot path).reverse := by
  rw [segments, List.reverse_reverse]
  exact stacked_foldl _ trivial

theorem segment_ne_nil {s : List α} (h : s ∈ segments slash dot path) : s ≠ [] :=
  ne_nil_of_stacked stacked_segments s (List.mem_reverse.mpr h)

/-- A path begins with a slash where its first segment is empty. -/
theorem head_eq_slash (hpath : path ≠ []) : path.head? = some slash ↔ (path.splitOn slash).head? = some [] := by
  cases path with
  | nil => exact absurd rfl hpath
  | cons c path =>
    rw [List.splitOn_cons_eq_if_modifyHead]
    by_cases hc : c = slash
    · simp [hc]
    · rw [if_neg fun h => hc (beq_iff_eq.mp h)]
      cases hsplit : path.splitOn slash with
      | nil => exact absurd hsplit (List.splitOn_ne_nil slash path)
      | cons s rest => simp [hc]

/-- And ends with one where its last segment is empty. -/
theorem last_eq_slash (hpath : path ≠ []) : path.getLast? = some slash ↔ (path.splitOn slash).getLast? = some [] := by
  constructor
  · intro h
    obtain ⟨init, rfl⟩ := List.getLast?_eq_some_iff.mp h
    rw [List.splitOn_append_cons_self, List.splitOn_nil, List.getLast?_concat]
  · intro h
    obtain ⟨init, hsplit⟩ := List.getLast?_eq_some_iff.mp h
    have hjoin : [slash].intercalate (path.splitOn slash) = path := List.intercalate_splitOn slash
    by_cases hinit : init = []
    · rw [hsplit, hinit, List.nil_append, List.intercalate_singleton] at hjoin
      exact absurd hjoin.symm hpath
    · rw [hsplit, join_append_empty hinit] at hjoin
      rw [← hjoin, List.getLast?_concat]

/-- The segments with an empty one before and after them, where there is a slash. -/
def framed (slash dot : α) (path : List α) : List (List α) :=
  (if path.head? = some slash then [[]] else []) ++ segments slash dot path ++
    (if path.getLast? = some slash then [[]] else [])

theorem mem_framed {s : List α} (h : s ∈ framed slash dot path) : s = [] ∨ s ∈ segments slash dot path := by
  rcases List.mem_append.mp h with hfront | htail
  · rcases List.mem_append.mp hfront with hlead | hs
    · split at hlead
      · exact .inl (List.mem_singleton.mp hlead)
      · exact absurd hlead List.not_mem_nil
    · exact .inr hs
  · split at htail
    · exact .inl (List.mem_singleton.mp htail)
    · exact absurd htail List.not_mem_nil

theorem normalize_eq_join (hpath : path ≠ []) (hsegments : segments slash dot path ≠ []) :
    normalize slash dot path = [slash].intercalate (framed slash dot path) := by
  have hbody : [slash].intercalate (segments slash dot path) ≠ [] := by
    intro h
    exact hsegments ((join_eq_nil fun s hs => segment_ne_nil hs).mp h)
  have htail : ∀ l : List (List α), l ≠ [] →
      [slash].intercalate (l ++ if path.getLast? = some slash then [[]] else []) =
        [slash].intercalate l ++ if path.getLast? = some slash then [slash] else [] := by
    intro l hl
    by_cases htrailing : path.getLast? = some slash
    · rw [if_pos htrailing, if_pos htrailing, join_append_empty hl]
    · rw [if_neg htrailing, if_neg htrailing, List.append_nil, List.append_nil]
  rw [normalize, if_neg hpath, if_neg hbody, framed]
  by_cases habsolute : path.head? = some slash
  · have hlead : [slash].intercalate ([[]] ++ segments slash dot path) =
        [slash] ++ [slash].intercalate (segments slash dot path) := by
      rw [List.singleton_append, List.intercalate_cons_of_ne_nil hsegments, List.nil_append]
    rw [if_pos habsolute, if_pos habsolute, htail _ (by simp), hlead]
  · rw [if_neg habsolute, if_neg habsolute, List.nil_append, List.nil_append, htail _ hsegments]

theorem splitOn_normalize (hpath : path ≠ []) (hsegments : segments slash dot path ≠ []) :
    (normalize slash dot path).splitOn slash = framed slash dot path := by
  rw [normalize_eq_join hpath hsegments]
  refine List.splitOn_intercalate slash (fun s hs => ?_) ?_
  · rcases mem_framed hs with rfl | hsegment
    · exact List.not_mem_nil
    · exact not_mem_splitOn (mem_segments hsegment)
  · rw [framed]
    simp [hsegments]

theorem normalize_ne_nil (hpath : path ≠ []) (hsegments : segments slash dot path ≠ []) :
    normalize slash dot path ≠ [] := by
  obtain ⟨s, hs⟩ := List.exists_mem_of_ne_nil _ hsegments
  obtain ⟨c, hc⟩ := List.exists_mem_of_ne_nil s (segment_ne_nil hs)
  have hframed : s ∈ framed slash dot path := List.mem_append_left _ (List.mem_append_right _ hs)
  rw [normalize_eq_join hpath hsegments]
  exact List.ne_nil_of_mem (mem_join_of_mem hframed hc)

theorem normalize_head (hpath : path ≠ []) (hsegments : segments slash dot path ≠ []) :
    (normalize slash dot path).head? = some slash ↔ path.head? = some slash := by
  rw [head_eq_slash (normalize_ne_nil hpath hsegments), splitOn_normalize hpath hsegments, framed]
  by_cases habsolute : path.head? = some slash
  · simp [habsolute]
  · cases hs : segments slash dot path with
    | nil => exact absurd hs hsegments
    | cons s rest =>
      have hne : s ≠ [] := segment_ne_nil (hs ▸ List.mem_cons_self)
      simp [habsolute, hne]

theorem normalize_last (hpath : path ≠ []) (hsegments : segments slash dot path ≠ []) :
    (normalize slash dot path).getLast? = some slash ↔ path.getLast? = some slash := by
  rw [last_eq_slash (normalize_ne_nil hpath hsegments), splitOn_normalize hpath hsegments, framed]
  by_cases htrailing : path.getLast? = some slash
  · simp [htrailing]
  · rw [if_neg htrailing, List.append_nil, List.getLast?_append_of_ne_nil _ hsegments]
    refine iff_of_false (fun h => ?_) htrailing
    exact segment_ne_nil (List.mem_of_getLast? h) rfl

/-- The segments make a stack, and the empty ones around them are dropped. -/
theorem segments_normalize (hpath : path ≠ []) (hsegments : segments slash dot path ≠ []) :
    segments slash dot (normalize slash dot path) = segments slash dot path := by
  have hstack : Stacked dot (path.head? ≠ some slash) ((segments slash dot path).reverse ++ []) := by
    rw [List.append_nil]
    exact stacked_segments
  have habove : decide ((normalize slash dot path).head? ≠ some slash) = decide (path.head? ≠ some slash) :=
    decide_eq_decide.mpr (normalize_head hpath hsegments).not
  have hlead : (if path.head? = some slash then [[]] else []).foldl
      (push dot (decide (path.head? ≠ some slash))) [] = [] := by
    split <;> simp [push]
  have htail : ∀ stack, (if path.getLast? = some slash then [[]] else []).foldl
      (push dot (decide (path.head? ≠ some slash))) stack = stack := by
    intro stack
    split <;> simp [push]
  rw [segments, splitOn_normalize hpath hsegments, habove, framed, List.foldl_append, List.foldl_append, hlead, htail,
    foldl_of_stacked _ hstack, List.append_nil, List.reverse_reverse]

/-- Without a segment a path is the root, or the directory itself, with a slash or without. -/
theorem normalize_of_nil (hpath : path ≠ []) (hsegments : segments slash dot path = []) :
    normalize slash dot path =
      if path.head? = some slash then [slash] else if path.getLast? = some slash then [dot, slash] else [dot] := by
  have hbody : [slash].intercalate (segments slash dot path) = [] := by
    rw [hsegments]
    rfl
  rw [normalize, if_neg hpath]
  dsimp only
  rw [if_pos hbody]

/-- **A normal path is left as it is.** -/
theorem normalize_normalize (hne : slash ≠ dot) :
    normalize slash dot (normalize slash dot path) = normalize slash dot path := by
  have hdot : normalize slash dot [dot] = [dot] := by
    simp [normalize, segments, push, List.splitOn_cons_eq_if_modifyHead, Ne.symm hne]
  by_cases hpath : path = []
  · rw [hpath, show normalize slash dot [] = [dot] from rfl, hdot]
  · by_cases hsegments : segments slash dot path = []
    · rw [normalize_of_nil hpath hsegments]
      by_cases habsolute : path.head? = some slash
      · rw [if_pos habsolute]
        simp [normalize, segments, push, List.splitOn_cons_eq_if_modifyHead]
      · rw [if_neg habsolute]
        by_cases htrailing : path.getLast? = some slash
        · rw [if_pos htrailing]
          simp [normalize, segments, push, List.splitOn_cons_eq_if_modifyHead, Ne.symm hne]
        · rw [if_neg htrailing, hdot]
    · have hsame := segments_normalize hpath hsegments
      have hframed : framed slash dot (normalize slash dot path) = framed slash dot path := by
        simp only [framed, hsame, normalize_head hpath hsegments, normalize_last hpath hsegments]
      rw [normalize_eq_join (normalize_ne_nil hpath hsegments) (by rw [hsame]; exact hsegments), hframed,
        normalize_eq_join hpath hsegments]

/-- A slash at an end is an empty segment of the path. -/
theorem countP_empty (hpath : path ≠ []) :
    (if path.head? = some slash then 1 else 0) + (if path.getLast? = some slash then 1 else 0) ≤
      (path.splitOn slash).countP (· = []) := by
  simp only [head_eq_slash hpath, last_eq_slash hpath]
  cases hsplit : path.splitOn slash with
  | nil => exact absurd hsplit (List.splitOn_ne_nil slash path)
  | cons s rest =>
    have hfirst : (if (s :: rest).head? = some [] then 1 else 0) = if s = [] then 1 else 0 := by simp
    have hcount : (s :: rest).countP (· = []) = rest.countP (· = []) + if s = [] then 1 else 0 := by
      rw [List.countP_cons]
      simp
    by_cases hrest : rest = []
    · -- one empty segment would be the empty path
      have hs : s ≠ [] := by
        rintro rfl
        have hjoin : [slash].intercalate (path.splitOn slash) = path := List.intercalate_splitOn slash
        rw [hsplit, hrest, List.intercalate_singleton] at hjoin
        exact hpath hjoin.symm
      simp [hrest, hs]
    · have hlast : (if (s :: rest).getLast? = some [] then 1 else 0) ≤ rest.countP (· = []) := by
        obtain ⟨s', rest', rfl⟩ := List.exists_cons_of_ne_nil hrest
        rw [List.getLast?_cons_cons]
        split
        · rename_i h
          exact List.countP_pos_iff.mpr ⟨[], List.mem_of_getLast? h, by simp⟩
        · exact Nat.zero_le _
      rw [hfirst, hcount]
      omega

/-- **Normalizing makes no path longer.** -/
theorem length_normalize_le (hpath : path ≠ []) : (normalize slash dot path).length ≤ path.length := by
  have hpos : 0 < path.length := List.length_pos_of_ne_nil hpath
  by_cases hsegments : segments slash dot path = []
  · rw [normalize_of_nil hpath hsegments]
    by_cases habsolute : path.head? = some slash
    · rw [if_pos habsolute]
      exact hpos
    · rw [if_neg habsolute]
      by_cases htrailing : path.getLast? = some slash
      · rw [if_pos htrailing]
        -- a slash alone would be the root
        cases path with
        | nil => exact absurd rfl hpath
        | cons c rest =>
          cases rest with
          | nil => exact absurd htrailing habsolute
          | cons d rest => simp
      · rw [if_neg htrailing]
        exact hpos
  · have hjoin : ([slash].intercalate (framed slash dot path)).length + 1 = cost (framed slash dot path) :=
      length_join (by simp [framed, hsegments])
    have hpathCost : ([slash].intercalate (path.splitOn slash)).length + 1 = cost (path.splitOn slash) :=
      length_join (List.splitOn_ne_nil slash path)
    have hfold : cost (segments slash dot path).reverse + (path.splitOn slash).countP (· = []) ≤
        cost ([] : List (List α)) + cost (path.splitOn slash) := by
      rw [segments, List.reverse_reverse]
      exact cost_foldl _ []
    have hreverse : cost (segments slash dot path).reverse = cost (segments slash dot path) := by simp [cost]
    have hempty : cost ([] : List (List α)) = 0 := rfl
    have hframe : cost (framed slash dot path) =
        (if path.head? = some slash then 1 else 0) + cost (segments slash dot path) +
          if path.getLast? = some slash then 1 else 0 := by
      rw [framed, cost_append, cost_append]
      congr 2
      · split <;> rfl
      · split <;> rfl
    have hcount : _ ≤ (path.splitOn slash).countP (· = []) := countP_empty hpath
    rw [List.intercalate_splitOn] at hpathCost
    rw [normalize_eq_join hpath hsegments]
    omega

/-- **No symbol is new.** -/
theorem mem_normalize {c : α} (h : c ∈ normalize slash dot path) : c = slash ∨ c = dot ∨ c ∈ path := by
  by_cases hpath : path = []
  · subst hpath
    exact .inr (.inl (List.mem_singleton.mp h))
  · by_cases hsegments : segments slash dot path = []
    · rw [normalize_of_nil hpath hsegments] at h
      split at h
      · exact .inl (List.mem_singleton.mp h)
      · split at h
        · rcases List.mem_cons.mp h with rfl | hslash
          · exact .inr (.inl rfl)
          · exact .inl (List.mem_singleton.mp hslash)
        · exact .inr (.inl (List.mem_singleton.mp h))
    · rw [normalize_eq_join hpath hsegments] at h
      rcases mem_join h with rfl | ⟨s, hs, hc⟩
      · exact .inl rfl
      · rcases mem_framed hs with rfl | hsegment
        · exact absurd hc List.not_mem_nil
        · have hmem : c ∈ [slash].intercalate (path.splitOn slash) := mem_join_of_mem (mem_segments hsegment) hc
          rw [List.intercalate_splitOn] at hmem
          exact .inr (.inr hmem)

end PosixPath
