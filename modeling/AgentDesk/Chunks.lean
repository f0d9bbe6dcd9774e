/-
# Cutting a list into chunks

A list that is longer than a limit is cut at a place that depends on it, the front is a chunk without the blanks at its
end, and what is behind the cut goes on without the blanks at its start, until it fits. Some neighbours belong
together (the halves of a character), and no chunk should end between them.

* `split_total`: with a cut that is positive the loop ends.
* `split_short`, `split_filter`, `split_notBlank`: **what the chunks are**.
* `whole_iff`: **no chunk ends between neighbours** that belong together exactly when no cut the loop makes does.
-/
import Mathlib.Data.List.DropRight
import Mathlib.Logic.Relation

namespace Chunks

variable {α : Type*} (space : α → Bool) (cut : List α → ℕ) (limit : ℕ)

/-- What is before the cut, without the blanks at its end. -/
def front (l : List α) : List α := (l.take (cut l)).rdropWhile space

/-- What is behind the cut, without the blanks at its start. -/
def back (l : List α) : List α := (l.drop (cut l)).dropWhile space

/-- The chunks, where `fuel` rounds are enough. -/
def split : ℕ → List α → Option (List (List α))
  | 0, _ => none
  | fuel + 1, l =>
    if limit < l.length then (split fuel (back space cut l)).map fun chunks => front space cut l :: chunks
    else some (if l.isEmpty then [] else [l])

/-- The lists the loop comes to. -/
def Reaches : List α → List α → Prop :=
  Relation.ReflTransGen fun l m => limit < l.length ∧ m = back space cut l

/-- The end of `l` and the start of `m` belong together. -/
def Breaks (joined : α → α → Prop) (l m : List α) : Prop := ∃ a ∈ l.getLast?, ∃ b ∈ m.head?, joined a b

/-- The chunks lie in the list one after the other, with blanks between them, and none ends between neighbours that
belong together. -/
def Whole (joined : α → α → Prop) : List α → List (List α) → Prop
  | l, [] => l = []
  | l, c :: chunks => ∃ gap rest, l = c ++ (gap ++ rest) ∧ (∀ a ∈ gap, space a = true) ∧
      (gap = [] → ¬ Breaks joined c rest) ∧ Whole joined rest chunks

/-- It does not start with a blank. -/
def Starts (l : List α) : Prop := ∀ a ∈ l.head?, space a = false

variable {space cut limit}

/-! ### Rounds -/

theorem split_long {fuel : ℕ} {l : List α} {chunks : List (List α)} (hlong : limit < l.length)
    (h : split space cut limit fuel l = some chunks) :
    ∃ fuel' chunks', fuel = fuel' + 1 ∧ split space cut limit fuel' (back space cut l) = some chunks' ∧
      chunks = front space cut l :: chunks' := by
  cases fuel with
  | zero => cases h
  | succ fuel =>
    rw [split, if_pos hlong] at h
    obtain ⟨chunks', hsplit, rfl⟩ := Option.map_eq_some_iff.mp h
    exact ⟨fuel, chunks', rfl, hsplit, rfl⟩

theorem split_fits {fuel : ℕ} {l : List α} {chunks : List (List α)} (hfits : ¬ limit < l.length)
    (h : split space cut limit fuel l = some chunks) : chunks = if l.isEmpty then [] else [l] := by
  cases fuel with
  | zero => cases h
  | succ fuel =>
    rw [split, if_neg hfits] at h
    exact (Option.some.inj h).symm

theorem length_back_lt {l : List α} (hl : 0 < l.length) (hcut : 0 < cut l) :
    (back space cut l).length < l.length := by
  have hle : (back space cut l).length ≤ (l.drop (cut l)).length := (List.dropWhile_sublist _).length_le
  rw [List.length_drop] at hle
  omega

theorem starts_back (l : List α) : Starts space (back space cut l) := by
  intro a ha
  have hne : back space cut l ≠ [] := by
    rintro hnil
    rw [hnil] at ha
    cases ha
  rw [List.head?_eq_some_head hne] at ha
  obtain rfl := Option.some.inj ha
  exact List.head_dropWhile_not space hne

/-- **The loop ends.** -/
theorem split_total (hcut : ∀ l, limit < l.length → 0 < cut l) {fuel : ℕ} {l : List α} (h : l.length < fuel) :
    ∃ chunks, split space cut limit fuel l = some chunks := by
  induction fuel generalizing l with
  | zero => omega
  | succ fuel ih =>
    rw [split]
    by_cases hlong : limit < l.length
    · have hshorter : (back space cut l).length < l.length := length_back_lt (by omega) (hcut l hlong)
      obtain ⟨chunks, hchunks⟩ := ih (l := back space cut l) (by omega)
      rw [if_pos hlong, hchunks]
      exact ⟨_, rfl⟩
    · rw [if_neg hlong]
      exact ⟨_, rfl⟩

theorem split_mono {fuel fuel' : ℕ} {l : List α} {chunks : List (List α)} (hfuel : fuel ≤ fuel')
    (h : split space cut limit fuel l = some chunks) : split space cut limit fuel' l = some chunks := by
  induction fuel generalizing fuel' l chunks with
  | zero => cases h
  | succ fuel ih =>
    obtain ⟨more, rfl⟩ : ∃ more, fuel' = more + 1 := ⟨fuel' - 1, by omega⟩
    rw [split] at h ⊢
    by_cases hlong : limit < l.length
    · rw [if_pos hlong] at h ⊢
      obtain ⟨chunks', hsplit, rfl⟩ := Option.map_eq_some_iff.mp h
      rw [ih (by omega) hsplit]
      rfl
    · rw [if_neg hlong] at h ⊢
      exact h

theorem split_short (hcut : ∀ l, limit < l.length → cut l ≤ limit) {fuel : ℕ} {l : List α} {chunks : List (List α)}
    (h : split space cut limit fuel l = some chunks) : ∀ c ∈ chunks, c.length ≤ limit := by
  induction fuel generalizing l chunks with
  | zero => cases h
  | succ fuel ih =>
    by_cases hlong : limit < l.length
    · obtain ⟨fuel', chunks', hfuel, hsplit, rfl⟩ := split_long hlong h
      obtain rfl : fuel = fuel' := by omega
      have hfront : (front space cut l).length ≤ limit := by
        have hprefix : (front space cut l).length ≤ (l.take (cut l)).length :=
          (List.rdropWhile_prefix space _).length_le
        have hle := hcut l hlong
        rw [List.length_take] at hprefix
        omega
      exact List.forall_mem_cons.mpr ⟨hfront, ih hsplit⟩
    · rw [split_fits hlong h]
      intro c hc
      split at hc
      · cases hc
      · rw [List.mem_singleton.mp hc]
        omega

/-! ### What is lost -/

theorem cut_eq (l : List α) : ∃ gap, l = front space cut l ++ (gap ++ back space cut l) ∧
    (∀ a ∈ gap, space a = true) ∧
    (gap = [] → l.take (cut l) = front space cut l ∧ l.drop (cut l) = back space cut l) := by
  let before := (l.take (cut l)).rtakeWhile space
  let behind := (l.drop (cut l)).takeWhile space
  have hbefore : front space cut l ++ before = l.take (cut l) := List.rdropWhile_append_rtakeWhile ..
  have hbehind : behind ++ back space cut l = l.drop (cut l) := List.takeWhile_append_dropWhile
  refine ⟨before ++ behind, ?_, fun a ha => ?_, fun hnil => ?_⟩
  · calc l = l.take (cut l) ++ l.drop (cut l) := (List.take_append_drop _ l).symm
      _ = (front space cut l ++ before) ++ (behind ++ back space cut l) := by rw [hbefore, hbehind]
      _ = _ := by simp only [List.append_assoc]
  · rcases List.mem_append.mp ha with ha | ha
    · exact List.mem_rtakeWhile_imp ha
    · exact List.mem_takeWhile_imp ha
  · obtain ⟨hnone, hnone'⟩ := List.append_eq_nil_iff.mp hnil
    rw [hnone, List.append_nil] at hbefore
    rw [hnone', List.nil_append] at hbehind
    exact ⟨hbefore.symm, hbehind.symm⟩

theorem filter_space {gap : List α} (h : ∀ a ∈ gap, space a = true) : gap.filter (fun a => !space a) = [] :=
  List.filter_eq_nil_iff.mpr fun a ha => by simp [h a ha]

/-- **Only blanks are lost.** -/
theorem split_filter {fuel : ℕ} {l : List α} {chunks : List (List α)} (h : split space cut limit fuel l = some chunks) :
    chunks.flatten.filter (fun a => !space a) = l.filter fun a => !space a := by
  induction fuel generalizing l chunks with
  | zero => cases h
  | succ fuel ih =>
    by_cases hlong : limit < l.length
    · obtain ⟨fuel', chunks', hfuel, hsplit, rfl⟩ := split_long hlong h
      obtain rfl : fuel = fuel' := by omega
      obtain ⟨gap, hl, hgap, -⟩ := @cut_eq _ space cut l
      have hparts := congrArg (List.filter fun a => !space a) hl
      rw [List.filter_append, List.filter_append, filter_space hgap, List.nil_append] at hparts
      rw [List.flatten_cons, List.filter_append, ih hsplit, hparts]
    · rw [split_fits hlong h]
      cases l with
      | nil => rfl
      | cons a l => simp

/-! ### How chunks start -/

theorem notBlank_of_starts {l : List α} (hne : l ≠ []) (h : Starts space l) : ∃ a ∈ l, space a = false := by
  cases l with
  | nil => exact absurd rfl hne
  | cons a l => exact ⟨a, List.mem_cons_self, h a rfl⟩

theorem mem_front {l : List α} {a : α} (ha : a ∈ l.take (cut l)) (hspace : space a = false) :
    a ∈ front space cut l := by
  have hparts : front space cut l ++ (l.take (cut l)).rtakeWhile space = l.take (cut l) :=
    List.rdropWhile_append_rtakeWhile
  rw [← hparts] at ha
  rcases List.mem_append.mp ha with hmem | hmem
  · exact hmem
  · have hblank := List.mem_rtakeWhile_imp hmem
    rw [hspace] at hblank
    cases hblank

theorem front_starts {l : List α} (hpos : 0 < cut l) (hne : l ≠ []) (h : Starts space l) :
    front space cut l ≠ [] ∧ Starts space (front space cut l) := by
  cases l with
  | nil => exact absurd rfl hne
  | cons a l =>
    have hfirst : space a = false := h a rfl
    have htake : a ∈ (a :: l).take (cut (a :: l)) := by
      obtain ⟨n, hn⟩ : ∃ n, cut (a :: l) = n + 1 := ⟨cut (a :: l) - 1, by omega⟩
      rw [hn, List.take_succ_cons]
      exact List.mem_cons_self
    have hmem := mem_front htake hfirst
    have hprefix : front space cut (a :: l) <+: a :: l := (List.rdropWhile_prefix space _).trans (List.take_prefix _ _)
    refine ⟨List.ne_nil_of_mem hmem, fun b hb => ?_⟩
    obtain ⟨rest, hrest⟩ := hprefix
    cases hfront : front space cut (a :: l) with
    | nil =>
      rw [hfront] at hb
      cases hb
    | cons c front' =>
      rw [hfront] at hb hrest
      obtain rfl : c = b := Option.some.inj hb
      rw [(List.cons.inj hrest).1]
      exact hfirst

theorem split_starts (hcut : ∀ l, limit < l.length → 0 < cut l) {fuel : ℕ} {l : List α} {chunks : List (List α)}
    (hstarts : Starts space l) (h : split space cut limit fuel l = some chunks) :
    ∀ c ∈ chunks, c ≠ [] ∧ Starts space c := by
  induction fuel generalizing l chunks with
  | zero => cases h
  | succ fuel ih =>
    by_cases hlong : limit < l.length
    · obtain ⟨fuel', chunks', hfuel, hsplit, rfl⟩ := split_long hlong h
      obtain rfl : fuel = fuel' := by omega
      have hne : l ≠ [] := List.ne_nil_of_length_pos (by omega)
      exact List.forall_mem_cons.mpr ⟨front_starts (hcut l hlong) hne hstarts, ih (starts_back l) hsplit⟩
    · rw [split_fits hlong h]
      intro c hc
      split at hc
      · cases hc
      · rename_i hne
        obtain rfl := List.mem_singleton.mp hc
        exact ⟨by simpa using hne, hstarts⟩

/-- **No chunk is blank**, of a list that does not start with a blank. -/
theorem split_notBlank (hcut : ∀ l, limit < l.length → 0 < cut l) {fuel : ℕ} {l : List α} {chunks : List (List α)}
    (hstarts : Starts space l) (h : split space cut limit fuel l = some chunks) :
    ∀ c ∈ chunks, ∃ a ∈ c, space a = false := by
  intro c hc
  obtain ⟨hne, hc⟩ := split_starts hcut hstarts h c hc
  exact notBlank_of_starts hne hc

/-! ### Where chunks end -/

theorem starts_of_whole {joined : α → α → Prop} {l : List α} {chunks : List (List α)}
    (hchunks : ∀ c ∈ chunks, c ≠ [] ∧ Starts space c) (h : Whole space joined l chunks) : Starts space l := by
  cases chunks with
  | nil =>
    obtain rfl : l = [] := h
    exact fun a ha => nomatch ha
  | cons c chunks =>
    obtain ⟨gap, rest, rfl, -⟩ := h
    obtain ⟨hne, hstarts⟩ := hchunks c List.mem_cons_self
    intro a ha
    rw [List.head?_append_of_ne_nil _ hne] at ha
    exact hstarts a ha

theorem gap_unique {gap gap' rest rest' : List α} (hgap : ∀ a ∈ gap, space a = true)
    (hgap' : ∀ a ∈ gap', space a = true) (hrest : Starts space rest) (hrest' : Starts space rest')
    (h : gap ++ rest = gap' ++ rest') : gap = gap' ∧ rest = rest' := by
  have hdrop : ∀ {gap rest : List α}, (∀ a ∈ gap, space a = true) → Starts space rest →
      (gap ++ rest).dropWhile space = rest := by
    intro gap rest hgap hrest
    rw [List.dropWhile_append_of_pos hgap]
    cases rest with
    | nil => rfl
    | cons a rest => rw [List.dropWhile_cons_of_neg (by simp [hrest a rfl])]
  have hsame : rest = rest' := by rw [← hdrop hgap hrest, h, hdrop hgap' hrest']
  subst hsame
  exact ⟨List.append_cancel_right h, rfl⟩

theorem breaks_cut {joined : α → α → Prop} (hjoined : ∀ a b, joined a b → space a = false ∧ space b = false)
    {l gap : List α} (hl : l = front space cut l ++ (gap ++ back space cut l))
    (hnil : gap = [] → l.take (cut l) = front space cut l ∧ l.drop (cut l) = back space cut l) :
    (gap = [] → ¬ Breaks joined (front space cut l) (back space cut l)) ↔
      ¬ Breaks joined (l.take (cut l)) (l.drop (cut l)) := by
  constructor
  · rintro hseam ⟨a, ha, b, hb, hab⟩
    obtain ⟨hspace, hspace'⟩ := hjoined a b hab
    have hfront : front space cut l = l.take (cut l) := by
      refine List.rdropWhile_eq_self_iff.mpr fun hne => ?_
      rw [List.getLast?_eq_some_getLast hne] at ha
      rw [Option.some.inj ha, hspace]
      exact Bool.false_ne_true
    have hback : back space cut l = l.drop (cut l) := by
      cases hdrop : l.drop (cut l) with
      | nil => rw [back, hdrop, List.dropWhile_nil]
      | cons c rest =>
        rw [hdrop] at hb
        obtain rfl : c = b := Option.some.inj hb
        rw [back, hdrop, List.dropWhile_cons_of_neg (by simp [hspace'])]
    have hnone : gap = [] := by
      have hlength := congrArg List.length hl
      have hparts := congrArg List.length (List.take_append_drop (cut l) l)
      rw [hfront, hback] at hlength
      simp only [List.length_append] at hlength hparts
      exact List.eq_nil_of_length_eq_zero (by omega)
    refine hseam hnone ?_
    rw [hfront, hback]
    exact ⟨a, ha, b, hb, hab⟩
  · intro hcut hnone
    obtain ⟨hfront, hback⟩ := hnil hnone
    rw [← hfront, ← hback]
    exact hcut

theorem whole_cons (hcut : ∀ l, limit < l.length → 0 < cut l) {joined : α → α → Prop}
    (hjoined : ∀ a b, joined a b → space a = false ∧ space b = false) {fuel : ℕ} {l : List α} {chunks : List (List α)}
    (h : split space cut limit fuel (back space cut l) = some chunks) :
    Whole space joined l (front space cut l :: chunks) ↔
      ¬ Breaks joined (l.take (cut l)) (l.drop (cut l)) ∧ Whole space joined (back space cut l) chunks := by
  obtain ⟨gap, hl, hgap, hnil⟩ := @cut_eq _ space cut l
  have hseam := breaks_cut hjoined hl hnil
  constructor
  · rintro ⟨gap', rest, hl', hgap', hbreaks, hrest⟩
    have hstarts := starts_of_whole (split_starts hcut (starts_back l) h) hrest
    have hbehind : gap' ++ rest = gap ++ back space cut l := List.append_cancel_left (hl'.symm.trans hl)
    obtain ⟨rfl, rfl⟩ := gap_unique hgap' hgap hstarts (starts_back l) hbehind
    exact ⟨hseam.mp hbreaks, hrest⟩
  · rintro ⟨hbreaks, hrest⟩
    exact ⟨gap, back space cut l, hl, hgap, hseam.mpr hbreaks, hrest⟩

theorem reaches_long {l m : List α} (hlong : limit < l.length) :
    Reaches space cut limit l m ↔ m = l ∨ Reaches space cut limit (back space cut l) m := by
  refine Relation.ReflTransGen.cases_head_iff.trans (or_congr eq_comm ?_)
  constructor
  · rintro ⟨_, ⟨-, rfl⟩, hrest⟩
    exact hrest
  · exact fun hrest => ⟨_, ⟨hlong, rfl⟩, hrest⟩

theorem reaches_fits {l m : List α} (hfits : ¬ limit < l.length) (h : Reaches space cut limit l m) : m = l := by
  rcases Relation.ReflTransGen.cases_head_iff.mp h with heq | ⟨_, ⟨hlong, -⟩, -⟩
  · exact heq.symm
  · exact absurd hlong hfits

theorem whole_fits {joined : α → α → Prop} (l : List α) : Whole space joined l (if l.isEmpty then [] else [l]) := by
  split
  · rename_i hempty
    exact List.isEmpty_iff.mp hempty
  · refine ⟨[], [], by simp, by simp, ?_, rfl⟩
    rintro - ⟨a, -, b, hb, -⟩
    cases hb

/-- **No chunk ends between neighbours** that belong together exactly when no cut the loop makes does. -/
theorem whole_iff (hcut : ∀ l, limit < l.length → 0 < cut l) {joined : α → α → Prop}
    (hjoined : ∀ a b, joined a b → space a = false ∧ space b = false) {fuel : ℕ} {l : List α} {chunks : List (List α)}
    (h : split space cut limit fuel l = some chunks) :
    Whole space joined l chunks ↔ ∀ m, Reaches space cut limit l m → limit < m.length →
      ¬ Breaks joined (m.take (cut m)) (m.drop (cut m)) := by
  induction fuel generalizing l chunks with
  | zero => cases h
  | succ fuel ih =>
    by_cases hlong : limit < l.length
    · obtain ⟨fuel', chunks', hfuel, hsplit, rfl⟩ := split_long hlong h
      obtain rfl : fuel = fuel' := by omega
      rw [whole_cons hcut hjoined hsplit, ih hsplit]
      constructor
      · rintro ⟨hfirst, hothers⟩ m hm hmlong
        rcases (reaches_long hlong).mp hm with rfl | hm
        · exact hfirst
        · exact hothers m hm hmlong
      · intro hall
        refine ⟨hall l .refl hlong, fun m hm => hall m ((reaches_long hlong).mpr (.inr hm))⟩
    · rw [split_fits hlong h]
      refine iff_of_true (whole_fits l) fun m hm hmlong => ?_
      rw [reaches_fits hlong hm] at hmlong
      exact absurd hmlong hlong

end Chunks
