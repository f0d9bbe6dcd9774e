/-
# Tables with a key

A database table is a list of rows; `key` is its primary key or the conflict
target of an upsert. `find` reads the row of a key, `update` is
`UPDATE … WHERE key = k`, `upsert` is `INSERT … ON CONFLICT (key) DO UPDATE`,
`delete` is `DELETE … WHERE key = k`. Each has one lemma that says what `find`
reads after it. `updateWhere` is `UPDATE … WHERE p` for any condition.
A table may also be the function of its key (`Function.update`).

Key theorems: `find_map`, `find_update`, `mem_updateWhere`, `mem_update_of_nodup`, `find_upsert`,
`nodup_upsert`, `find_delete`, `find_filter`, `eq_of_update`.
-/
import Mathlib.Data.List.Nodup

namespace Table

variable {ρ κ : Type*} [DecidableEq κ] (key : ρ → κ)

/-- The row with key `k`. -/
def find (t : List ρ) (k : κ) : Option ρ := t.find? fun r => key r = k

/-- `UPDATE … SET f WHERE key = k`. -/
def update (t : List ρ) (k : κ) (f : ρ → ρ) : List ρ := t.map fun r => if key r = k then f r else r

/-- `UPDATE … SET f WHERE p`. -/
def updateWhere (p : ρ → Bool) (f : ρ → ρ) (t : List ρ) : List ρ := t.map fun r => if p r then f r else r

/-- `INSERT new ON CONFLICT (key) DO UPDATE SET f`. -/
def upsert (t : List ρ) (new : ρ) (f : ρ → ρ) : List ρ :=
  if (find key t (key new)).isSome then update key t (key new) f else t ++ [new]

/-- `DELETE … WHERE key = k`. -/
def delete (t : List ρ) (k : κ) : List ρ := t.filter fun r => key r ≠ k

variable {key}

theorem find_spec {t : List ρ} {k : κ} {r : ρ} (h : find key t k = some r) : r ∈ t ∧ key r = k :=
  ⟨List.mem_of_find?_eq_some h, by simpa using List.find?_some h⟩

theorem find_of_nodup : ∀ {t : List ρ} {r : ρ}, (t.map key).Nodup → r ∈ t → find key t (key r) = some r
  | r' :: t, r, hnd, hr => by
    rw [List.map_cons, List.nodup_cons] at hnd
    unfold find
    by_cases hk : key r' = key r
    · have heq : r = r' := by
        rcases List.mem_cons.mp hr with h | h
        · exact h
        · exact absurd (List.mem_map.mpr ⟨r, h, hk.symm⟩) hnd.1
      rw [heq, List.find?_cons_of_pos (by simp)]
    · rw [List.find?_cons_of_neg (by simpa using hk)]
      have hmem : r ∈ t := by
        rcases List.mem_cons.mp hr with h | h
        · exact absurd (congrArg key h.symm) hk
        · exact h
      exact find_of_nodup hnd.2 hmem

/-- A change that leaves the keys alone is seen through `find`. -/
theorem find_map {f : ρ → ρ} (hf : ∀ r, key (f r) = key r) (t : List ρ) (k : κ) :
    find key (t.map f) k = (find key t k).map f := by
  unfold find
  rw [List.find?_map]
  congr 2
  funext r
  simp [hf]

theorem find_update {f : ρ → ρ} (hf : ∀ r, key (f r) = key r) (t : List ρ) (k k' : κ) :
    find key (update key t k f) k' = if k' = k then (find key t k).map f else find key t k' := by
  unfold update
  rw [find_map fun r => by split <;> simp [hf]]
  split
  · rename_i hk
    subst hk
    cases h : find key t k' with
    | none => rfl
    | some r => simp [(find_spec h).2]
  · rename_i hk
    cases h : find key t k' with
    | none => rfl
    | some r =>
      have : key r ≠ k := fun he => hk ((find_spec h).2 ▸ he)
      simp [this]

/-- A change of some rows is read row by row. -/
theorem mem_updateWhere {p : ρ → Bool} {f : ρ → ρ} {t : List ρ} {r' : ρ} (h : r' ∈ updateWhere p f t) :
    r' ∈ t ∨ ∃ r ∈ t, p r = true ∧ r' = f r := by
  obtain ⟨r, hr, rfl⟩ := List.mem_map.mp h
  by_cases hp : p r = true
  · rw [if_pos hp]
    exact .inr ⟨r, hr, hp, rfl⟩
  · rw [if_neg hp]
    exact .inl hr

theorem map_updateWhere {α : Type*} {g : ρ → α} {p : ρ → Bool} {f : ρ → ρ} (hf : ∀ r, g (f r) = g r)
    (t : List ρ) : (updateWhere p f t).map g = t.map g := by
  unfold updateWhere
  rw [List.map_map]
  apply List.map_congr_left
  intro r _
  by_cases hp : p r = true
  · simp [hp, hf]
  · simp [hp]

theorem update_eq (t : List ρ) (k : κ) (f : ρ → ρ) : update key t k f = updateWhere (fun r => key r = k) f t := by
  simp [update, updateWhere]

/-- An update by a row's key changes this row alone. -/
theorem mem_update_of_nodup {t : List ρ} (hnd : (t.map key).Nodup) {r r' : ρ} (hr : r ∈ t) {f : ρ → ρ}
    (h : r' ∈ update key t (key r) f) : r' ∈ t ∨ r' = f r := by
  rw [update_eq] at h
  rcases mem_updateWhere h with hold | ⟨r₁, hr₁, hkey, rfl⟩
  · exact .inl hold
  · rw [List.inj_on_of_nodup_map hnd hr₁ hr (of_decide_eq_true hkey)]
    exact .inr rfl

theorem find_none {t : List ρ} {k : κ} (h : find key t k = none) : ∀ r ∈ t, key r ≠ k := by
  simpa [find] using h

theorem find_append_new {t : List ρ} {new : ρ} (h : find key t (key new) = none) (k : κ) :
    find key (t ++ [new]) k = if k = key new then some new else find key t k := by
  unfold find at h ⊢
  rw [List.find?_append]
  split
  · rename_i hk
    subst hk
    simp [h]
  · rename_i hk
    have : key new ≠ k := fun he => hk he.symm
    simp [this]

/-- After an upsert the key has the updated row, or the new one. -/
theorem find_upsert {f : ρ → ρ} (hf : ∀ r, key (f r) = key r) (t : List ρ) (new : ρ) (k : κ) :
    find key (upsert key t new f) k =
      if k = key new then some (((find key t (key new)).map f).getD new) else find key t k := by
  unfold upsert
  cases h : find key t (key new) with
  | none => simp [find_append_new h]
  | some r =>
    rw [if_pos (Option.isSome_some), find_update hf]
    simp [h]

theorem keys_update {f : ρ → ρ} (hf : ∀ r, key (f r) = key r) (t : List ρ) (k : κ) :
    (update key t k f).map key = t.map key := by
  rw [update_eq]
  exact map_updateWhere hf t

theorem nodup_upsert {f : ρ → ρ} (hf : ∀ r, key (f r) = key r) {t : List ρ} (hnd : (t.map key).Nodup) (new : ρ) :
    ((upsert key t new f).map key).Nodup := by
  unfold upsert
  split <;> rename_i hfound
  · rw [keys_update hf]
    exact hnd
  · have hnew : find key t (key new) = none := by simpa using hfound
    rw [List.map_append, List.map_singleton, ← List.concat_eq_append]
    refine hnd.concat fun hmem => ?_
    obtain ⟨r, hr, hk⟩ := List.mem_map.mp hmem
    exact find_none hnew r hr hk

theorem nodup_delete {t : List ρ} (hnd : (t.map key).Nodup) (k : κ) : ((delete key t k).map key).Nodup :=
  hnd.sublist (List.filter_sublist.map key)

theorem find_delete (t : List ρ) (k k' : κ) :
    find key (delete key t k) k' = if k' = k then none else find key t k' := by
  unfold delete find
  rw [List.find?_filter]
  split
  · rename_i hk
    subst hk
    rw [List.find?_eq_none]
    simp
  · rename_i hk
    congr 1
    funext r
    by_cases hr : key r = k'
    · simp [hr, hk]
    · simp [hr]

/-- The key of a table without duplicates finds the row, if it is not filtered out. -/
theorem find_filter {t : List ρ} (hnd : (t.map key).Nodup) (p : ρ → Bool) (k : κ) :
    find key (t.filter p) k = (find key t k).filter p := by
  have hfiltered : ((t.filter p).map key).Nodup := hnd.sublist (List.filter_sublist.map key)
  cases hfind : find key t k with
  | none =>
    have hnone : ∀ r ∈ t, key r ≠ k := find_none hfind
    rw [Option.filter_none]
    unfold find
    rw [List.find?_eq_none]
    intro r hr
    simpa using hnone r (List.mem_filter.mp hr).1
  | some r =>
    obtain ⟨hr, rfl⟩ := find_spec hfind
    by_cases hp : p r = true
    · rw [Option.filter_some_pos hp]
      exact find_of_nodup hfiltered (List.mem_filter.mpr ⟨hr, hp⟩)
    · rw [Option.filter_some_neg (by simpa using hp)]
      unfold find
      rw [List.find?_eq_none]
      intro r' hr' hk
      obtain ⟨hmem, hp'⟩ := List.mem_filter.mp hr'
      have hsame : r' = r := List.inj_on_of_nodup_map hnd hmem hr (by simpa using hk)
      exact hp (hsame ▸ hp')

/-- What stands under a key after one of them was written is what was written, or what stood there. -/
theorem eq_of_update {α : Type*} {f : κ → α} {i j : κ} {a b : α} (h : Function.update f i a j = b) :
    (j = i ∧ a = b) ∨ (j ≠ i ∧ f j = b) := by
  by_cases hj : j = i
  · rw [hj, Function.update_self] at h
    exact .inl ⟨hj, h⟩
  · rw [Function.update_of_ne hj] at h
    exact .inr ⟨hj, h⟩

end Table
