/-
# What the card of a request shows

An admin approves what the card shows, so the card has to show all of what is applied, and nothing that the agent
has written may pass for prose of the host.

Every text that the agent gives is safe, or a name, or it is scrubbed: it has no backtick, no backslash and no
control character. Its JSON has a backslash only before a quotation mark or a `u`, so the card replaces nothing in
it, and no line of it is a fence. The payload is JSON of texts, which is kept as it is.

* `safeText_inert`, `scrubDisplayName_inert`: no text that is shown means anything to the card.
* `normalizeCardUnits_settled`: the card leaves a settled question as it is.
* `ShowsBlocks.of_quoted`: **the question has the fences of the host**, and JSON between them.
* `applyInstallPackages_eq`, `applyAddMcpServer_eq`: what the payload that was kept puts into the config.
* `self_mod_card_shows_what_is_applied`: **what is approved is what is applied**.
-/
import AgentDesk.ConfigWriteBack
import AgentDesk.SelfMod
import Mathlib.Data.Bool.AllAny

namespace AgentDesk

open JsonText Js OutboundFields

/-! ### Texts that leave the card as it is -/

/-- A unit that means nothing to the card. -/
def Inert (c : UInt16) : Prop := c ≠ unit '`' ∧ c ≠ unit '\\' ∧ 0x20 ≤ c

theorem inert_of_toNat {c : UInt16} (hlow : 0x20 ≤ c.toNat) (htick : c.toNat ≠ 0x60) (hslash : c.toNat ≠ 0x5c) :
    Inert c := by
  refine ⟨?_, ?_, UInt16.le_iff_toNat_le.mpr hlow⟩
  · rintro rfl
    exact htick rfl
  · rintro rfl
    exact hslash rfl

theorem inert_of_surrogate {c : UInt16} (h : isLead c = true ∨ isTrail c = true) : Inert c := by
  have hhigh : 0xd800 ≤ c.toNat := by
    rcases h with h | h
    · simp only [isLead, Bool.and_eq_true, decide_eq_true_eq] at h
      exact UInt16.le_iff_toNat_le.mp h.1
    · simp only [isTrail, Bool.and_eq_true, decide_eq_true_eq] at h
      have htrail : 0xdc00 ≤ c.toNat := UInt16.le_iff_toNat_le.mp h.1
      omega
  exact inert_of_toNat (by omega) (by omega) (by omega)

theorem safePoint_inert {c : UInt16} (h : safePoint c.toNat = true) : Inert c := by
  simp only [safePoint, controlPoint, Bool.not_eq_true', Bool.or_eq_false_iff, decide_eq_false_iff_not] at h
  obtain ⟨⟨⟨⟨⟨⟨hlow, -⟩, -⟩, -⟩, -⟩, htick⟩, hslash⟩ := h
  exact inert_of_toNat (by omega) htick hslash

/-- **A safe text is inert.** -/
theorem safeText_inert {t : Text} (h : safeText t = true) : ∀ c ∈ t, Inert c := by
  intro c hc
  by_cases hsurrogate : isLead c = true ∨ isTrail c = true
  · exact inert_of_surrogate hsurrogate
  · obtain ⟨hlead, htrail⟩ := not_or.mp hsurrogate
    have hmem := unit_mem_characters t hc (by simpa using hlead) (by simpa using htrail)
    exact safePoint_inert (List.all_eq_true.mp h [c] hmem)

/-- What is shown of a name is inert. -/
theorem scrubDisplayName_inert (name : Text) : ∀ c ∈ scrubDisplayName name, Inert c := by
  have hclean : ∀ c ∈ ((characters name).filter safeText).flatten, Inert c := by
    intro c hc
    obtain ⟨ch, hch, hmem⟩ := List.mem_flatten.mp hc
    exact safeText_inert (List.mem_filter.mp hch).2 c hmem
  unfold scrubDisplayName
  dsimp only
  split
  · unfold Inert
    exact List.all_iff_forall_prop.mp (by decide)
  · intro c hc
    exact hclean c ((trimText_sublist _).subset (List.mem_of_mem_take hc))

theorem matchesName_inert {first more : UInt16 → Bool} (hfirst : ∀ c, first c = true → Inert c)
    (hmore : ∀ c, more c = true → Inert c) {t : Text} (h : matchesName first more t = true) : ∀ c ∈ t, Inert c := by
  cases t with
  | nil => cases h
  | cons c cs =>
    rw [matchesName, Bool.and_eq_true] at h
    exact List.forall_mem_cons.mpr ⟨hfirst c h.1, fun d hd => hmore d (List.all_eq_true.mp h.2 d hd)⟩

theorem within_inert {lo hi : Char} {c : UInt16} (h : within lo hi c = true) (hlow : 0x20 ≤ (unit lo).toNat)
    (hrange : 0x60 < (unit lo).toNat ∨ (unit hi).toNat < 0x5c) : Inert c := by
  simp only [within, Bool.and_eq_true, decide_eq_true_eq, UInt16.le_iff_toNat_le] at h
  exact inert_of_toNat (by omega) (by omega) (by omega)

theorem lowerOrDigit_inert {c : UInt16} (h : lowerOrDigit c = true) : Inert c := by
  rcases (Bool.or_eq_true _ _).mp h with h | h
  · exact within_inert h (by decide) (by decide)
  · exact within_inert h (by decide) (by decide)

theorem letter_inert {c : UInt16} (h : letter c = true) : Inert c := by
  rcases (Bool.or_eq_true _ _).mp h with h | h
  · exact within_inert h (by decide) (by decide)
  · exact within_inert h (by decide) (by decide)

theorem marks_inert {marks : List Char} (hmarks : ∀ d ∈ marks, Inert (unit d)) {c : UInt16}
    (h : (marks.any fun d => c = unit d) = true) : Inert c := by
  obtain ⟨d, hd, hc⟩ := List.any_eq_true.mp h
  rw [of_decide_eq_true hc]
  exact hmarks d hd

theorem aptName_inert {t : Text} (h : aptName t = true) : ∀ c ∈ t, Inert c := by
  refine matchesName_inert (fun c => lowerOrDigit_inert) (fun c hc => ?_) h
  rcases (Bool.or_eq_true _ _).mp hc with hc | hc
  · exact lowerOrDigit_inert hc
  · exact marks_inert (by simp [Inert, unit]) hc

theorem npmPart_inert {t : Text} (h : npmPart t = true) : ∀ c ∈ t, Inert c := by
  refine matchesName_inert (fun c => lowerOrDigit_inert) (fun c hc => ?_) h
  rcases (Bool.or_eq_true _ _).mp hc with hc | hc
  · exact lowerOrDigit_inert hc
  · exact marks_inert (by simp [Inert, unit]) hc

theorem npmName_inert {t : Text} (h : npmName t = true) : ∀ c ∈ t, Inert c := by
  unfold npmName at h
  split at h
  · cases h
  · rename_i c cs
    split at h
    · rename_i hat
      obtain ⟨hscope, hname⟩ := (Bool.and_eq_true _ _).mp h
      refine List.forall_mem_cons.mpr ⟨?_, fun d hd => ?_⟩
      · rw [hat]
        unfold Inert
        decide
      · rw [← List.takeWhile_append_dropWhile (p := fun d => d ≠ unit '/') (l := cs)] at hd
        rcases List.mem_append.mp hd with hd | hd
        · exact npmPart_inert hscope d hd
        · -- the rest begins with the slash
          cases hrest : cs.dropWhile (fun d => d ≠ unit '/') with
          | nil =>
            rw [hrest] at hd
            cases hd
          | cons e rest =>
            rw [hrest] at hd hname
            have hslash : e = unit '/' := by
              have hhead := List.head?_dropWhile_not (fun d => decide (d ≠ unit '/')) cs
              rw [hrest] at hhead
              simpa using hhead
            rcases List.mem_cons.mp hd with rfl | hd
            · rw [hslash]
              unfold Inert
              decide
            · exact npmPart_inert hname d hd
    · exact npmPart_inert h

theorem mcpName_inert {t : Text} (h : mcpName t = true) : ∀ c ∈ t, Inert c := by
  obtain ⟨-, hname⟩ := (Bool.and_eq_true _ _).mp h
  refine matchesName_inert (fun c hc => ?_) (fun c hc => ?_) hname
  · rcases (Bool.or_eq_true _ _).mp hc with hc | hc
    · exact letter_inert hc
    · exact within_inert hc (by decide) (by decide)
  · rcases (Bool.or_eq_true _ _).mp hc with hc | hc
    · rcases (Bool.or_eq_true _ _).mp hc with hc | hc
      · exact letter_inert hc
      · exact within_inert hc (by decide) (by decide)
    · exact marks_inert (by simp [Inert, unit]) hc

theorem envKey_inert {t : Text} (h : envKey t = true) : ∀ c ∈ t, Inert c := by
  have hunderscore : ∀ c : UInt16, decide (c = unit '_') = true → Inert c := by
    intro c hc
    rw [of_decide_eq_true hc]
    unfold Inert
    decide
  obtain ⟨-, hname⟩ := (Bool.and_eq_true _ _).mp h
  refine matchesName_inert (fun c hc => ?_) (fun c hc => ?_) hname
  · rcases (Bool.or_eq_true _ _).mp hc with hc | hc
    · exact letter_inert hc
    · exact hunderscore c hc
  · rcases (Bool.or_eq_true _ _).mp hc with hc | hc
    · rcases (Bool.or_eq_true _ _).mp hc with hc | hc
      · exact letter_inert hc
      · exact within_inert hc (by decide) (by decide)
    · exact hunderscore c hc

/-- The name of the prototype is no name of a server. -/
theorem mcpName_ne_proto {t : Text} (h : mcpName t = true) : t ≠ ofString "__proto__" := by
  rintro rfl
  exact absurd h (by decide)

/-! ### JSON of such texts -/

/-- What may stand in the question. -/
def Shown (t : Text) : Prop := Settled t ∧ unit '`' ∉ t

theorem Shown.append {t u : Text} (ht : Shown t) (hu : Shown u) : Shown (t ++ u) :=
  ⟨ht.1.append hu.1, fun h => (List.mem_append.mp h).elim ht.2 hu.2⟩

theorem shown_of_units {t : Text} (h : ∀ c ∈ t, c ≠ unit '`' ∧ c ≠ unit '\\' ∧ c ≠ 0x0d) : Shown t :=
  ⟨settled_of_units fun c hc => (h c hc).2, fun hmem => (h _ hmem).1 rfl⟩

theorem shown_of_inert {t : Text} (h : ∀ c ∈ t, Inert c) : Shown t := by
  refine shown_of_units fun c hc => ?_
  obtain ⟨htick, hslash, hlow⟩ := h c hc
  refine ⟨htick, hslash, ?_⟩
  rintro rfl
  exact absurd hlow (by decide)

theorem shown_layout : ∀ c ∈ layoutUnits, Shown [c] := by
  have hunits : ∀ c ∈ layoutUnits, c ≠ unit '`' ∧ c ≠ unit '\\' ∧ c ≠ 0x0d :=
    List.all_iff_forall_prop.mp (by decide)
  exact fun c hc => shown_of_units (List.forall_mem_singleton.mpr (hunits c hc))

theorem hexUnit_shown {d : ℕ} (hd : d < 16) : hexUnit d ≠ unit '`' ∧ hexUnit d ≠ unit '\\' ∧ hexUnit d ≠ 0x0d := by
  have hall : ∀ d < 16, hexUnit d ≠ unit '`' ∧ hexUnit d ≠ unit '\\' ∧ hexUnit d ≠ 0x0d := by decide
  exact hall d hd

/-- An escaped unit: a quotation mark, half of a pair, or the unit itself. -/
theorem escapeUnit_shown {c : UInt16} (h : Inert c) : Shown (escapeUnit c) := by
  obtain ⟨htick, hslash, hlow⟩ := h
  have hhigh : 0x20 ≤ c.toNat := UInt16.le_iff_toNat_le.mp hlow
  have hne : ∀ d : UInt16, d.toNat < 0x20 → c ≠ d := by
    rintro d hd rfl
    omega
  have hplain : ¬ c < 0x20 := by
    rw [UInt16.lt_iff_toNat_lt]
    exact not_lt.mpr hhigh
  unfold escapeUnit
  split
  · rename_i hc
    obtain rfl := hc.resolve_right hslash
    exact ⟨.escape (by decide) .nil, by decide⟩
  · rw [if_neg (hne _ (by decide)), if_neg (hne _ (by decide)), if_neg (hne _ (by decide)), if_neg (hne _ (by decide)),
      if_neg (hne _ (by decide))]
    split
    · have hlt := c.toNat_lt
      have hdigits : Shown [hexUnit (c.toNat / 4096), hexUnit (c.toNat / 256 % 16), hexUnit (c.toNat / 16 % 16),
          hexUnit (c.toNat % 16)] := by
        refine shown_of_units ?_
        simp only [List.forall_mem_cons, List.not_mem_nil, false_implies, implies_true, and_true]
        exact ⟨hexUnit_shown (by omega), hexUnit_shown (by omega), hexUnit_shown (by omega), hexUnit_shown (by omega)⟩
      have hmark : Shown [unit '\\', unit 'u'] := ⟨.escape (by decide) .nil, by decide⟩
      exact hmark.append hdigits
    · exact shown_of_inert (List.forall_mem_singleton.mpr ⟨htick, hslash, hlow⟩)

theorem escapeText_shown : ∀ (t : Text), (∀ c ∈ t, Inert c) → Shown (escapeText t)
  | [], _ => ⟨.nil, List.not_mem_nil⟩
  | [c], h => by
    rw [escapeText]
    exact escapeUnit_shown (h c List.mem_cons_self)
  | c :: d :: rest, h => by
    obtain ⟨hc, hmore⟩ := List.forall_mem_cons.mp h
    obtain ⟨hd, hrest⟩ := List.forall_mem_cons.mp hmore
    rw [escapeText]
    split
    · have hpair : Shown [c, d] := shown_of_inert (List.forall_mem_cons.mpr ⟨hc, List.forall_mem_singleton.mpr hd⟩)
      exact hpair.append (escapeText_shown rest hrest)
    · exact (escapeUnit_shown hc).append (escapeText_shown (d :: rest) hmore)

theorem quote_shown {t : Text} (h : ∀ c ∈ t, Inert c) : Shown (quote t) := by
  have hmark : Shown [unit '"'] := shown_of_units (List.all_iff_forall_prop.mp (by decide))
  exact hmark.append ((escapeText_shown t h).append hmark)

theorem texts_pieces {l : List Text} (h : ∀ t ∈ l, ∀ c ∈ t, Inert c) : (texts l).Pieces Shown := by
  show PiecesList Shown (l.map fun t => .str t)
  induction l with
  | nil => trivial
  | cons t l ih =>
    obtain ⟨ht, hrest⟩ := List.forall_mem_cons.mp h
    exact ⟨quote_shown ht, ih hrest⟩

theorem record_pieces {env : List (Text × Text)} (h : ∀ e ∈ env, (∀ c ∈ e.1, Inert c) ∧ ∀ c ∈ e.2, Inert c) :
    PiecesFields Shown (env.map fun e => (e.1, .str e.2)) := by
  induction env with
  | nil => trivial
  | cons e env ih =>
    obtain ⟨⟨hkey, hvalue⟩, hrest⟩ := List.forall_mem_cons.mp h
    exact ⟨quote_shown hkey, quote_shown hvalue, ih hrest⟩

theorem quote_shown_ascii {s : String}
    (h : ((ofString s).all fun c => c ≠ unit '`' ∧ c ≠ unit '\\' ∧ 0x20 ≤ c) = true) : Shown (quote (ofString s)) := by
  refine quote_shown ?_
  unfold Inert
  exact List.all_iff_forall_prop.mp h

theorem packageFields_pieces {apt npm : List Text} (hapt : ∀ t ∈ apt, ∀ c ∈ t, Inert c)
    (hnpm : ∀ t ∈ npm, ∀ c ∈ t, Inert c) : PiecesFields Shown (packageFields apt npm) :=
  ⟨quote_shown_ascii (by decide), texts_pieces hapt, quote_shown_ascii (by decide), texts_pieces hnpm,
    trivial⟩

theorem entryFields_pieces {command : Text} {args : List Text} {env : List (Text × Text)}
    (hcommand : ∀ c ∈ command, Inert c) (hargs : ∀ t ∈ args, ∀ c ∈ t, Inert c)
    (henv : ∀ e ∈ env, (∀ c ∈ e.1, Inert c) ∧ ∀ c ∈ e.2, Inert c) :
    PiecesFields Shown (entryFields command args env) :=
  ⟨quote_shown_ascii (by decide), quote_shown hcommand, quote_shown_ascii (by decide),
    texts_pieces hargs, quote_shown_ascii (by decide), record_pieces henv, trivial⟩

theorem pretty_shown {v : Value} (h : v.Pieces Shown) : Shown (pretty 0 v) :=
  pretty_of_pieces ⟨.nil, List.not_mem_nil⟩ (fun _ _ => Shown.append) shown_layout v 0 h

/-! ### What the card shows -/

/-- A settled text is shown as it is. -/
theorem normalizeCardUnits_settled {t : Text} (h : Settled t) : normalizeCardUnits t = t := by
  have hreturns : JsonText.replaceAll [[0x0d, 0x0a], [0x0d]] [0x0a] 0 t = t := by
    refine replaceAll_of_no_match fun p hp hwithin => h.no_return (hwithin.subset ?_)
    simp only [List.mem_cons, List.not_mem_nil, or_false] at hp
    rcases hp with rfl | rfl <;> decide
  unfold normalizeCardUnits
  rw [hreturns]
  refine replaceAll_of_no_match fun p hp hwithin => ?_
  have hescape : ∃ c ∈ [unit 'n', unit 'r'], [unit '\\', c] <+: p := by
    simp only [List.mem_cons, List.not_mem_nil, or_false] at hp
    rcases hp with rfl | rfl | rfl
    · exact ⟨unit 'r', by decide, by decide⟩
    · exact ⟨unit 'n', by decide, by decide⟩
    · exact ⟨unit 'r', by decide, by decide⟩
  obtain ⟨c, hc, hstart⟩ := hescape
  exact h.no_escape hc (hstart.isInfix.trans hwithin)

/-- The blocks of a text: no other line has a backtick, and each is JSON. -/
structure ShowsBlocks (t : Text) (blocks : List Text) : Prop where
  between : fencedBlocks fence none (lines t) = blocks
  fences : (lines t).count fence = 2 * blocks.length
  only : ∀ l ∈ lines t, unit '`' ∈ l → l = fence
  json : ∀ block ∈ blocks, (parse block).isSome = true

theorem settled_quoted {segments : List (Text × Text)} (h : ∀ s ∈ segments, Settled s.1 ∧ Settled s.2) :
    Settled (quoted fence segments) := by
  have hline : Settled [0x0a] := settled_of_units (List.all_iff_forall_prop.mp (by decide))
  have hfence : Settled fence := settled_of_units (List.all_iff_forall_prop.mp (by decide))
  induction segments with
  | nil => exact .nil
  | cons s rest ih =>
    obtain ⟨⟨hprose, hbody⟩, hrest⟩ := List.forall_mem_cons.mp h
    have hopen := hprose.append (hline.append hfence)
    have hquote := hline.append (hbody.append (hline.append hfence))
    cases rest with
    | nil =>
      have hall := hopen.append hquote
      rw [quoted]
      simpa [List.append_assoc] using hall
    | cons s' rest =>
      have hall := hopen.append (hquote.append (hline.append (ih hrest)))
      rw [quoted]
      simpa [List.append_assoc] using hall

/-- **The question has the fences of the host**, and JSON between them. -/
theorem ShowsBlocks.of_quoted {segments : List (Text × Value)} (hne : segments ≠ [])
    (hprose : ∀ s ∈ segments, Shown s.1) (hvalues : ∀ s ∈ segments, s.2.Pieces Shown) :
    ShowsBlocks (normalizeCardUnits (quoted fence (segments.map fun s => (s.1, pretty 0 s.2))))
      (segments.map fun s => pretty 0 s.2) := by
  have hshown : ∀ s ∈ segments.map (fun s => (s.1, pretty 0 s.2)), Shown s.1 ∧ Shown s.2 := by
    intro s hs
    obtain ⟨s', hs', rfl⟩ := List.mem_map.mp hs
    exact ⟨hprose s' hs', pretty_shown (hvalues s' hs')⟩
  have hquotes : (segments.map fun s => (s.1, pretty 0 s.2)).map (·.2) = segments.map fun s => pretty 0 s.2 := by
    rw [List.map_map]
    rfl
  generalize hparts : segments.map (fun s => (s.1, pretty 0 s.2)) = parts at hshown hquotes
  have hparts' : parts ≠ [] := by
    rw [← hparts]
    simpa using hne
  have hnofence : ∀ t, Shown t → fence ∉ lines t := fun t ht hmem =>
    ht.2 (mem_of_mem_lines hmem (by decide))
  have hsegments : ∀ s ∈ parts, fence ∉ lines s.1 ∧ fence ∉ lines s.2 := fun s hs =>
    ⟨hnofence _ (hshown s hs).1, hnofence _ (hshown s hs).2⟩
  have hline : (0x0a : UInt16) ∉ fence := by decide
  have hblocks := fencedBlocks_quoted hline hsegments
  have hcount := count_quoted hline hsegments
  have hmem := fun l => @mem_lines_quoted fence hline parts l
  rw [if_neg hparts'] at hblocks hcount
  simp only [if_neg hparts'] at hmem
  rw [normalizeCardUnits_settled (settled_quoted fun s hs => ⟨(hshown s hs).1.1, (hshown s hs).2.1⟩)]
  refine ⟨hblocks.trans hquotes, ?_, fun l hl htick => ?_, fun block hblock => ?_⟩
  · rw [hcount, ← hquotes, List.length_map]
  · rcases hmem l hl with h | ⟨s, hs, h | h⟩
    · exact h
    · exact absurd (mem_of_mem_lines h htick) (hshown s hs).1.2
    · exact absurd (mem_of_mem_lines h htick) (hshown s hs).2.2
  · obtain ⟨s, -, rfl⟩ := List.mem_map.mp hblock
    rw [parse_pretty_eq]
    rfl

theorem ShowsBlocks.of_one {prose : Text} {v : Value} (hprose : Shown prose) (hv : v.Pieces Shown) :
    ShowsBlocks (normalizeCardUnits (prose ++ 0x0a :: disclose v)) [pretty 0 v] := by
  have hblocks := @ShowsBlocks.of_quoted [(prose, v)] (List.cons_ne_nil _ _) (List.forall_mem_singleton.mpr hprose)
    (List.forall_mem_singleton.mpr hv)
  exact hblocks

theorem ShowsBlocks.of_two {prose prose' : Text} {v w : Value} (hprose : Shown prose) (hv : v.Pieces Shown)
    (hprose' : Shown prose') (hw : w.Pieces Shown) :
    ShowsBlocks (normalizeCardUnits (prose ++ 0x0a :: (disclose v ++ 0x0a :: (prose' ++ 0x0a :: disclose w))))
      [pretty 0 v, pretty 0 w] := by
  have hblocks := @ShowsBlocks.of_quoted [(prose, v), (prose', w)] (List.cons_ne_nil _ _)
    (List.forall_mem_cons.mpr ⟨hprose, List.forall_mem_singleton.mpr hprose'⟩)
    (List.forall_mem_cons.mpr ⟨hv, List.forall_mem_singleton.mpr hw⟩)
  simpa [quoted, disclose, List.append_assoc] using hblocks

/-! ### What is asked -/

theorem mapError_eq_ok {ε ε' α : Type} {f : ε → ε'} {x : Except ε α} {a : α} : x.mapError f = .ok a ↔ x = .ok a := by
  cases x <;> simp [Except.mapError]

theorem pattern_of_admits {maxLength : Option ℕ} {p : Text → Bool} {t : Text} (h : Admits maxLength (some p) t) :
    p t = true := by
  obtain ⟨-, hmatch⟩ := h
  simpa [mismatch] using hmatch

theorem readSafe_inert {content : List (Text × Value)} {key : String} {required : Bool} {maxLength : Option ℕ} {t : Text}
    (h : OutboundFields.readString content key ⟨required, maxLength, some safeText, []⟩ = .ok t) : ∀ c ∈ t, Inert c := by
  rcases readString_ok h with ⟨-, rfl⟩ | ⟨-, hadmits⟩
  · exact fun c hc => (nomatch hc)
  · exact safeText_inert (pattern_of_admits hadmits)

theorem handleInstallPackages_ok {agentGroup : Option Text} {content : List (Text × Value)} {request : ApprovalRequest}
    (h : handleInstallPackages agentGroup content = .ok request) :
    ∃ agentName apt npm reason,
      request.payload = packageFields apt npm ++ [(ofString "reason", .str reason)] ∧
      request.question = installQuestion agentName apt npm reason ∧
      (∀ t ∈ apt, ∀ c ∈ t, Inert c) ∧ (∀ t ∈ npm, ∀ c ∈ t, Inert c) ∧ ∀ c ∈ reason, Inert c := by
  unfold handleInstallPackages at h
  split at h
  · cases h
  · rename_i agentName
    obtain ⟨apt, hapt, h⟩ := bind_eq_ok.mp h
    obtain ⟨npm, hnpm, h⟩ := bind_eq_ok.mp h
    obtain ⟨reason, hreason, h⟩ := bind_eq_ok.mp h
    split at h
    · cases h
    · split at h
      · cases h
      · obtain rfl := Except.ok.inj h
        have haptAll := (readStringArray_ok (mapError_eq_ok.mp hapt)).2
        have hnpmAll := (readStringArray_ok (mapError_eq_ok.mp hnpm)).2
        exact ⟨agentName, apt, npm, reason, rfl, rfl, fun t ht => aptName_inert (pattern_of_admits (haptAll t ht)),
          fun t ht => npmName_inert (pattern_of_admits (hnpmAll t ht)), readSafe_inert (mapError_eq_ok.mp hreason)⟩

theorem handleAddMcpServer_ok {agentGroup : Option Text} {content : List (Text × Value)} {request : ApprovalRequest}
    (h : handleAddMcpServer agentGroup content = .ok request) :
    ∃ agentName name command args env,
      request.payload = (ofString "name", .str name) :: entryFields command args env ∧
      request.question = mcpQuestion agentName name command args env ∧ mcpName name = true ∧
      (∀ c ∈ command, Inert c) ∧ (∀ t ∈ args, ∀ c ∈ t, Inert c) ∧
      (∀ e ∈ env, (∀ c ∈ e.1, Inert c) ∧ ∀ c ∈ e.2, Inert c) ∧
      (env = [] ∨ field content "env" = some (.obj (env.map fun e => (e.1, .str e.2)))) := by
  unfold handleAddMcpServer at h
  split at h
  · cases h
  · rename_i agentName
    obtain ⟨name, hname, h⟩ := bind_eq_ok.mp h
    obtain ⟨command, hcommand, h⟩ := bind_eq_ok.mp h
    split at h
    · cases h
    · obtain ⟨args, hargs, h⟩ := bind_eq_ok.mp h
      obtain ⟨env, henv, h⟩ := bind_eq_ok.mp h
      obtain rfl := Except.ok.inj h
      have hargsAll := (readStringArray_ok (mapError_eq_ok.mp hargs)).2
      obtain ⟨henvField, henvAll⟩ := readStringRecord_ok (mapError_eq_ok.mp henv)
      have hnameMatches : mcpName name = true := by
        rcases readString_ok (mapError_eq_ok.mp hname) with ⟨hrequired, -⟩ | ⟨-, hadmits⟩
        · cases hrequired
        · exact pattern_of_admits hadmits
      refine ⟨agentName, name, command, args, env, rfl, rfl, hnameMatches, readSafe_inert (mapError_eq_ok.mp hcommand),
        fun t ht => safeText_inert (pattern_of_admits (hargsAll t ht)), fun e he => ⟨?_, ?_⟩, henvField⟩
      · exact envKey_inert (by simpa [mismatch] using (henvAll e he).1)
      · exact safeText_inert (pattern_of_admits (henvAll e he).2)

theorem installQuestion_shows (agentName : Text) {apt npm : List Text} {reason : Text}
    (hapt : ∀ t ∈ apt, ∀ c ∈ t, Inert c) (hnpm : ∀ t ∈ npm, ∀ c ∈ t, Inert c) (hreason : ∀ c ∈ reason, Inert c) :
    ∃ blocks, ShowsBlocks (normalizeCardUnits (installQuestion agentName apt npm reason))
      (pretty 0 (.obj (packageFields apt npm)) :: blocks) := by
  have hprose : Shown (ofString "Agent \"" ++ scrubDisplayName agentName ++
      ofString "\" wants to install packages and rebuild its container image.\n" ++
      ofString "This applies to the agent GROUP — every user of this agent gets the new image.\n\n" ++
      ofString "Exactly this will be added to container.json:") := by
    refine (((Shown.append ?_ (shown_of_inert (scrubDisplayName_inert agentName))).append ?_).append ?_).append ?_ <;>
      exact shown_of_units (List.all_iff_forall_prop.mp (by decide))
  have hend : ofString "Exactly this will be added to container.json:\n" =
      ofString "Exactly this will be added to container.json:" ++ [0x0a] := by decide
  have hvalue : (Json.obj (packageFields apt npm)).Pieces Shown := packageFields_pieces hapt hnpm
  by_cases hnone : reason = []
  · refine ⟨[], ?_⟩
    unfold installQuestion
    rw [if_pos hnone, hend]
    simpa [List.append_assoc] using ShowsBlocks.of_one hprose hvalue
  · have hreasonProse : Shown (ofString "\nReason given by the agent:") :=
      shown_of_units (List.all_iff_forall_prop.mp (by decide))
    have hreasonStart : ofString "\n\nReason given by the agent:\n" =
        0x0a :: (ofString "\nReason given by the agent:" ++ [0x0a]) := by decide
    have hreasonValue : (Json.str reason : Value).Pieces Shown := quote_shown hreason
    refine ⟨[pretty 0 (.str reason)], ?_⟩
    unfold installQuestion
    rw [if_neg hnone, hend, hreasonStart]
    simpa [List.append_assoc] using ShowsBlocks.of_two hprose hvalue hreasonProse hreasonValue

theorem mcpQuestion_shows (agentName : Text) {name command : Text} {args : List Text} {env : List (Text × Text)}
    (hname : mcpName name = true) (hcommand : ∀ c ∈ command, Inert c) (hargs : ∀ t ∈ args, ∀ c ∈ t, Inert c)
    (henv : ∀ e ∈ env, (∀ c ∈ e.1, Inert c) ∧ ∀ c ∈ e.2, Inert c) :
    ShowsBlocks (normalizeCardUnits (mcpQuestion agentName name command args env))
      [pretty 0 (.obj (entryFields command args env))] := by
  have hprose : Shown (ofString "Agent \"" ++ scrubDisplayName agentName ++
      ofString "\" wants to wire a new MCP server into its runtime.\n" ++
      ofString "This applies to the agent GROUP — it will run in every user's container for this " ++
      ofString "agent, with the arguments and environment shown below.\n\n" ++
      ofString "Exactly this will be written to container.json under mcpServers.\"" ++ name ++ ofString "\":") := by
    refine ((((((Shown.append ?_ (shown_of_inert (scrubDisplayName_inert agentName))).append ?_).append ?_).append
      ?_).append ?_).append (shown_of_inert (mcpName_inert hname))).append ?_ <;>
      exact shown_of_units (List.all_iff_forall_prop.mp (by decide))
  have hend : ofString "\":\n" = ofString "\":" ++ [0x0a] := by decide
  have hvalue : (Json.obj (entryFields command args env)).Pieces Shown := entryFields_pieces hcommand hargs henv
  unfold mcpQuestion
  rw [hend]
  simpa [List.append_assoc] using ShowsBlocks.of_one hprose hvalue

/-! ### What is kept and applied -/

/-- A payload of texts is kept as it is. -/
theorem payload_kept {fields : List (Text × Value)} {payload : JsonObject} (ho : (Json.obj fields : Value).Ordered)
    (hwritable : (Json.obj fields : Value).writable = true)
    (h : parse (stringify (.obj fields)) = some (.obj payload.fields)) : payload.fields = fields := by
  rw [parse_stringify_eq, (rewritten_eq_iff ho).mpr hwritable] at h
  exact (Json.obj.inj (Option.some.inj h)).symm

theorem texts_ordered (l : List Text) : (texts l).Ordered := by
  refine allNamesList_of fun v hv => ?_
  obtain ⟨t, -, rfl⟩ := List.mem_map.mp hv
  exact trivial

theorem texts_writable (l : List Text) : (texts l).writable = true := by
  show allNumbersList writable (l.map fun t => .str t) = true
  induction l with
  | nil => rfl
  | cons t l ih => rw [List.map_cons, allNumbersList, ih]; rfl

theorem record_writable (env : List (Text × Text)) :
    (Json.obj (env.map fun e => (e.1, .str e.2)) : Value).writable = true := by
  refine writable_obj.mpr fun f hf => ?_
  obtain ⟨e, -, rfl⟩ := List.mem_map.mp hf
  rfl

theorem installPayload_ordered (apt npm : List Text) (reason : Text) :
    (Json.obj (packageFields apt npm ++ [(ofString "reason", .str reason)]) : Value).Ordered := by
  refine ⟨?_, allNamesFields_iff.mpr ?_⟩
  · show InOrder (["apt", "npm", "reason"].map ofString)
    unfold InOrder
    decide
  · simp only [packageFields, List.cons_append, List.nil_append, List.forall_mem_cons, List.not_mem_nil, false_implies,
      implies_true, and_true]
    exact ⟨texts_ordered apt, texts_ordered npm, trivial⟩

theorem installPayload_writable (apt npm : List Text) (reason : Text) :
    (Json.obj (packageFields apt npm ++ [(ofString "reason", .str reason)]) : Value).writable = true := by
  refine writable_obj.mpr ?_
  simp only [packageFields, List.cons_append, List.nil_append, List.forall_mem_cons, List.not_mem_nil, false_implies,
    implies_true, and_true]
  exact ⟨texts_writable apt, texts_writable npm, rfl⟩

section

variable {name command : Text} {args : List Text} {env : List (Text × Text)}

theorem entryFields_ordered (henv : (Json.obj (env.map fun e => (e.1, .str e.2)) : Value).Ordered) :
    (Json.obj (entryFields command args env) : Value).Ordered := by
  refine ⟨?_, allNamesFields_iff.mpr ?_⟩
  · show InOrder (["command", "args", "env"].map ofString)
    unfold InOrder
    decide
  · simp only [entryFields, List.forall_mem_cons, List.not_mem_nil, false_implies, implies_true, and_true]
    exact ⟨trivial, texts_ordered args, henv⟩

theorem entryFields_writable : (Json.obj (entryFields command args env) : Value).writable = true := by
  refine writable_obj.mpr ?_
  simp only [entryFields, List.forall_mem_cons, List.not_mem_nil, false_implies, implies_true, and_true]
  exact ⟨rfl, texts_writable args, record_writable env⟩

theorem mcpPayload_ordered (henv : (Json.obj (env.map fun e => (e.1, .str e.2)) : Value).Ordered) :
    (Json.obj ((ofString "name", .str name) :: entryFields command args env) : Value).Ordered := by
  refine ⟨?_, allNamesFields_iff.mpr (List.forall_mem_cons.mpr ⟨trivial, ?_⟩)⟩
  · show InOrder (["name", "command", "args", "env"].map ofString)
    unfold InOrder
    decide
  · exact allNamesFields_iff.mp (entryFields_ordered henv).2

theorem mcpPayload_writable :
    (Json.obj ((ofString "name", .str name) :: entryFields command args env) : Value).writable = true :=
  writable_obj.mpr (List.forall_mem_cons.mpr ⟨rfl, writable_obj.mp entryFields_writable⟩)

end

theorem get_of_mem {payload : JsonObject} {fields : List (Text × Value)} (h : payload.fields = fields)
    {f : Text × Value} (hf : f ∈ fields) : payload.get f.1 = some f.2 := by
  subst h
  exact lookup_of_mem payload.ordered.1.nodup hf

theorem pushPackages_texts (key : String) (l : List Text) (packages : List (Text × Value)) :
    pushPackages key (some (texts l)) packages =
      (pushAll (field packages key) l).map fun list => insertField packages (ofString key) list := by
  show (pushValues (field packages key) (l.map fun t => .str t)).map _ = _
  congr 1

/-- **The packages of the payload are appended.** -/
theorem applyInstallPackages_eq {payload : JsonObject} {apt npm : List Text} {reason : Text}
    (h : payload.fields = packageFields apt npm ++ [(ofString "reason", .str reason)]) (config : Properties) :
    applyInstallPackages payload config = appendPackages apt npm config := by
  have hapt : payload.get (ofString "apt") = some (texts apt) := by
    have hget := get_of_mem h (f := (ofString "apt", texts apt)) (.head _)
    exact hget
  have hnpm : payload.get (ofString "npm") = some (texts npm) := by
    have hget := get_of_mem h (f := (ofString "npm", texts npm)) (.tail _ (.head _))
    exact hget
  have hdistinct : ofString "npm" ≠ ofString "apt" := by decide
  unfold applyInstallPackages appendPackages
  rw [hapt, hnpm]
  cases config.get (ofString "packages") with
  | none => rfl
  | some found =>
    cases found with
    | obj packages =>
      dsimp only
      rw [pushPackages_texts]
      cases hfirst : pushAll (field packages "apt") apt with
      | error message => rfl
      | ok list =>
        show (pushPackages "npm" (some (texts npm)) (insertField packages (ofString "apt") list)).map _ =
          (pushAll (field packages "npm") npm >>= _)
        have hfield : field (insertField packages (ofString "apt") list) "npm" = field packages "npm" := by
          rw [field, lookup_insertField, if_neg hdistinct]
          rfl
        rw [pushPackages_texts, hfield]
        cases pushAll (field packages "npm") npm <;> rfl
    | _ => rfl

/-- **The server of the payload is set.** -/
theorem applyAddMcpServer_eq {payload : JsonObject} {name command : Text} {args : List Text}
    {env : List (Text × Text)} (h : payload.fields = (ofString "name", .str name) :: entryFields command args env) :
    (mcpEntry payload).fields = entryFields command args env ∧
      ∀ config, applyAddMcpServer payload config = setMcpServer name (mcpEntry payload) config := by
  have hname : payload.get (ofString "name") = some (.str name) := by
    have hget := get_of_mem h (f := (ofString "name", .str name)) (.head _)
    exact hget
  have hcommand : payload.get (ofString "command") = some (.str command) := by
    have hget := get_of_mem h (f := (ofString "command", .str command)) (.tail _ (.head _))
    exact hget
  have hargs : payload.get (ofString "args") = some (texts args) := by
    have hget := get_of_mem h (f := (ofString "args", texts args)) (.tail _ (.tail _ (.head _)))
    exact hget
  have henv : payload.get (ofString "env") = some (.obj (env.map fun e => (e.1, .str e.2))) := by
    have hget := get_of_mem h (f := (ofString "env", .obj (env.map fun e => (e.1, .str e.2))))
      (.tail _ (.tail _ (.tail _ (.head _))))
    exact hget
  refine ⟨?_, fun config => ?_⟩
  · show definedFields [(ofString "command", payload.get (ofString "command")),
      (ofString "args", some (orFallback (payload.get (ofString "args")) (.arr []))),
      (ofString "env", some (orFallback (payload.get (ofString "env")) (.obj [])))] = _
    rw [hcommand, hargs, henv]
    rfl
  · unfold applyAddMcpServer
    rw [hname]

/-! ### The file that is written -/

theorem readContainerConfig_ordered {path : String} {file : Option Text} {config : Properties}
    (h : readContainerConfig path file = .ok config) : config.Ordered := by
  cases file with
  | none =>
    obtain rfl := Except.ok.inj h
    have hempty : (Json.obj [] : Value).Ordered := ⟨List.Pairwise.nil, trivial⟩
    refine ordered_assign hempty ?_
    have hsome : ∀ {x : Value}, x.Ordered → ∀ v, some x = some v → v.Ordered := by
      intro x hx v hv
      obtain rfl := Option.some.inj hv
      exact hx
    have hpackages : (objectOf [("apt", some (.arr [])), ("npm", some (.arr []))]).Ordered := by
      refine ordered_objectOf ?_ ?_
      · show InOrder (["apt", "npm"].map ofString)
        unfold InOrder
        decide
      · exact List.forall_mem_cons.mpr ⟨hsome trivial, List.forall_mem_singleton.mpr (hsome trivial)⟩
    simp only [List.forall_mem_cons, List.not_mem_nil, false_implies, implies_true, and_true]
    exact ⟨hsome hempty, hsome hpackages, hsome trivial, hsome trivial⟩
  | some text =>
    obtain ⟨raw, llm, hparse, hllm, rfl⟩ := readContainerConfig_eq_ok.mp h
    exact config_ordered (parse_ordered hparse) hllm

/-- In each file that a change writes, the packages stand after those that were there. -/
def WritesPackages (apply : Properties → Except String Properties) (apt npm : List Text) : Prop :=
  ∀ path file text', updateContainerConfig path file apply = .ok text' →
    ∃ config packages, readContainerConfig path file = .ok config ∧
      config.get (ofString "packages") = some (.obj packages) ∧
      ∀ p ∈ [("apt", apt), ("npm", npm)], ∃ l, field packages p.1 = some (.arr l) ∧
        settingAt text' [ofString "packages", ofString p.1] =
          some (.arr (l.map rewritten ++ p.2.map fun t => .str t))

/-- In each file that a change writes, the server has this entry, if the servers were an object. -/
def WritesServer (apply : Properties → Except String Properties) (name : Text) (entry : List (Text × Value)) : Prop :=
  ∀ path file text' config servers, updateContainerConfig path file apply = .ok text' →
    readContainerConfig path file = .ok config → config.get (ofString "mcpServers") = some (.obj servers) →
    settingAt text' [ofString "mcpServers", name] = some (.obj entry)

/-- A property of a property of the file that is written. -/
theorem settingAt_written {config : Properties} (ho : config.Ordered) {key : Text} {fields : List (Text × Value)}
    (hget : config.get key = some (.obj fields)) (name : Text) :
    settingAt (writeContainerConfig config) [key, name] = (fields.lookup name).map rewritten := by
  obtain ⟨written, hparse, hlookup⟩ := parse_config ho
  obtain ⟨inner, hinner, hinnerLookup⟩ := lookup_rewritten (get_ordered ho hget)
  rw [settingAt_cons hparse, hlookup, hget, Option.map_some, hinner]
  show (inner.lookup name).bind (valueAt []) = _
  rw [hinnerLookup]
  cases fields.lookup name <;> rfl

theorem writesPackages_of_append {apply : Properties → Except String Properties} {apt npm : List Text}
    (h : ∀ config, apply config = appendPackages apt npm config) : WritesPackages apply apt npm := by
  intro path file text' hupdate
  obtain ⟨config, hread, hmap⟩ := bind_eq_ok.mp hupdate
  obtain ⟨config', happly, rfl⟩ := map_eq_ok.mp hmap
  have ho := readContainerConfig_ordered hread
  rw [h] at happly
  obtain ⟨ho', -, packages, packages', hpackages, hpackages', -, -, hlists⟩ :=
    appendPackages_eq_ok ho (fun v hv => get_ordered ho hv) happly
  refine ⟨config, packages, hread, hpackages, fun p hp => ?_⟩
  obtain ⟨l, hl, hl'⟩ := hlists p hp
  refine ⟨l, hl, ?_⟩
  have hstrings : (p.2.map fun t => (.str t : Value)).map rewritten = p.2.map fun t => .str t := by
    rw [List.map_map]
    rfl
  rw [settingAt_written ho' hpackages', show packages'.lookup (ofString p.1) = _ from hl', Option.map_some,
    rewritten_arr, List.map_append, hstrings]

theorem writesServer_of_set {apply : Properties → Except String Properties} {name : Text} {entry : JsonObject}
    (hname : name ≠ ofString "__proto__") (hwritable : (Json.obj entry.fields : Value).writable = true)
    (h : ∀ config, apply config = setMcpServer name entry config) : WritesServer apply name entry.fields := by
  intro path file text' config servers hupdate hread hservers
  obtain ⟨config₁, hread₁, hmap⟩ := bind_eq_ok.mp hupdate
  obtain rfl := Except.ok.inj (hread₁.symm.trans hread)
  obtain ⟨config', happly, rfl⟩ := map_eq_ok.mp hmap
  have ho := readContainerConfig_ordered hread
  rw [h] at happly
  obtain ⟨ho', -, hset⟩ := setMcpServer_eq_ok ho (fun v hv => get_ordered ho hv) happly
  obtain ⟨servers', hservers', -, -, hentry⟩ := hset servers hservers
  rw [settingAt_written ho' hservers', hentry hname, Option.map_some, (rewritten_eq_iff entry.ordered).mpr hwritable]

/-- **What the card shows is what is applied**, for a request for packages and for one for a server: the question has
the fences of the host and JSON between them, and the first block is what the payload that is kept puts into the
container config. -/
theorem self_mod_card_shows_what_is_applied (agentGroup : Option Text) (content payload : JsonObject)
    (request : ApprovalRequest) (hkept : parse (stringify (.obj request.payload)) = some (.obj payload.fields)) :
    (handleInstallPackages agentGroup content.fields = .ok request →
      ∃ first blocks apt npm, ShowsBlocks (normalizeCardUnits request.question) (first :: blocks) ∧
        parse first = some (.obj (packageFields apt npm)) ∧
        (∀ config, applyInstallPackages payload config = appendPackages apt npm config) ∧
        WritesPackages (applyInstallPackages payload) apt npm) ∧
    (handleAddMcpServer agentGroup content.fields = .ok request →
      ∃ first blocks name entry command args env,
        ShowsBlocks (normalizeCardUnits request.question) (first :: blocks) ∧
        parse first = some (.obj entry.fields) ∧ entry.fields = entryFields command args env ∧
        (∀ config, applyAddMcpServer payload config = setMcpServer name entry config) ∧
        WritesServer (applyAddMcpServer payload) name entry.fields) := by
  constructor
  · intro h
    obtain ⟨agentName, apt, npm, reason, hpayload, hquestion, hapt, hnpm, hreason⟩ := handleInstallPackages_ok h
    rw [hpayload] at hkept
    have hfields := payload_kept (installPayload_ordered apt npm reason) (installPayload_writable apt npm reason) hkept
    obtain ⟨blocks, hblocks⟩ := installQuestion_shows agentName hapt hnpm hreason
    have hpackages : (Json.obj (packageFields apt npm) : Value).Ordered := by
      obtain ⟨hnames, hvalues⟩ := installPayload_ordered apt npm []
      rw [List.map_append] at hnames
      exact ⟨hnames.sublist (List.sublist_append_left _ _),
        allNamesFields_iff.mpr fun f hf => allNamesFields_iff.mp hvalues f (List.mem_append_left _ hf)⟩
    have hwritable : (Json.obj (packageFields apt npm) : Value).writable = true :=
      writable_obj.mpr fun f hf => writable_obj.mp (installPayload_writable apt npm []) f (List.mem_append_left _ hf)
    have happly := applyInstallPackages_eq hfields
    refine ⟨_, blocks, apt, npm, hquestion ▸ hblocks, ?_, happly, writesPackages_of_append happly⟩
    rw [parse_pretty_eq, (rewritten_eq_iff hpackages).mpr hwritable]
  · intro h
    obtain ⟨agentName, name, command, args, env, hpayload, hquestion, hname, hcommand, hargs, henv, hfield⟩ :=
      handleAddMcpServer_ok h
    have henvOrdered : (Json.obj (env.map fun e => (e.1, .str e.2)) : Value).Ordered := by
      rcases hfield with rfl | hfield
      · exact ⟨List.Pairwise.nil, trivial⟩
      · exact field_ordered content.ordered hfield
    rw [hpayload] at hkept
    have hfields := payload_kept (mcpPayload_ordered henvOrdered) mcpPayload_writable hkept
    obtain ⟨hentry, happly⟩ := applyAddMcpServer_eq hfields
    have hblocks := mcpQuestion_shows agentName hname hcommand hargs henv
    refine ⟨_, [], name, mcpEntry payload, command, args, env, hquestion ▸ hblocks, ?_, hentry, happly,
      writesServer_of_set (mcpName_ne_proto hname) ?_ happly⟩
    · rw [parse_pretty_eq, (rewritten_eq_iff (entryFields_ordered henvOrdered)).mpr entryFields_writable, hentry]
    · rw [hentry]
      exact entryFields_writable

/-- A content that asks for one package, and says why. -/
def jqContent : JsonObject :=
  ⟨packageFields [ofString "jq"] [] ++ [(ofString "reason", .str (ofString "to read \"n\""))],
    installPayload_ordered [ofString "jq"] [] (ofString "to read \"n\"")⟩

/-- A content that asks for a server. -/
def fsContent : JsonObject :=
  ⟨(ofString "name", .str (ofString "fs")) :: entryFields (ofString "npx") [ofString "fs-server"] [],
    mcpPayload_ordered ⟨List.Pairwise.nil, trivial⟩⟩

theorem self_mod_card_shows_what_is_applied_sample :
    (∃ request first blocks apt npm, handleInstallPackages (some (ofString "Ops")) jqContent.fields = .ok request ∧
      ShowsBlocks (normalizeCardUnits request.question) (first :: blocks) ∧
      parse first = some (.obj (packageFields apt npm))) ∧
    ∃ request first blocks, ∃ entry : JsonObject,
      handleAddMcpServer (some (ofString "Ops")) fsContent.fields = .ok request ∧
      ShowsBlocks (normalizeCardUnits request.question) (first :: blocks) ∧ parse first = some (.obj entry.fields) := by
  constructor
  · have hok : (handleInstallPackages (some (ofString "Ops")) jqContent.fields).isOk = true := by decide
    obtain ⟨request, hrequest⟩ := isOk_iff.mp hok
    obtain ⟨-, apt, npm, reason, hpayload, -⟩ := handleInstallPackages_ok hrequest
    have ho := installPayload_ordered apt npm reason
    have hkept : parse (stringify (.obj request.payload)) =
        some (.obj (⟨packageFields apt npm ++ [(ofString "reason", .str reason)], ho⟩ : JsonObject).fields) := by
      rw [hpayload, parse_stringify_eq, (rewritten_eq_iff ho).mpr (installPayload_writable apt npm reason)]
    obtain ⟨hinstall, -⟩ := self_mod_card_shows_what_is_applied (some (ofString "Ops")) jqContent _ request hkept
    obtain ⟨first, blocks, apt', npm', hblocks, hparse, -⟩ := hinstall hrequest
    exact ⟨request, first, blocks, apt', npm', hrequest, hblocks, hparse⟩
  · have hok : (handleAddMcpServer (some (ofString "Ops")) fsContent.fields).isOk = true := by decide
    obtain ⟨request, hrequest⟩ := isOk_iff.mp hok
    obtain ⟨-, name, command, args, env, hpayload, -, -, -, -, -, hfield⟩ := handleAddMcpServer_ok hrequest
    have henv : (Json.obj (env.map fun e => (e.1, .str e.2)) : Value).Ordered := by
      rcases hfield with rfl | hfield
      · exact ⟨List.Pairwise.nil, trivial⟩
      · exact field_ordered fsContent.ordered hfield
    have ho : (Json.obj ((ofString "name", .str name) :: entryFields command args env) : Value).Ordered :=
      mcpPayload_ordered henv
    have hkept : parse (stringify (.obj request.payload)) =
        some (.obj (⟨(ofString "name", .str name) :: entryFields command args env, ho⟩ : JsonObject).fields) := by
      rw [hpayload, parse_stringify_eq, (rewritten_eq_iff ho).mpr mcpPayload_writable]
    obtain ⟨-, hadd⟩ := self_mod_card_shows_what_is_applied (some (ofString "Ops")) fsContent _ request hkept
    obtain ⟨first, blocks, name', entry, -, -, -, hblocks, hparse, -⟩ := hadd hrequest
    exact ⟨request, first, blocks, entry, hrequest, hblocks, hparse⟩

end AgentDesk
