/-
# Names of tools

`qualifyToolName` of `src/providers/openai.ts` makes the name under which a model calls a tool of a server: the two
names, each with what a function name may not have replaced. A name that is too long or taken already gets a hash
behind it, and as long as that is taken too a number, counted up from 2; each number goes behind the last name tried,
cut to make room.

Names with different numbers differ, so the loop ends one turn after the names that are taken. But there are not more
names of 64 characters than there are, and the number stops at 2^53, where adding one changes nothing.

* `qualifyToolName_spec`: one call.
* `names_tools`: fewer than 2^53 tools have valid names, all different.
* `names_run_out`: more of them than that have not.
-/
import AgentDesk.Binary64Arithmetic
import AgentDesk.FreshNames
import AgentDesk.JsonNumbers
import AgentDesk.JsonObjects
import AgentDesk.Sha256
import AgentDesk.Table

namespace AgentDesk.ToolNames

open JsonText

/-- `[a-zA-Z0-9_-]`. -/
def isNameUnit (c : UInt16) : Bool :=
  (unit 'a' ≤ c && c ≤ unit 'z') || (unit 'A' ≤ c && c ≤ unit 'Z') || (unit '0' ≤ c && c ≤ unit '9') ||
    c = unit '_' || c = unit '-'

/-- `replace(/_+/g, '_')`. -/
def joinUnderscores : Text → Text
  | [] => []
  | c :: t => if c = unit '_' ∧ t.head? = some (unit '_') then joinUnderscores t else c :: joinUnderscores t

def sanitizeToolSegment (raw : Text) : Text :=
  let normalized := joinUnderscores ((trimText raw).map fun c => if isNameUnit c then c else unit '_')
  if normalized = [] then ofString "tool" else normalized

def baseName (serverName toolName : Text) : Text :=
  ofString "mcp__" ++ sanitizeToolSegment serverName ++ ofString "__" ++ sanitizeToolSegment toolName

/-- `suffix++` of a double that is whole and not above 2^53. -/
def increment (suffix : ℕ) : ℕ := if suffix < 2 ^ 53 then suffix + 1 else suffix

/-- One turn of the loop, on `candidate` and `suffix`. -/
def nextCandidate (s : Text × ℕ) : Text × ℕ :=
  let suffixText := unit '_' :: decimalText s.2
  (s.1.take (max 1 (64 - suffixText.length)) ++ suffixText, increment s.2)

/-- The name with the first eight digits of a hash of the two names. -/
def hashedName (digest : Text → Text) (serverName toolName : Text) : Text :=
  let hash := (digest (serverName ++ unit ':' :: toolName)).take 8
  let maxPrefix := max 1 (64 - hash.length - 1)
  (baseName serverName toolName).take maxPrefix ++ unit '_' :: hash

/-- The name and the set with it; none where the loop takes more than `fuel` turns. -/
def qualifyToolName (digest : Text → Text) (fuel : ℕ) (serverName toolName : Text) (used : List Text) :
    Option (Text × List Text) :=
  let base := baseName serverName toolName
  if base.length ≤ 64 ∧ base ∉ used then some (base, used ++ [base])
  else (FreshNames.search nextCandidate Prod.fst used fuel (hashedName digest serverName toolName, 2)).map fun s =>
    (s.1, used ++ [s.1])

/-- The names of a list of tools, one after the other with one set. -/
def qualifyToolNames (digest : Text → Text) (fuel : ℕ) : List (Text × Text) → List Text → Option (List Text)
  | [], _ => some []
  | (serverName, toolName) :: pairs, used =>
    (qualifyToolName digest fuel serverName toolName used).bind fun (name, used) =>
      (qualifyToolNames digest fuel pairs used).map (name :: ·)

/-- What `createHash('sha256')…digest('hex')` gives is of these units. -/
def isHexUnit (c : UInt16) : Bool := (unit '0' ≤ c && c ≤ unit '9') || (unit 'a' ≤ c && c ≤ unit 'f')

def HexDigest (digest : Text → Text) : Prop := ∀ t, ∀ c ∈ digest t, isHexUnit c = true

/-- A name that the model's interface takes. -/
def ValidName (name : Text) : Prop := name.length ≤ 64 ∧ ∀ c ∈ name, isNameUnit c = true

/-- The calls return, with valid names that are pairwise different; so a name that is called belongs to one tool. -/
def NamesTools (digest : Text → Text) (pairs : List (Text × Text)) : Prop :=
  ∃ names, (∃ fuel, qualifyToolNames digest fuel pairs [] = some names) ∧ names.length = pairs.length ∧
    (∀ name ∈ names, ValidName name) ∧ names.Nodup ∧
    ∀ name pair, (name, pair) ∈ names.zip pairs → Table.find Prod.fst (names.zip pairs) name = some (name, pair)

/-! ### The units of a name -/

theorem joinUnderscores_sublist : ∀ t : Text, (joinUnderscores t).Sublist t
  | [] => .slnil
  | c :: t => by
    unfold joinUnderscores
    split
    · exact (joinUnderscores_sublist t).cons c
    · exact (joinUnderscores_sublist t).cons_cons c

theorem isNameUnit_sanitizeToolSegment {raw : Text} {c : UInt16} (hc : c ∈ sanitizeToolSegment raw) :
    isNameUnit c = true := by
  unfold sanitizeToolSegment at hc
  simp only at hc
  split at hc
  · have htool : (ofString "tool").all isNameUnit = true := by decide
    exact List.all_eq_true.mp htool c hc
  · obtain ⟨d, -, rfl⟩ := List.mem_map.mp ((joinUnderscores_sublist _).subset hc)
    by_cases hd : isNameUnit d = true
    · rw [if_pos hd]
      exact hd
    · rw [if_neg hd]
      decide

theorem isNameUnit_baseName {serverName toolName : Text} {c : UInt16} (hc : c ∈ baseName serverName toolName) :
    isNameUnit c = true := by
  have hmcp : (ofString "mcp__").all isNameUnit = true := by decide
  have hsep : (ofString "__").all isNameUnit = true := by decide
  simp only [baseName, List.mem_append] at hc
  obtain ((hc | hc) | hc) | hc := hc
  · exact List.all_eq_true.mp hmcp c hc
  · exact isNameUnit_sanitizeToolSegment hc
  · exact List.all_eq_true.mp hsep c hc
  · exact isNameUnit_sanitizeToolSegment hc

theorem isNameUnit_of_isHexUnit {c : UInt16} (h : isHexUnit c = true) : isNameUnit c = true := by
  simp only [isHexUnit, Bool.or_eq_true, Bool.and_eq_true, decide_eq_true_eq] at h
  simp only [isNameUnit, Bool.or_eq_true, Bool.and_eq_true, decide_eq_true_eq]
  rcases h with h | ⟨ha, hf⟩
  · exact .inl (.inl (.inr h))
  · have hz : unit 'f' ≤ unit 'z' := by decide
    exact .inl (.inl (.inl (.inl ⟨ha, UInt16.le_trans hf hz⟩)))

theorem isNameUnit_decimalText {n : ℕ} {c : UInt16} (h : c ∈ decimalText n) : isNameUnit c = true := by
  simp only [isNameUnit, Bool.or_eq_true, Bool.and_eq_true, decide_eq_true_eq]
  exact .inl (.inl (.inr (digitUnit_of_mem_decimalText h)))

theorem underscore_notMem_decimalText (n : ℕ) : unit '_' ∉ decimalText n := by
  intro h
  have hle := (digitUnit_of_mem_decimalText h).2
  revert hle
  decide

theorem ValidName.cut {name tail : Text} (hname : ∀ c ∈ name, isNameUnit c = true)
    (htail : ∀ c ∈ tail, isNameUnit c = true) (hlen : tail.length ≤ 62) :
    ValidName (name.take (max 1 (64 - (unit '_' :: tail).length)) ++ unit '_' :: tail) := by
  constructor
  · rw [List.length_append, List.length_take, List.length_cons]
    omega
  · intro c hc
    rcases List.mem_append.mp hc with hc | hc
    · exact hname c (List.mem_of_mem_take hc)
    · rcases List.mem_cons.mp hc with rfl | hc
      · decide
      · exact htail c hc

theorem valid_hashedName {digest : Text → Text} (hdigest : HexDigest digest) (serverName toolName : Text) :
    ValidName (hashedName digest serverName toolName) := by
  have hlen : ((digest (serverName ++ unit ':' :: toolName)).take 8).length ≤ 62 := by
    rw [List.length_take]
    omega
  have hbase : ∀ c ∈ baseName serverName toolName, isNameUnit c = true := fun _ hc => isNameUnit_baseName hc
  have hcut := ValidName.cut hbase (fun c hc => isNameUnit_of_isHexUnit (hdigest _ c (List.mem_of_mem_take hc))) hlen
  rw [List.length_cons, Nat.sub_add_eq] at hcut
  exact hcut

/-! ### The candidates -/

theorem increment_eq {n : ℕ} (hn : n ≤ 2 ^ 53) : Binary64.wholeRound (n + 1) = some (increment n) := by
  have hlast : Binary64.wholeRound (2 ^ 53) = some (2 ^ 53) := by decide +kernel
  have hover : Binary64.wholeRound (2 ^ 53 + 1) = some (2 ^ 53) := by decide +kernel
  unfold increment
  split
  · by_cases hsmall : n + 1 < 2 ^ 53
    · exact Binary64.wholeRound_small hsmall
    · obtain rfl : n = 2 ^ 53 - 1 := by omega
      exact hlast
  · obtain rfl : n = 2 ^ 53 := by omega
    exact hover

theorem suffix_iterate (c : Text) (i : ℕ) : (nextCandidate^[i] (c, 2)).2 = min (i + 2) (2 ^ 53) := by
  induction i with
  | zero => rfl
  | succ i ih =>
    rw [Function.iterate_succ_apply']
    simp only [nextCandidate, increment, ih]
    split <;> omega

theorem iterate_succ_fst (c : Text) (i : ℕ) :
    (nextCandidate^[i + 1] (c, 2)).1 =
      (nextCandidate^[i] (c, 2)).1.take (max 1 (64 - (unit '_' :: decimalText (min (i + 2) (2 ^ 53))).length)) ++
        unit '_' :: decimalText (min (i + 2) (2 ^ 53)) := by
  rw [Function.iterate_succ_apply', nextCandidate, suffix_iterate]

theorem candidate_differ (c : Text) {i j : ℕ} (hi : i + 2 ≤ 2 ^ 53) (hj : j + 2 ≤ 2 ^ 53)
    (h : (nextCandidate^[1 + i] (c, 2)).1 = (nextCandidate^[1 + j] (c, 2)).1) : i = j := by
  rw [Nat.add_comm 1, Nat.add_comm 1, iterate_succ_fst, iterate_succ_fst, Nat.min_eq_left hi, Nat.min_eq_left hj] at h
  obtain ⟨-, hnumber⟩ :=
    FreshNames.append_sep_inj (underscore_notMem_decimalText _) (underscore_notMem_decimalText _) h
  have hsame := decimalText_injective hnumber
  omega

theorem valid_iterate {c : Text} (hc : ValidName c) (i : ℕ) : ValidName (nextCandidate^[i] (c, 2)).1 := by
  induction i with
  | zero => exact hc
  | succ i ih =>
    have hlt : min (i + 2) (2 ^ 53) < 10 ^ 16 := by omega
    have hlen := length_decimalText_le (by decide) hlt
    rw [iterate_succ_fst]
    exact ValidName.cut ih.2 (fun _ h => isNameUnit_decimalText h) (by omega)

/-! ### Calls -/

section calls

variable {digest : Text → Text} (hdigest : HexDigest digest)

include hdigest

/-- **One call** with fewer than `2^53 - 1` names taken: it returns a valid name that is not. -/
theorem qualifyToolName_spec (serverName toolName : Text) {used : List Text} (hused : used.length + 2 ≤ 2 ^ 53) :
    ∃ name, (∀ fuel, 1 + used.length < fuel →
        qualifyToolName digest fuel serverName toolName used = some (name, used ++ [name])) ∧
      name ∉ used ∧ ValidName name := by
  unfold qualifyToolName
  by_cases hbase : (baseName serverName toolName).length ≤ 64 ∧ baseName serverName toolName ∉ used
  · exact ⟨_, fun _ _ => if_pos hbase, hbase.2, hbase.1, fun _ hc => isNameUnit_baseName hc⟩
  · obtain ⟨s, hs⟩ := FreshNames.search_of_differ nextCandidate Prod.fst used
      (hashedName digest serverName toolName, 2) 1 fun i hi j hj => candidate_differ _ (by omega) (by omega)
    obtain ⟨hfree, i, -, rfl, -⟩ := FreshNames.search_spec (hs _ (Nat.lt_succ_self _))
    refine ⟨_, fun fuel hfuel => ?_, hfree, valid_iterate (valid_hashedName hdigest serverName toolName) i⟩
    simp only [if_neg hbase, hs fuel hfuel, Option.map_some]

theorem qualifyToolNames_spec (pairs : List (Text × Text)) {used : List Text}
    (hlen : used.length + pairs.length < 2 ^ 53) :
    ∃ names, (∀ fuel, used.length + pairs.length < fuel →
        qualifyToolNames digest fuel pairs used = some names) ∧
      names.length = pairs.length ∧ (∀ name ∈ names, ValidName name) ∧ (∀ name ∈ names, name ∉ used) ∧
      names.Nodup := by
  induction pairs generalizing used with
  | nil => exact ⟨[], fun _ _ => rfl, rfl, by simp, by simp, List.nodup_nil⟩
  | cons p pairs ih =>
    obtain ⟨serverName, toolName⟩ := p
    rw [List.length_cons] at hlen
    obtain ⟨name, hname, hfree, hvalid⟩ := qualifyToolName_spec hdigest serverName toolName
      (show used.length + 2 ≤ 2 ^ 53 by omega)
    have hused : (used ++ [name]).length = used.length + 1 := by simp
    obtain ⟨names, hnames, hcount, hvalids, hfrees, hnodup⟩ := @ih (used ++ [name]) (by omega)
    refine ⟨name :: names, fun fuel hfuel => ?_, by simp [hcount], ?_, ?_, ?_⟩
    · rw [List.length_cons] at hfuel
      rw [qualifyToolNames, hname fuel (by omega), Option.bind_some]
      exact congrArg (Option.map (name :: ·)) (hnames fuel (by omega))
    · exact List.forall_mem_cons.mpr ⟨hvalid, hvalids⟩
    · exact List.forall_mem_cons.mpr ⟨hfree, fun n hn hmem => hfrees n hn (List.mem_append_left _ hmem)⟩
    · exact List.nodup_cons.mpr ⟨fun hmem => hfrees name hmem (by simp), hnodup⟩

/-- **Fewer than 2^53 tools have names.** -/
theorem names_tools {pairs : List (Text × Text)} (hlen : pairs.length < 2 ^ 53) : NamesTools digest pairs := by
  have hstart : ([] : List Text).length + pairs.length < 2 ^ 53 := by simpa using hlen
  obtain ⟨names, hnames, hcount, hvalid, -, hnodup⟩ := qualifyToolNames_spec hdigest pairs hstart
  have hkeys : (names.zip pairs).map Prod.fst = names := List.map_fst_zip hcount.le
  exact ⟨names, ⟨_, hnames _ (Nat.lt_succ_self _)⟩, hcount, hvalid, hnodup, fun name pair hmem =>
    Table.find_of_nodup (by rw [hkeys]; exact hnodup) hmem⟩

end calls

/-- `createHash('sha256').update(t).digest('hex')`. -/
def sha256Hex (t : Text) : Text := (Sha256.hash (utf8 t)).hex.map unit

theorem sha256Hex_hexDigest : HexDigest sha256Hex := by
  have hdigit : ∀ d < 16, isHexUnit (unit (Sha256.hexDigit d)) = true := by decide
  have hword : ∀ count n, ∀ c ∈ Sha256.hex count n, isHexUnit (unit c) = true := by
    intro count
    induction count with
    | zero => exact fun n c hc => nomatch hc
    | succ count ih =>
      intro n c hc
      rcases List.mem_append.mp hc with hc | hc
      · exact ih _ c hc
      · rw [List.mem_singleton.mp hc]
        exact hdigit _ (Nat.mod_lt _ (by decide))
  intro t c hc
  obtain ⟨d, hd, rfl⟩ := List.mem_map.mp hc
  obtain ⟨n, -, hn⟩ := List.mem_flatMap.mp hd
  exact hword 8 n d hn

/-- One tool twice. -/
theorem names_tools_twice :
    NamesTools sha256Hex [(ofString "files", ofString "read"), (ofString "files", ofString "read")] :=
  names_tools sha256Hex_hexDigest (by decide)

/-! ### No more names -/

/-- What is put behind a name when the number does not grow any more. -/
def lastSuffix : Text := unit '_' :: decimalText (2 ^ 53)

theorem nextCandidate_last (c : Text) : nextCandidate (c, 2 ^ 53) = (c.take 47 ++ lastSuffix, 2 ^ 53) := by
  have hlen : (unit '_' :: decimalText (2 ^ 53)).length = 17 := by decide
  simp only [nextCandidate, increment, hlen, lastSuffix]
  rfl

theorem nextCandidate_stays {c : Text} (hc : 47 ≤ c.length) :
    nextCandidate (nextCandidate (c, 2 ^ 53)) = nextCandidate (c, 2 ^ 53) := by
  have htake : (c.take 47 ++ lastSuffix).take 47 = c.take 47 := by
    rw [List.take_append_of_le_length (by rw [List.length_take]; omega), List.take_take, Nat.min_self]
  rw [nextCandidate_last, nextCandidate_last, htake]

theorem iterate_last (c : Text) (i : ℕ) : nextCandidate^[i + 4] (c, 2 ^ 53) = nextCandidate^[4] (c, 2 ^ 53) := by
  have hgrow : ∀ c : Text, ∃ c', nextCandidate (c, 2 ^ 53) = (c', 2 ^ 53) ∧ c'.length = min 47 c.length + 17 := by
    intro c
    refine ⟨_, nextCandidate_last c, ?_⟩
    have hlen : lastSuffix.length = 17 := by decide
    rw [List.length_append, List.length_take, hlen]
  obtain ⟨c₁, h₁, hlen₁⟩ := hgrow c
  obtain ⟨c₂, h₂, hlen₂⟩ := hgrow c₁
  obtain ⟨c₃, h₃, hlen₃⟩ := hgrow c₂
  have hfour : nextCandidate^[4] (c, 2 ^ 53) = nextCandidate (c₃, 2 ^ 53) := by
    simp only [Function.iterate_succ_apply, Function.iterate_zero_apply, h₁, h₂, h₃]
  have hfixed : nextCandidate (nextCandidate (c₃, 2 ^ 53)) = nextCandidate (c₃, 2 ^ 53) :=
    nextCandidate_stays (by omega)
  rw [Function.iterate_add_apply, hfour, Function.iterate_fixed hfixed]

/-- The names a call may try, of which only so many are different. -/
def candidates (c : Text) : List Text := (List.range (2 ^ 53 + 3)).map fun i => (nextCandidate^[i] (c, 2)).1

theorem mem_candidates (c : Text) (i : ℕ) : (nextCandidate^[i] (c, 2)).1 ∈ candidates c := by
  unfold candidates
  by_cases hi : i < 2 ^ 53 + 3
  · exact List.mem_map.mpr ⟨i, List.mem_range.mpr hi, rfl⟩
  · obtain ⟨k, rfl⟩ : ∃ k, i = (k + 4) + (2 ^ 53 - 2) := ⟨i - (2 ^ 53 + 2), by omega⟩
    refine List.mem_map.mpr ⟨4 + (2 ^ 53 - 2), List.mem_range.mpr (by omega), ?_⟩
    have hstop := suffix_iterate c (2 ^ 53 - 2)
    rw [Function.iterate_add_apply, Function.iterate_add_apply]
    generalize nextCandidate^[2 ^ 53 - 2] (c, 2) = s at hstop ⊢
    obtain ⟨c', suffix⟩ := s
    obtain rfl : suffix = 2 ^ 53 := by simpa using hstop
    rw [iterate_last c' k]

theorem names_of_one (digest : Text → Text) (serverName toolName : Text) {fuel : ℕ} (k : ℕ) {used names : List Text}
    (h : qualifyToolNames digest fuel (List.replicate k (serverName, toolName)) used = some names) :
    names ⊆ baseName serverName toolName :: candidates (hashedName digest serverName toolName) := by
  induction k generalizing used names with
  | zero =>
    obtain rfl := Option.some.inj h
    exact List.nil_subset _
  | succ k ih =>
    rw [List.replicate_succ, qualifyToolNames] at h
    obtain ⟨⟨name, used'⟩, hname, hrest⟩ := Option.bind_eq_some_iff.mp h
    obtain ⟨names', hnames, rfl⟩ := Option.map_eq_some_iff.mp hrest
    refine List.cons_subset.mpr ⟨?_, ih hnames⟩
    unfold qualifyToolName at hname
    simp only at hname
    split at hname
    · obtain ⟨rfl, -⟩ := Prod.mk.inj (Option.some.inj hname)
      exact .head _
    · obtain ⟨s, hs, hpair⟩ := Option.map_eq_some_iff.mp hname
      obtain ⟨rfl, -⟩ := Prod.mk.inj hpair
      obtain ⟨-, i, -, rfl, -⟩ := FreshNames.search_spec hs
      exact .tail _ (mem_candidates _ i)

theorem not_namesTools {digest : Text → Text} {serverName toolName : Text} {k : ℕ} (hk : 2 ^ 53 + 4 < k) :
    ¬ NamesTools digest (List.replicate k (serverName, toolName)) := by
  rintro ⟨names, ⟨fuel, h⟩, hcount, -, hnodup, -⟩
  have hle := (List.subperm_of_subset hnodup (names_of_one digest serverName toolName k h)).length_le
  rw [hcount, List.length_replicate, List.length_cons, candidates, List.length_map, List.length_range] at hle
  omega

/-- **The names run out**: after 2^53 and a few tools of one name a call does not return. -/
theorem names_run_out : ¬ ∀ digest, HexDigest digest → ∀ pairs, NamesTools digest pairs := by
  intro h
  exact not_namesTools (Nat.lt_succ_self _)
    (h sha256Hex sha256Hex_hexDigest (List.replicate (2 ^ 53 + 5) (ofString "files", ofString "read")))

end AgentDesk.ToolNames
