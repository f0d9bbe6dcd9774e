/-
# The language of outbound content

What a container writes is decoded once, by `parseOutboundContent` of `src/outbound-contract.ts`: a JSON object of
at most four megabytes, no value of it more than twelve containers deep, and no object in it with one of three names.

* `Below`: a value, leaf or not, with the number of containers on the way down to it.
* `scanValue_none_iff`: the scan finds nothing exactly when no value below is too deep and no object below has a
  name that is forbidden.
* `scan_eq`: the scan goes no deeper than the containers may, so fourteen calls, one in the other, are all it needs,
  and it has no stack to exhaust.
* `outbound_language`: **what is accepted is that language**, and the answer is what was parsed.
-/
import AgentDesk.FileForwarding

namespace AgentDesk.SessionFiles

open JsonText

/-! ### The language -/

/-- The last value is the number of containers below the first. -/
inductive Below : Value → ℕ → Value → Prop
  | here (v : Value) : Below v 0 v
  | element {l : List Value} {v w : Value} {n : ℕ} (hv : v ∈ l) (h : Below v n w) : Below (.arr l) (n + 1) w
  | member {fields : List (Text × Value)} {key : Text} {v w : Value} {n : ℕ} (hv : (key, v) ∈ fields)
      (h : Below v n w) : Below (.obj fields) (n + 1) w

def Forbidden (key : Text) : Prop := ∃ k ∈ FORBIDDEN_KEYS, ofString k = key

/-- What of a value may be there, when it is itself at a depth. -/
structure Sound (depth : ℕ) (v : Value) : Prop where
  shallow : ∀ n w, Below v n w → depth + n ≤ MAX_DEPTH
  named : ∀ n fields, Below v n (.obj fields) → ∀ p ∈ fields, ¬ Forbidden p.1

/-- The text of an object that is admissible. -/
structure Admissible (raw : Text) (fields : List (Text × Value)) : Prop where
  size : (utf8 raw).length ≤ MAX_OUTBOUND_CONTENT_BYTES
  json : parse raw = some (.obj fields)
  sound : Sound 0 (.obj fields)

/-! ### The scan -/

theorem tooDeep_none_iff {depth : ℕ} : tooDeep depth = none ↔ depth ≤ MAX_DEPTH := by
  unfold tooDeep
  split
  · simp_all
  · simp_all

theorem sound_leaf {depth : ℕ} {v : Value} (hleaf : ∀ n w, Below v n w → n = 0 ∧ w = v)
    (hobj : ∀ fields, v ≠ .obj fields) : Sound depth v ↔ depth ≤ MAX_DEPTH := by
  constructor
  · intro h
    exact h.shallow 0 v (.here v)
  · intro h
    refine ⟨fun n w hw => ?_, fun n fields hw => ?_⟩
    · obtain ⟨rfl, -⟩ := hleaf n w hw
      exact h
    · obtain ⟨-, hv⟩ := hleaf n _ hw
      exact absurd hv.symm (hobj fields)

theorem sound_arr {depth : ℕ} {l : List Value} :
    Sound depth (.arr l) ↔ depth ≤ MAX_DEPTH ∧ ∀ v ∈ l, Sound (depth + 1) v := by
  constructor
  · intro h
    refine ⟨h.shallow 0 _ (.here _), fun v hv => ⟨fun n w hw => ?_, fun n fields hw => ?_⟩⟩
    · have hdeep := h.shallow (n + 1) w (.element hv hw)
      omega
    · exact h.named (n + 1) fields (.element hv hw)
  · rintro ⟨hdepth, hall⟩
    refine ⟨fun n w hw => ?_, fun n fields hw => ?_⟩
    · cases hw with
      | here => exact hdepth
      | element hv hw =>
        have hdeep := (hall _ hv).shallow _ w hw
        omega
    · cases hw with
      | element hv hw => exact (hall _ hv).named _ fields hw

theorem sound_obj {depth : ℕ} {fields : List (Text × Value)} :
    Sound depth (.obj fields) ↔ depth ≤ MAX_DEPTH ∧ ∀ p ∈ fields, ¬ Forbidden p.1 ∧ Sound (depth + 1) p.2 := by
  constructor
  · intro h
    refine ⟨h.shallow 0 _ (.here _), fun p hp => ⟨h.named 0 fields (.here _) p hp, fun n w hw => ?_, fun n fs hw => ?_⟩⟩
    · have hdeep := h.shallow (n + 1) w (.member hp hw)
      omega
    · exact h.named (n + 1) fs (.member hp hw)
  · rintro ⟨hdepth, hall⟩
    refine ⟨fun n w hw => ?_, fun n fs hw => ?_⟩
    · cases hw with
      | here => exact hdepth
      | member hv hw =>
        have hdeep := (hall _ hv).2.shallow _ w hw
        omega
    · cases hw with
      | here => exact fun p hp => (hall p hp).1
      | member hv hw => exact (hall _ hv).2.named _ fs hw

theorem find_forbidden_iff {key : Text} :
    FORBIDDEN_KEYS.find? (fun k => ofString k = key) = none ↔ ¬ Forbidden key := by
  simp [Forbidden]

mutual

/-- **The scan of a value finds nothing** exactly when everything below is as it may be. -/
theorem scanValue_none_iff : ∀ (depth : ℕ) (v : Value), scanValue depth v = none ↔ Sound depth v
  | depth, .arr l => by
    rw [scanValue, Option.or_eq_none_iff, tooDeep_none_iff, scanElements_none_iff (depth + 1) l, sound_arr]
  | depth, .obj fields => by
    rw [scanValue, Option.or_eq_none_iff, tooDeep_none_iff, scanMembers_none_iff (depth + 1) fields, sound_obj]
  | depth, .null => tooDeep_none_iff.trans (sound_leaf (fun _ _ h => by cases h; exact ⟨rfl, rfl⟩) (by simp)).symm
  | depth, .bool _ => tooDeep_none_iff.trans (sound_leaf (fun _ _ h => by cases h; exact ⟨rfl, rfl⟩) (by simp)).symm
  | depth, .num _ => tooDeep_none_iff.trans (sound_leaf (fun _ _ h => by cases h; exact ⟨rfl, rfl⟩) (by simp)).symm
  | depth, .str _ => tooDeep_none_iff.trans (sound_leaf (fun _ _ h => by cases h; exact ⟨rfl, rfl⟩) (by simp)).symm

theorem scanElements_none_iff : ∀ (depth : ℕ) (l : List Value),
    scanElements depth l = none ↔ ∀ v ∈ l, Sound depth v
  | _, [] => by simp [scanElements]
  | depth, v :: l => by
    rw [scanElements, Option.or_eq_none_iff, scanValue_none_iff depth v, scanElements_none_iff depth l,
      List.forall_mem_cons]

theorem scanMembers_none_iff : ∀ (depth : ℕ) (fields : List (Text × Value)),
    scanMembers depth fields = none ↔ ∀ p ∈ fields, ¬ Forbidden p.1 ∧ Sound depth p.2
  | _, [] => by simp [scanMembers]
  | depth, (key, v) :: fields => by
    rw [scanMembers, Option.or_eq_none_iff, Option.map_eq_none_iff, find_forbidden_iff, Option.or_eq_none_iff,
      scanValue_none_iff depth v, scanMembers_none_iff depth fields, List.forall_mem_cons, and_assoc]

end

/-! ### The stack -/

/-- A loop that returns what is wrong with the first element that something is wrong with. -/
def firstBad {β : Type} (scan : β → Option (Option String)) : List β → Option (Option String)
  | [] => some none
  | b :: bs => match scan b with
    | none => none
    | some (some bad) => some (some bad)
    | some none => firstBad scan bs

/-- The scan on a stack with so many frames; nothing when they are used up. -/
def scan : ℕ → ℕ → Value → Option (Option String)
  | 0, _, _ => none
  | frames + 1, depth, value =>
    if MAX_DEPTH < depth then some (some s!"payload nests deeper than {MAX_DEPTH} levels")
    else match value with
      | .arr l => firstBad (scan frames (depth + 1)) l
      | .obj fields => firstBad (fun p => match FORBIDDEN_KEYS.find? fun k => ofString k = p.1 with
        | some k => some (some s!"payload contains forbidden key \"{k}\"")
        | none => scan frames (depth + 1) p.2) fields
      | _ => some none

theorem firstBad_elements {visit : Value → Option (Option String)} {depth : ℕ} :
    ∀ {l : List Value}, (∀ v ∈ l, visit v = some (scanValue depth v)) → firstBad visit l = some (scanElements depth l)
  | [], _ => rfl
  | v :: l, h => by
    have hv := h v List.mem_cons_self
    have hl := firstBad_elements fun w hw => h w (List.mem_cons_of_mem v hw)
    rw [firstBad, hv, scanElements]
    cases scanValue depth v with
    | none => exact hl
    | some bad => rfl

theorem firstBad_members {visit : Value → Option (Option String)} {depth : ℕ} : ∀ {fields : List (Text × Value)},
    (∀ p ∈ fields, visit p.2 = some (scanValue depth p.2)) →
      firstBad (fun p => match FORBIDDEN_KEYS.find? fun k => ofString k = p.1 with
        | some k => some (some s!"payload contains forbidden key \"{k}\"")
        | none => visit p.2) fields = some (scanMembers depth fields)
  | [], _ => rfl
  | (key, v) :: fields, h => by
    have hv := h (key, v) List.mem_cons_self
    have hrest := firstBad_members fun p hp => h p (List.mem_cons_of_mem _ hp)
    rw [firstBad, scanMembers]
    dsimp only at hv ⊢
    cases FORBIDDEN_KEYS.find? fun k => ofString k = key with
    | some k => rfl
    | none =>
      dsimp only
      rw [hv, Option.map_none, Option.none_or]
      cases scanValue depth v with
      | none => exact hrest
      | some bad => rfl

/-- **The scan uses no more frames than containers may be in one another, and two.** -/
theorem scan_eq : ∀ (frames depth : ℕ) (v : Value), MAX_DEPTH + 2 ≤ frames + depth → 0 < frames →
    scan frames depth v = some (scanValue depth v)
  | 0, _, _, _, hframes => absurd hframes (lt_irrefl 0)
  | frames + 1, depth, v, henough, _ => by
    by_cases hdepth : MAX_DEPTH < depth
    · have hdeep : tooDeep depth = some s!"payload nests deeper than {MAX_DEPTH} levels" := if_pos hdepth
      cases v <;> simp only [scan, if_pos hdepth, scanValue, hdeep, Option.some_or]
    · have hflat : tooDeep depth = none := if_neg hdepth
      have hnext : ∀ w, scan frames (depth + 1) w = some (scanValue (depth + 1) w) :=
        fun w => scan_eq frames (depth + 1) w (by omega) (by omega)
      cases v with
      | arr l =>
        rw [scan, if_neg hdepth, scanValue, hflat, Option.none_or]
        exact firstBad_elements fun w _ => hnext w
      | obj fields =>
        rw [scan, if_neg hdepth, scanValue, hflat, Option.none_or]
        exact firstBad_members fun p _ => hnext p.2
      | _ => simp only [scan, if_neg hdepth, scanValue, hflat]

/-! ### The boundary -/

/-- `parseOutboundContent` on a stack with so many frames for the scan; nothing when it overflows. -/
def parseOutboundContentIn (frames : ℕ) (syntaxMessage : Text → String) (raw : Text) :
    Option (Except String (List (Text × Value))) :=
  if MAX_OUTBOUND_CONTENT_BYTES < (utf8 raw).length then
    some (.error s!"payload exceeds {MAX_OUTBOUND_CONTENT_BYTES} bytes")
  else match parse raw with
    | none => some (.error s!"payload is not valid JSON: {syntaxMessage raw}")
    | some .null => some (.error "payload is null, expected a JSON object")
    | some (.arr _) => some (.error "payload is an array, expected a JSON object")
    | some (.bool _) => some (.error "payload is boolean, expected a JSON object")
    | some (.num _) => some (.error "payload is number, expected a JSON object")
    | some (.str _) => some (.error "payload is string, expected a JSON object")
    | some (.obj fields) => (scan frames 0 (.obj fields)).map fun
      | some bad => .error bad
      | none => .ok fields

theorem parseOutboundContentIn_eq (more : ℕ) (syntaxMessage : Text → String) (raw : Text) :
    parseOutboundContentIn (MAX_DEPTH + 2 + more) syntaxMessage raw =
      some (parseOutboundContent syntaxMessage raw) := by
  have hscan : ∀ v, scan (MAX_DEPTH + 2 + more) 0 v = some (scanValue 0 v) :=
    fun v => scan_eq _ 0 v (by omega) (by omega)
  unfold parseOutboundContentIn parseOutboundContent
  by_cases hsize : MAX_OUTBOUND_CONTENT_BYTES < (utf8 raw).length
  · rw [if_pos hsize, if_pos hsize]
  · rw [if_neg hsize, if_neg hsize]
    cases parse raw with
    | none => rfl
    | some v =>
      cases v with
      | obj fields =>
        dsimp only
        refine (congrArg (Option.map _) (hscan (.obj fields))).trans ?_
        cases scanValue 0 (.obj fields) <;> rfl
      | _ => rfl

theorem parse_ok_iff {syntaxMessage : Text → String} {raw : Text} {fields : List (Text × Value)} :
    parseOutboundContent syntaxMessage raw = .ok fields ↔ Admissible raw fields := by
  have hscan := scanValue_none_iff 0 (.obj fields)
  constructor
  · intro h
    have hparse := parse_of_admissible h
    unfold parseOutboundContent at h
    by_cases hsize : MAX_OUTBOUND_CONTENT_BYTES < (utf8 raw).length
    · rw [if_pos hsize] at h
      cases h
    · rw [if_neg hsize, hparse] at h
      dsimp only at h
      cases hbad : scanValue 0 (.obj fields) with
      | some bad =>
        rw [hbad] at h
        cases h
      | none => exact ⟨Nat.le_of_not_lt hsize, hparse, hscan.mp hbad⟩
  · intro h
    unfold parseOutboundContent
    rw [if_neg (Nat.not_lt.mpr h.size), h.json]
    dsimp only
    rw [hscan.mpr h.sound]

/-- **The outbound contract accepts its language and nothing else.** With room for fourteen calls it returns on
every text, and it returns an object exactly when the text is admissible and of that object. -/
theorem outbound_language (more : ℕ) (syntaxMessage : Text → String) (raw : Text) :
    ∃ result, parseOutboundContentIn (MAX_DEPTH + 2 + more) syntaxMessage raw = some result ∧
      result = parseOutboundContent syntaxMessage raw ∧
        ∀ fields, result = .ok fields ↔ Admissible raw fields :=
  ⟨_, parseOutboundContentIn_eq more syntaxMessage raw, rfl, fun _ => parse_ok_iff⟩

end AgentDesk.SessionFiles
