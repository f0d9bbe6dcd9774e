/-
# The container config, as the host reads it

`readContainerConfig` takes the file apart: the keys that the host does not know are spread as they are, and
each key that it knows goes through a check of its own, which puts in defaults and leaves out what it does
not take. `updateContainerConfig` changes what was read and writes all of it back, so what a check has left out
is gone from the file.

A check keeps the settings that already have the form in which it gives them.

* `get_read`, `get_read_other`: what was read under a name.
* `kept_known`, `kept_key_iff`: **the settings under a name that are kept**.
* `configProperties_again`: a plain file that was written is read as before.
-/
import AgentDesk.LlmWriteBack

namespace Binary64

/-! ### Whole numbers -/

/-- The units of the greatest integer below. -/
def floorUnits (n : ℕ) : ℕ := n / 2 ^ places * 2 ^ places

theorem representable_floor {n : ℕ} (h : Representable n) : Representable (floorUnits n) := by
  obtain ⟨hbound, hstep⟩ := h
  have hle : floorUnits n ≤ n := Nat.div_mul_le_self n _
  refine ⟨lt_of_le_of_lt hle hbound, ?_⟩
  by_cases hplaces : step n ≤ places
  · have hlog : step (floorUnits n) ≤ step n := Nat.sub_le_sub_right (by
      rw [Nat.log2_eq_log_two, Nat.log2_eq_log_two]
      exact Nat.log_mono_right hle) 52
    exact (Nat.pow_dvd_pow 2 (hlog.trans hplaces)).trans (Dvd.intro_left _ rfl)
  · have hwhole : 2 ^ places ∣ n := (Nat.pow_dvd_pow 2 (by omega)).trans hstep
    have hsame : floorUnits n = n := Nat.div_mul_cancel hwhole
    rw [hsame]
    exact hstep

/-- `Math.floor` of a number that is not negative. -/
def Double.floor : Double → Double
  | .finite neg n h => .finite neg (floorUnits n) (representable_floor h)
  | x => x

/-- `Number.isFinite(x) && x > 0`. -/
def Double.positive : Double → Bool
  | .finite neg n _ => !neg && 0 < n
  | _ => false

end Binary64

namespace AgentDesk

open JsonText Js Binary64

/-! ### The checks -/

/-- `v ?? fallback`. -/
def orDefault (v : Option Value) (fallback : Value) : Value :=
  match v with
  | none | some .null => fallback
  | some v => v

/-- One of these texts, or nothing. -/
def oneOfTexts (names : List String) (v : Option Value) : Option Value :=
  match v with
  | some (.str t) => if t ∈ names.map ofString then some (.str t) else none
  | _ => none

def normalizeMemoryMode (v : Option Value) : Option Value := oneOfTexts ["workspace", "gateway"] v

def normalizeA2aSessionMode (v : Option Value) : Option Value := oneOfTexts ["agent-shared", "root-session"] v

/-- A unit of `[a-zA-Z0-9_.-]`. -/
def nameUnit (c : UInt16) : Bool :=
  (unit 'a' ≤ c && c ≤ unit 'z') || (unit 'A' ≤ c && c ≤ unit 'Z') || (unit '0' ≤ c && c ≤ unit '9') ||
    c = unit '_' || c = unit '.' || c = unit '-'

/-- `/^[a-zA-Z0-9_.-]+$/`. -/
def plainName (t : Text) : Bool := t ≠ [] && t.all nameUnit

def normalizeOciRuntime (v : Option Value) : Option Value :=
  match v with
  | some (.str t) => if plainName (trimText t) then some (.str (trimText t)) else none
  | _ => none

def normalizeNetwork (v : Option Value) : Option Value :=
  match v with
  | some (.str t) => if trimText t = [] then none else some (.str (trimText t))
  | _ => none

def validSkill : Value → Bool
  | .str t => plainName t
  | _ => false

/-- A list of names, and `all` for whatever is no list. -/
def normalizeSkills (v : Option Value) : Value :=
  match v with
  | some (.arr l) => .arr (l.filter validSkill)
  | _ => .str (ofString "all")

def positiveNumber (v : Option Value) : Option Double :=
  match v with
  | some (.num x) => if x.positive then some x else none
  | _ => none

def resourceProperties (raw : List (Text × Value)) : List (String × Option Value) :=
  [("memoryMb", (positiveNumber (field raw "memoryMb")).map fun x => .num x.floor),
    ("cpus", (positiveNumber (field raw "cpus")).map fun x => .num x),
    ("pidsLimit", (positiveNumber (field raw "pidsLimit")).map fun x => .num x.floor)]

def normalizeResources (v : Option Value) : Option Value :=
  match v with
  | some (.obj raw) =>
    if (resourceProperties raw).any fun p => p.2.isSome then some (objectOf (resourceProperties raw)) else none
  | _ => none

/-- `v === 'lean' ? 'lean' : v === true`. -/
def progressiveDisclosure (v : Option Value) : Value :=
  match v with
  | some (.str t) => if t = ofString "lean" then .str t else .bool false
  | v => .bool (isTrue v)

/-! ### Reading and writing -/

def packagesProperties (raw : List (Text × Value)) : List (String × Option Value) :=
  [("apt", some (orDefault (nestedField raw "packages" "apt") (.arr []))),
    ("npm", some (orDefault (nestedField raw "packages" "npm") (.arr [])))]

/-- The keys that the host knows. -/
def configProperties (raw : List (Text × Value)) (llm : Option Value) : List (String × Option Value) :=
  [("mcpServers", some (orDefault (field raw "mcpServers") (.obj []))),
    ("backendGateway", field raw "backendGateway"),
    ("packages", some (objectOf (packagesProperties raw))),
    ("imageTag", field raw "imageTag"),
    ("additionalMounts", some (orDefault (field raw "additionalMounts") (.arr []))),
    ("skills", some (normalizeSkills (field raw "skills"))),
    ("provider", field raw "provider"),
    ("llm", llm),
    ("groupName", field raw "groupName"),
    ("assistantName", field raw "assistantName"),
    ("memoryMode", normalizeMemoryMode (field raw "memoryMode")),
    ("a2aSessionMode", normalizeA2aSessionMode (field raw "a2aSessionMode")),
    ("ociRuntime", normalizeOciRuntime (field raw "ociRuntime")),
    ("agentGroupId", field raw "agentGroupId"),
    ("maxMessagesPerPrompt", field raw "maxMessagesPerPrompt"),
    ("resources", normalizeResources (field raw "resources")),
    ("network", normalizeNetwork (field raw "network")),
    ("env", field raw "env"),
    ("progressiveDisclosure", some (progressiveDisclosure (field raw "progressiveDisclosure")))]

/-- The config of an object: `raw` is spread, and the keys that the host knows are put over it. -/
def configOf (raw : List (Text × Value)) : Except String Properties :=
  (readLlm (field raw "llm")).map fun llm => assign raw (configProperties raw llm)

def emptyConfig : Properties :=
  assign [] [("mcpServers", some (.obj [])),
    ("packages", some (objectOf [("apt", some (.arr [])), ("npm", some (.arr []))])),
    ("additionalMounts", some (.arr [])), ("skills", some (.str (ofString "all")))]

/-- The config in the file at a path; `none` for no file. -/
def readContainerConfig (path : String) (file : Option Text) : Except String Properties :=
  match file with
  | none => .ok emptyConfig
  | some text => match parse text with
    | some (.obj raw) => configOf raw
    | _ => .error s!"container-config: failed to parse {path}"

/-- `JSON.stringify(config, null, 2) + '\n'`. -/
def writeContainerConfig (config : Properties) : Text := pretty 0 (.obj (definedFields config)) ++ [0x0a]

/-- The text of the file after the change. -/
def updateContainerConfig (path : String) (file : Option Text) (mutate : Properties → Except String Properties) :
    Except String Text :=
  readContainerConfig path file >>= fun config => (mutate config).map writeContainerConfig

/-! ### Changes -/

/-- `list.push(...items)`. -/
def pushAll (list : Option Value) (items : List Text) : Except String Value :=
  match list with
  | some (.arr l) => .ok (.arr (l ++ items.map fun t => .str t))
  | _ => .error "push is not a function"

/-- The packages that are added. -/
def appendPackages (apt npm : List Text) (config : Properties) : Except String Properties :=
  match config.get (ofString "packages") with
  | some (.obj packages) =>
    pushAll (field packages "apt") apt >>= fun apt =>
    pushAll (field packages "npm") npm >>= fun npm =>
    .ok (config.set "packages" (some (.obj (insertField (insertField packages (ofString "apt") apt)
      (ofString "npm") npm))))
  | _ => .error "packages is undefined"

/-- A list with an element put at an index. A hole is written as `null`. -/
def setElement (l : List Value) (i : ℕ) (v : Value) : List Value :=
  if i < l.length then l.set i v else l ++ List.replicate (i - l.length) .null ++ [v]

/-- `container[name] = v`, as it is written. A list is written without its other properties, and the name of
the prototype is no property unless the file has made it one. -/
def setMember (container : Value) (name : Text) (v : Value) : Except String Value :=
  match container with
  | .obj fields =>
    if name = ofString "__proto__" ∧ fields.lookup name = none then .ok container
    else .ok (.obj (insertField fields name v))
  | .arr l => match arrayIndex name with
    | some i => .ok (.arr (setElement l i v))
    | none => if name = ofString "length" then .error "Invalid array length" else .ok container
  | _ => .error "Cannot create property"

/-- The MCP server that is set. -/
def setMcpServer (name : Text) (entry : JsonObject) (config : Properties) : Except String Properties :=
  match config.get (ofString "mcpServers") with
  | some servers => (setMember servers name (.obj entry.fields)).map fun servers => config.set "mcpServers" (some servers)
  | none => .error "mcpServers is undefined"

/-- The changes that only append packages, or set one MCP server. -/
inductive Mutation where
  | appendPackages (apt npm : List Text)
  | setMcpServer (name : Text) (entry : JsonObject)

def Mutation.apply : Mutation → Properties → Except String Properties
  | .appendPackages apt npm => AgentDesk.appendPackages apt npm
  | .setMcpServer name entry => AgentDesk.setMcpServer name entry

/-- What the change is about: the two lists, or the server (the servers as a whole when they are no object). -/
def Mutation.About : Mutation → List Text → Prop
  | .appendPackages _ _, path =>
    [ofString "packages", ofString "apt"] <+: path ∨ [ofString "packages", ofString "npm"] <+: path
  | .setMcpServer name _, path => [ofString "mcpServers", name] <+: path ∨ path = [ofString "mcpServers"]

/-! ### Files that are plain -/

/-- A positive number that rounding leaves as it is. -/
def LimitPlain (round : Double → Double) (limit : Option Value) : Prop :=
  ∀ v, limit = some v → Unset v ∨ ∃ x, v = .num x ∧ x.positive = true ∧ round x = x

def PackagesPlain (v : Value) : Prop := Unset v ∨ ∃ fields, v = .obj fields ∧ OnlyKeys ["apt", "npm"] fields

def SkillsPlain (v : Value) : Prop :=
  Unset v ∨ v = .str (ofString "all") ∨ ∃ l, v = .arr l ∧ ∀ skill ∈ l, validSkill skill = true

def TextPlain (names : List String) (v : Value) : Prop := Unset v ∨ ∃ t, v = .str t ∧ t ∈ names.map ofString

def OciRuntimePlain (v : Value) : Prop := Unset v ∨ ∃ t, v = .str t ∧ trimText t = t ∧ plainName t = true

def NetworkPlain (v : Value) : Prop := Unset v ∨ ∃ t, v = .str t ∧ trimText t = t ∧ t ≠ []

def ResourcesPlain (v : Value) : Prop :=
  Unset v ∨ ∃ fields, v = .obj fields ∧ OnlyKeys ["memoryMb", "cpus", "pidsLimit"] fields ∧
    LimitPlain Double.floor (field fields "memoryMb") ∧ LimitPlain id (field fields "cpus") ∧
    LimitPlain Double.floor (field fields "pidsLimit")

def DisclosurePlain (v : Value) : Prop := Unset v ∨ v = .str (ofString "lean") ∨ ∃ b, v = .bool b

/-- The form in which a setting is kept, for the keys that are not kept as they are. -/
def plainForms : List (String × (Value → Prop)) :=
  [("packages", PackagesPlain), ("skills", SkillsPlain), ("llm", LlmPlain),
    ("memoryMode", TextPlain ["workspace", "gateway"]), ("a2aSessionMode", TextPlain ["agent-shared", "root-session"]),
    ("ociRuntime", OciRuntimePlain), ("resources", ResourcesPlain), ("network", NetworkPlain),
    ("progressiveDisclosure", DisclosurePlain)]

/-- A file with every setting in the form in which it is written, and numbers that JSON can write. -/
structure PlainConfig (raw : List (Text × Value)) : Prop where
  writable : (Json.obj raw : Value).writable = true
  forms : ∀ p ∈ plainForms, ∀ v, field raw p.1 = some v → p.2 v

/-! ### Each check -/

theorem kept_check_iff {v : Value} {w : Option Value}
    (hw : ∀ x, w = some x → x.Ordered ∧ x.writable = true ∧ isSetting x = true) :
    Kept v (w.map rewritten) ↔ Unset v ∨ w = some v := by
  have hrewritten : w.map rewritten = w := by
    cases w with
    | none => rfl
    | some x =>
      obtain ⟨ho, hwritable, -⟩ := hw x rfl
      rw [Option.map_some, (rewritten_eq_iff ho).mpr hwritable]
  have hrecord : isRecord w = none := by
    cases w with
    | none => rfl
    | some x =>
      obtain ⟨-, -, hset⟩ := hw x rfl
      cases x with
      | obj fields => cases hset
      | _ => rfl
  rw [hrewritten, kept_iff_of_leaf hrecord]
  constructor
  · rintro (h | ⟨-, h⟩)
    · exact .inl h
    · exact .inr h
  · rintro (h | h)
    · exact .inl h
    · exact .inr ⟨(hw v h).2.2, h⟩

theorem leaf_str (t : Text) : (Json.str t : Value).Ordered ∧ (Json.str t : Value).writable = true ∧
    isSetting (.str t) = true := ⟨trivial, rfl, rfl⟩

theorem oneOfTexts_eq_some {names : List String} {v : Option Value} {w : Value} :
    oneOfTexts names v = some w ↔ v = some w ∧ ∃ t, w = .str t ∧ t ∈ names.map ofString := by
  unfold oneOfTexts
  split
  · rename_i t
    by_cases hmem : t ∈ names.map ofString
    · rw [if_pos hmem]
      constructor
      · intro h
        obtain rfl := Option.some.inj h
        exact ⟨rfl, t, rfl, hmem⟩
      · rintro ⟨h, -⟩
        exact h
    · rw [if_neg hmem]
      refine iff_of_false (fun h => nomatch h) ?_
      rintro ⟨h, t', rfl, hmem'⟩
      obtain rfl := Json.str.inj (Option.some.inj h)
      exact hmem hmem'
  · rename_i hno
    refine iff_of_false (fun h => nomatch h) ?_
    rintro ⟨rfl, t, rfl, -⟩
    exact hno t rfl

theorem kept_text_iff (names : List String) (v : Value) :
    Kept v ((oneOfTexts names (some v)).map rewritten) ↔ TextPlain names v := by
  rw [kept_check_iff]
  · unfold TextPlain
    rw [oneOfTexts_eq_some]
    simp
  · intro x hx
    obtain ⟨-, t, rfl, -⟩ := oneOfTexts_eq_some.mp hx
    exact leaf_str t

theorem normalizeOciRuntime_eq_some {v : Option Value} {w : Value} :
    normalizeOciRuntime v = some w ↔ ∃ t, v = some (.str t) ∧ w = .str (trimText t) ∧ plainName (trimText t) = true := by
  unfold normalizeOciRuntime
  split
  · rename_i t
    by_cases hname : plainName (trimText t) = true
    · rw [if_pos hname]
      constructor
      · intro h
        exact ⟨t, rfl, (Option.some.inj h).symm, hname⟩
      · rintro ⟨t', ht', rfl, -⟩
        obtain rfl := Json.str.inj (Option.some.inj ht')
        rfl
    · rw [if_neg hname]
      refine iff_of_false (fun h => nomatch h) ?_
      rintro ⟨t', ht', -, hname'⟩
      obtain rfl := Json.str.inj (Option.some.inj ht')
      exact hname hname'
  · rename_i hno
    refine iff_of_false (fun h => nomatch h) ?_
    rintro ⟨t, rfl, -⟩
    exact hno t rfl

theorem kept_ociRuntime_iff (v : Value) :
    Kept v ((normalizeOciRuntime (some v)).map rewritten) ↔ OciRuntimePlain v := by
  rw [kept_check_iff]
  · unfold OciRuntimePlain
    rw [normalizeOciRuntime_eq_some]
    refine or_congr_right ⟨?_, ?_⟩
    · rintro ⟨t, ht, hv, hname⟩
      obtain rfl := Option.some.inj ht
      have htrim : trimText t = t := (Json.str.inj hv).symm
      exact ⟨t, rfl, htrim, htrim ▸ hname⟩
    · rintro ⟨t, rfl, htrim, hname⟩
      exact ⟨t, rfl, by rw [htrim], by rw [htrim]; exact hname⟩
  · intro x hx
    obtain ⟨t, -, rfl, -⟩ := normalizeOciRuntime_eq_some.mp hx
    exact leaf_str _

theorem normalizeNetwork_eq_some {v : Option Value} {w : Value} :
    normalizeNetwork v = some w ↔ ∃ t, v = some (.str t) ∧ w = .str (trimText t) ∧ trimText t ≠ [] := by
  unfold normalizeNetwork
  split
  · rename_i t
    by_cases hblank : trimText t = []
    · rw [if_pos hblank]
      refine iff_of_false (fun h => nomatch h) ?_
      rintro ⟨t', ht', -, hne⟩
      obtain rfl := Json.str.inj (Option.some.inj ht')
      exact hne hblank
    · rw [if_neg hblank]
      constructor
      · intro h
        exact ⟨t, rfl, (Option.some.inj h).symm, hblank⟩
      · rintro ⟨t', ht', rfl, -⟩
        obtain rfl := Json.str.inj (Option.some.inj ht')
        rfl
  · rename_i hno
    refine iff_of_false (fun h => nomatch h) ?_
    rintro ⟨t, rfl, -⟩
    exact hno t rfl

theorem kept_network_iff (v : Value) : Kept v ((normalizeNetwork (some v)).map rewritten) ↔ NetworkPlain v := by
  rw [kept_check_iff]
  · unfold NetworkPlain
    rw [normalizeNetwork_eq_some]
    refine or_congr_right ⟨?_, ?_⟩
    · rintro ⟨t, ht, hv, hne⟩
      obtain rfl := Option.some.inj ht
      have htrim : trimText t = t := (Json.str.inj hv).symm
      exact ⟨t, rfl, htrim, htrim ▸ hne⟩
    · rintro ⟨t, rfl, htrim, hne⟩
      exact ⟨t, rfl, by rw [htrim], by rw [htrim]; exact hne⟩
  · intro x hx
    obtain ⟨t, -, rfl, -⟩ := normalizeNetwork_eq_some.mp hx
    exact leaf_str _

theorem allNamesList_filter {P : List Text → Prop} (p : Value → Bool) (l : List Value) (h : AllNamesList P l) :
    AllNamesList P (l.filter p) := by
  rw [allNamesList_iff] at h ⊢
  intro v hv
  exact h v (List.mem_filter.mp hv).1

theorem allNumbersList_filter {P : Double → Bool} (p : Value → Bool) : ∀ (l : List Value),
    allNumbersList P l = true → allNumbersList P (l.filter p) = true
  | [], _ => rfl
  | v :: l, h => by
    rw [allNumbersList, Bool.and_eq_true] at h
    rw [List.filter_cons]
    split
    · rw [allNumbersList, Bool.and_eq_true]
      exact ⟨h.1, allNumbersList_filter p l h.2⟩
    · exact allNumbersList_filter p l h.2

theorem normalizeSkills_cases (v : Option Value) :
    (∃ l, v = some (.arr l) ∧ normalizeSkills v = .arr (l.filter validSkill)) ∨
      (∀ l, v ≠ some (.arr l)) ∧ normalizeSkills v = .str (ofString "all") := by
  unfold normalizeSkills
  split
  · rename_i l
    exact .inl ⟨l, rfl, rfl⟩
  · rename_i hno
    exact .inr ⟨hno, rfl⟩

theorem kept_skills_iff {v : Value} (ho : v.Ordered) (hwritable : v.writable = true) :
    Kept v ((some (normalizeSkills (some v))).map rewritten) ↔ SkillsPlain v := by
  obtain ⟨l, hl, hskills⟩ | ⟨hno, hskills⟩ := normalizeSkills_cases (some v)
  · obtain rfl := Option.some.inj hl
    rw [hskills, kept_check_iff]
    · unfold SkillsPlain
      refine or_congr_right ⟨?_, ?_⟩
      · intro h
        have hfilter : l.filter validSkill = l := Json.arr.inj (Option.some.inj h)
        exact .inr ⟨l, rfl, List.filter_eq_self.mp hfilter⟩
      · rintro (h | ⟨l', hl', hall⟩)
        · cases h
        · obtain rfl := Json.arr.inj hl'
          rw [List.filter_eq_self.mpr hall]
    · intro x hx
      obtain rfl := Option.some.inj hx
      exact ⟨allNamesList_filter validSkill l ho, allNumbersList_filter validSkill l hwritable, rfl⟩
  · rw [hskills, kept_check_iff]
    · unfold SkillsPlain
      refine or_congr_right ⟨?_, ?_⟩
      · intro h
        exact .inl (Option.some.inj h).symm
      · rintro (rfl | ⟨l, rfl, -⟩)
        · rfl
        · exact absurd rfl (hno l)
    · intro x hx
      obtain rfl := Option.some.inj hx
      exact leaf_str _

theorem progressiveDisclosure_cases (v : Option Value) :
    (v = some (.str (ofString "lean")) ∧ progressiveDisclosure v = .str (ofString "lean")) ∨
      (v ≠ some (.str (ofString "lean")) ∧ progressiveDisclosure v = .bool (isTrue v)) := by
  unfold progressiveDisclosure
  split
  · rename_i t
    by_cases hlean : t = ofString "lean"
    · exact .inl ⟨by rw [hlean], by rw [if_pos hlean, hlean]⟩
    · exact .inr ⟨fun h => hlean (Json.str.inj (Option.some.inj h)), by rw [if_neg hlean]; rfl⟩
  · rename_i hno
    exact .inr ⟨fun h => hno _ h, rfl⟩

theorem kept_disclosure_iff (v : Value) :
    Kept v ((some (progressiveDisclosure (some v))).map rewritten) ↔ DisclosurePlain v := by
  obtain ⟨hlean, hvalue⟩ | ⟨hlean, hvalue⟩ := progressiveDisclosure_cases (some v)
  · obtain rfl := Option.some.inj hlean
    rw [hvalue]
    exact iff_of_true (kept_self _) (.inr (.inl rfl))
  · rw [hvalue, kept_check_iff]
    · unfold DisclosurePlain
      refine or_congr_right ⟨?_, ?_⟩
      · intro h
        exact .inr ⟨_, (Option.some.inj h).symm⟩
      · rintro (rfl | ⟨b, rfl⟩)
        · exact absurd rfl hlean
        · cases b <;> rfl
    · intro x hx
      obtain rfl := Option.some.inj hx
      exact ⟨trivial, rfl, rfl⟩

theorem positiveNumber_eq_some {v : Option Value} {x : Double} :
    positiveNumber v = some x ↔ v = some (.num x) ∧ x.positive = true := by
  unfold positiveNumber
  split
  · rename_i y
    by_cases hpos : y.positive = true
    · rw [if_pos hpos]
      constructor
      · intro h
        obtain rfl := Option.some.inj h
        exact ⟨rfl, hpos⟩
      · rintro ⟨h, -⟩
        rw [Json.num.inj (Option.some.inj h)]
    · rw [if_neg hpos]
      refine iff_of_false (fun h => nomatch h) ?_
      rintro ⟨h, hpos'⟩
      obtain rfl := Json.num.inj (Option.some.inj h)
      exact hpos hpos'
  · rename_i hno
    refine iff_of_false (fun h => nomatch h) ?_
    rintro ⟨rfl, -⟩
    exact hno x rfl

theorem writable_positive {x : Double} (h : x.positive = true) : writable x = true ∧ writable x.floor = true := by
  cases x with
  | infinity neg => cases h
  | finite neg n hn =>
    have hneg : neg = false := by
      simp only [Double.positive, Bool.and_eq_true, Bool.not_eq_true'] at h
      exact h.1
    subst hneg
    exact ⟨by simp [JsonText.writable], by simp [JsonText.writable, Double.floor]⟩

theorem kept_limit_iff {limit : Option Value} {round : Double → Double}
    (hround : ∀ x : Double, x.positive = true → writable (round x) = true) :
    (∀ v, limit = some v → Kept v (((positiveNumber limit).map fun x => .num (round x)).map rewritten)) ↔
      LimitPlain round limit := by
  refine forall_congr' fun v => imp_congr_right fun hv => ?_
  rw [hv, kept_check_iff]
  · refine or_congr_right ⟨?_, ?_⟩
    · intro h
      obtain ⟨x, hx, hxv⟩ := Option.map_eq_some_iff.mp h
      obtain ⟨hnum, hpos⟩ := positiveNumber_eq_some.mp hx
      obtain rfl := Option.some.inj hnum
      exact ⟨x, rfl, hpos, Json.num.inj hxv⟩
    · rintro ⟨x, rfl, hpos, hsame⟩
      rw [positiveNumber_eq_some.mpr ⟨rfl, hpos⟩, Option.map_some, hsame]
  · intro y hy
    obtain ⟨x, hx, rfl⟩ := Option.map_eq_some_iff.mp hy
    exact ⟨trivial, hround x (positiveNumber_eq_some.mp hx).2, rfl⟩

theorem resourceProperties_inOrder (raw : List (Text × Value)) :
    InOrder ((resourceProperties raw).map fun p => ofString p.1) := by
  show InOrder (["memoryMb", "cpus", "pidsLimit"].map ofString)
  unfold InOrder
  decide

theorem resourceProperties_values (raw : List (Text × Value)) :
    ∀ p ∈ resourceProperties raw, ∀ v, p.2 = some v → v.Ordered ∧ v.writable = true := by
  have hlimit : ∀ {limit : Option Value} {round : Double → Double},
      (∀ x : Double, x.positive = true → writable (round x) = true) →
      ∀ v, ((positiveNumber limit).map fun x => (.num (round x) : Value)) = some v → v.Ordered ∧ v.writable = true := by
    intro limit round hround v hv
    obtain ⟨x, hx, rfl⟩ := Option.map_eq_some_iff.mp hv
    exact ⟨trivial, hround x (positiveNumber_eq_some.mp hx).2⟩
  simp only [resourceProperties, List.forall_mem_cons, List.not_mem_nil, false_implies, implies_true, and_true]
  exact ⟨hlimit fun x h => (writable_positive h).2, @hlimit _ id fun x h => (writable_positive h).1,
    hlimit fun x h => (writable_positive h).2⟩

theorem kept_resources_iff (v : Value) : Kept v ((normalizeResources (some v)).map rewritten) ↔ ResourcesPlain v := by
  unfold ResourcesPlain
  cases v with
  | obj raw =>
    have hvalues := fun p hp v hv => (resourceProperties_values raw p hp v hv).1
    have hliteral := @kept_objectOf (resourceProperties raw) raw (resourceProperties_inOrder raw) hvalues
    have hlimits : (∀ p ∈ resourceProperties raw, ∀ v, field raw p.1 = some v → Kept v (p.2.map rewritten)) ↔
        LimitPlain Double.floor (field raw "memoryMb") ∧ LimitPlain id (field raw "cpus") ∧
          LimitPlain Double.floor (field raw "pidsLimit") := by
      simp only [resourceProperties, List.forall_mem_cons, List.not_mem_nil, false_implies, implies_true, and_true]
      rw [kept_limit_iff fun x h => (writable_positive h).2, kept_limit_iff fun x h => (writable_positive h).2]
      exact and_congr_right' (and_congr_left' (@kept_limit_iff _ id fun x h => (writable_positive h).1))
    rw [hlimits] at hliteral
    have hsome : (Unset (.obj raw) ∨ ∃ fields, (Json.obj raw : Value) = .obj fields ∧
        OnlyKeys ["memoryMb", "cpus", "pidsLimit"] fields ∧ LimitPlain Double.floor (field fields "memoryMb") ∧
        LimitPlain id (field fields "cpus") ∧ LimitPlain Double.floor (field fields "pidsLimit")) ↔
        Kept (.obj raw) (some (rewritten (objectOf (resourceProperties raw)))) := by
      constructor
      · rintro (hunset | ⟨fields, hfields, hplain⟩)
        · exact kept_of_unset hunset _
        · obtain rfl := Json.obj.inj hfields
          exact hliteral.mpr hplain
      · intro h
        exact .inr ⟨raw, rfl, hliteral.mp h⟩
    by_cases hany : ((resourceProperties raw).any fun p => p.2.isSome) = true
    · rw [hsome, normalizeResources, if_pos hany]
      rfl
    · -- no limit is taken, and none may be set
      rw [hsome, normalizeResources, if_neg hany]
      have hnone : ∀ p ∈ resourceProperties raw, p.2 = none := by
        intro p hp
        cases hvalue : p.2 with
        | none => rfl
        | some v => exact absurd (List.any_eq_true.mpr ⟨p, hp, by rw [hvalue]; rfl⟩) hany
      rw [kept_objectOf (resourceProperties_inOrder raw) hvalues]
      show Kept (.obj raw) none ↔ _
      rw [kept_none, unset_obj]
      constructor
      · intro h
        refine ⟨fun key v hv => .inr (h key v hv), fun p hp v hv => kept_of_unset (h _ v hv) _⟩
      · rintro ⟨honly, hinside⟩ key v hv
        rcases honly key v hv with hkey | hunset
        · obtain ⟨name, hname, rfl⟩ := List.mem_map.mp hkey
          obtain ⟨p, hp, rfl⟩ := List.mem_map.mp hname
          have hkept := hinside p hp v hv
          rw [hnone p hp] at hkept
          exact kept_none.mp hkept
        · exact hunset
  | _ =>
    show Kept _ none ↔ _
    rw [kept_none]
    exact ⟨.inl, fun h => h.resolve_right fun ⟨fields, hfields, _⟩ => (nomatch hfields)⟩

/-! ### The packages -/

theorem orDefault_cases (v : Option Value) (fallback : Value) :
    ((v = none ∨ v = some .null) ∧ orDefault v fallback = fallback) ∨
      ∃ x, v = some x ∧ x ≠ .null ∧ orDefault v fallback = x := by
  unfold orDefault
  split
  · exact .inl ⟨.inl rfl, rfl⟩
  · exact .inl ⟨.inr rfl, rfl⟩
  · rename_i x hno
    exact .inr ⟨x, rfl, fun h => hno (by rw [h]), rfl⟩

theorem kept_orDefault {v : Value} (ho : v.Ordered) (hwritable : v.writable = true) (fallback : Value) :
    Kept v ((some (orDefault (some v) fallback)).map rewritten) := by
  obtain ⟨hnull, -⟩ | ⟨x, hx, -, hvalue⟩ := orDefault_cases (some v) fallback
  · obtain rfl : v = .null := hnull.elim (fun h => nomatch h) Option.some.inj
    exact kept_null _
  · obtain rfl := Option.some.inj hx
    exact kept_of_eq ho hwritable (by rw [hvalue])

theorem orDefault_values {v : Option Value} {fallback : Value} {P : Value → Prop} (hv : ∀ x, v = some x → P x)
    (hfallback : P fallback) : ∀ x, some (orDefault v fallback) = some x → P x := by
  intro x hx
  obtain rfl := Option.some.inj hx
  obtain ⟨-, hvalue⟩ | ⟨x, hx, -, hvalue⟩ := orDefault_cases v fallback
  · rw [hvalue]
    exact hfallback
  · rw [hvalue]
    exact hv x hx

theorem packagesProperties_inOrder (raw : List (Text × Value)) :
    InOrder ((packagesProperties raw).map fun p => ofString p.1) := by
  show InOrder (["apt", "npm"].map ofString)
  unfold InOrder
  decide

theorem nestedField_values {P : Value → Prop} {raw : List (Text × Value)} {block : String}
    (h : ∀ fields, field raw block = some (.obj fields) → ∀ key v, field fields key = some v → P v) (key : String) :
    ∀ v, nestedField raw block key = some v → P v := by
  intro v hv
  obtain hnone | ⟨fields, hfield, -⟩ := @block_cases raw block
  · rw [nestedField, show isRecord (field raw block) = none from hnone] at hv
    cases hv
  · rw [nestedField, hfield] at hv
    exact h fields hfield key v hv

theorem packagesProperties_values {P : Value → Prop} {raw : List (Text × Value)} (hempty : P (.arr []))
    (h : ∀ fields, field raw "packages" = some (.obj fields) → ∀ key v, field fields key = some v → P v) :
    ∀ p ∈ packagesProperties raw, ∀ v, p.2 = some v → P v :=
  List.forall_mem_cons.mpr ⟨orDefault_values (nestedField_values h "apt") hempty,
    List.forall_mem_singleton.mpr (orDefault_values (nestedField_values h "npm") hempty)⟩

theorem packagesProperties_ordered {raw : List (Text × Value)} (ho : (Json.obj raw : Value).Ordered) :
    ∀ p ∈ packagesProperties raw, ∀ v, p.2 = some v → v.Ordered :=
  packagesProperties_values trivial fun _ hfields _ _ hv => field_ordered (field_ordered ho hfields) hv

theorem packagesProperties_writable {raw : List (Text × Value)} (hwritable : (Json.obj raw : Value).writable = true) :
    ∀ p ∈ packagesProperties raw, ∀ v, p.2 = some v → v.writable = true :=
  packagesProperties_values rfl fun _ hfields _ _ hv => writable_field (writable_field hwritable hfields) hv

theorem kept_packages_iff {raw : List (Text × Value)} (ho : (Json.obj raw : Value).Ordered)
    (hwritable : (Json.obj raw : Value).writable = true) {v : Value} (hv : field raw "packages" = some v) :
    Kept v ((some (objectOf (packagesProperties raw))).map rewritten) ↔ PackagesPlain v := by
  unfold PackagesPlain
  obtain hleaf | rfl | ⟨fields, rfl⟩ := leaf_or v
  · obtain ⟨fields', hfields', -⟩ :=
      rewritten_objectOf (packagesProperties_inOrder raw) (packagesProperties_ordered ho)
    rw [Option.map_some, hfields', kept_leaf hleaf]
    refine iff_of_false ?_ ?_
    · intro h
      obtain rfl := Option.some.inj h
      cases hleaf
    · rintro (hunset | ⟨fields, rfl, -⟩)
      · exact not_unset_leaf hleaf hunset
      · cases hleaf
  · exact iff_of_true (kept_null _) (.inl unset_null)
  · have hinside : ∀ p ∈ packagesProperties raw, ∀ v, field fields p.1 = some v → Kept v (p.2.map rewritten) := by
      have hlist : ∀ key, ∀ v, field fields key = some v →
          Kept v ((some (orDefault (nestedField raw "packages" key) (.arr []))).map rewritten) := by
        intro key v hkey
        have hnested : nestedField raw "packages" key = some v := by
          rw [nestedField, hv]
          exact hkey
        rw [hnested]
        exact kept_orDefault (field_ordered (field_ordered ho hv) hkey) (writable_field (writable_field hwritable hv) hkey) _
      exact List.forall_mem_cons.mpr ⟨hlist "apt", List.forall_mem_singleton.mpr (hlist "npm")⟩
    rw [Option.map_some, kept_objectOf (packagesProperties_inOrder raw) (packagesProperties_ordered ho)]
    constructor
    · rintro ⟨honly, -⟩
      exact .inr ⟨fields, rfl, honly⟩
    · rintro (hunset | ⟨fields', hfields', honly⟩)
      · exact ⟨fun key v hv => .inr (unset_obj.mp hunset key v hv), hinside⟩
      · obtain rfl := Json.obj.inj hfields'
        exact ⟨honly, hinside⟩

/-! ### What is read -/

/-- The names of the keys that the host knows. -/
def configNames : List String := (configProperties [] none).map (·.1)

theorem configNames_eq (raw : List (Text × Value)) (llm : Option Value) :
    (configProperties raw llm).map (fun p => ofString p.1) = configNames.map ofString := rfl

theorem configNames_nodup : (configNames.map ofString).Nodup := by decide

/-- A name the host knows holds what the check gave. -/
theorem get_read {raw : List (Text × Value)} {llm : Option Value} {p : String × Option Value}
    (hp : p ∈ configProperties raw llm) : (assign raw (configProperties raw llm)).get (ofString p.1) = p.2 :=
  get_assign_mem (by rw [configNames_eq]; exact configNames_nodup) hp

/-- A name it does not know holds what the file has. -/
theorem get_read_other {raw : List (Text × Value)} {llm : Option Value} {key : Text}
    (hkey : key ∉ configNames.map ofString) : (assign raw (configProperties raw llm)).get key = raw.lookup key :=
  get_assign_other (by rw [configNames_eq]; exact hkey)

theorem get_packages (raw : List (Text × Value)) (llm : Option Value) :
    (assign raw (configProperties raw llm)).get (ofString "packages") = some (objectOf (packagesProperties raw)) := by
  have hmem : ("packages", some (objectOf (packagesProperties raw))) ∈ configProperties raw llm := by
    unfold configProperties
    exact .tail _ (.tail _ (.head _))
  have hread := get_read hmem
  exact hread

theorem get_mcpServers (raw : List (Text × Value)) (llm : Option Value) :
    (assign raw (configProperties raw llm)).get (ofString "mcpServers") =
      some (orDefault (field raw "mcpServers") (.obj [])) := by
  have hmem : ("mcpServers", some (orDefault (field raw "mcpServers") (.obj []))) ∈ configProperties raw llm := by
    unfold configProperties
    exact .head _
  have hread := get_read hmem
  exact hread

theorem key_cases (raw : List (Text × Value)) (llm : Option Value) (key : Text) :
    (∃ p ∈ configProperties raw llm, key = ofString p.1) ∨ key ∉ configNames.map ofString := by
  by_cases hkey : key ∈ configNames.map ofString
  · rw [← configNames_eq raw llm] at hkey
    obtain ⟨p, hp, rfl⟩ := List.mem_map.mp hkey
    exact .inl ⟨p, hp, rfl⟩
  · exact .inr hkey

theorem form_of {name : String} {form : Value → Prop} (h : (name, form) ∈ plainForms) (v : Value) :
    (∀ q ∈ plainForms, q.1 = name → q.2 v) ↔ form v := by
  have hdistinct : (plainForms.map (·.1)).Nodup := by decide
  constructor
  · intro hall
    exact hall _ h rfl
  · intro hform q hq hname
    have hsame := List.inj_on_of_nodup_map hdistinct hq h hname
    rw [hsame]
    exact hform

theorem no_form {name : String} (h : name ∉ plainForms.map (·.1)) (v : Value) :
    ∀ q ∈ plainForms, q.1 = name → q.2 v := by
  rintro q hq rfl
  exact absurd (List.mem_map_of_mem hq) h

/-- **The settings under a name that are kept.** -/
theorem kept_known {raw : List (Text × Value)} {llm : Option Value} (ho : (Json.obj raw : Value).Ordered)
    (hwritable : (Json.obj raw : Value).writable = true) (hllm : readLlm (field raw "llm") = .ok llm) :
    ∀ p ∈ configProperties raw llm, ∀ v, field raw p.1 = some v →
      (Kept v (p.2.map rewritten) ↔ ∀ q ∈ plainForms, q.1 = p.1 → q.2 v) := by
  have hsame : ∀ name, name ∉ plainForms.map (·.1) → ∀ v, field raw name = some v →
      (Kept v ((field raw name).map rewritten) ↔ ∀ q ∈ plainForms, q.1 = name → q.2 v) := by
    intro name hname v hv
    exact iff_of_true (kept_of_eq (field_ordered ho hv) (writable_field hwritable hv) hv) (no_form hname v)
  have hdefault : ∀ name, name ∉ plainForms.map (·.1) → ∀ fallback v, field raw name = some v →
      (Kept v ((some (orDefault (field raw name) fallback)).map rewritten) ↔ ∀ q ∈ plainForms, q.1 = name → q.2 v) := by
    intro name hname fallback v hv
    rw [hv]
    exact iff_of_true (kept_orDefault (field_ordered ho hv) (writable_field hwritable hv) fallback) (no_form hname v)
  have hcheck : ∀ name (form : Value → Prop) (w : Option Value → Option Value), (name, form) ∈ plainForms →
      (∀ v, field raw name = some v → (Kept v ((w (some v)).map rewritten) ↔ form v)) →
      ∀ v, field raw name = some v →
        (Kept v ((w (field raw name)).map rewritten) ↔ ∀ q ∈ plainForms, q.1 = name → q.2 v) := by
    intro name form w hform hkept v hv
    rw [form_of hform, hv]
    exact hkept v hv
  simp only [configProperties, List.forall_mem_cons, List.not_mem_nil, false_implies, implies_true, and_true]
  have hform : ∀ (i : ℕ) (hi : i < plainForms.length), plainForms.get ⟨i, hi⟩ ∈ plainForms := fun i hi =>
    List.getElem_mem hi
  refine ⟨hdefault "mcpServers" (by decide) _, hsame "backendGateway" (by decide), ?_, hsame "imageTag" (by decide),
    hdefault "additionalMounts" (by decide) _,
    hcheck "skills" SkillsPlain (fun v => some (normalizeSkills v)) (hform 1 (by decide)) ?_,
    hsame "provider" (by decide), ?_, hsame "groupName" (by decide), hsame "assistantName" (by decide),
    hcheck "memoryMode" _ normalizeMemoryMode (hform 3 (by decide)) fun v _ => kept_text_iff _ v,
    hcheck "a2aSessionMode" _ normalizeA2aSessionMode (hform 4 (by decide)) fun v _ => kept_text_iff _ v,
    hcheck "ociRuntime" _ normalizeOciRuntime (hform 5 (by decide)) fun v _ => kept_ociRuntime_iff v,
    hsame "agentGroupId" (by decide), hsame "maxMessagesPerPrompt" (by decide),
    hcheck "resources" _ normalizeResources (hform 6 (by decide)) fun v _ => kept_resources_iff v,
    hcheck "network" _ normalizeNetwork (hform 7 (by decide)) fun v _ => kept_network_iff v,
    hsame "env" (by decide),
    hcheck "progressiveDisclosure" _ (fun v => some (progressiveDisclosure v)) (hform 8 (by decide)) fun v _ =>
      kept_disclosure_iff v⟩
  · intro v hv
    rw [@form_of "packages" PackagesPlain (hform 0 (by decide))]
    exact kept_packages_iff ho hwritable hv
  · intro v hv
    exact kept_skills_iff (field_ordered ho hv) (writable_field hwritable hv)
  · intro v hv
    rw [hv] at hllm
    rw [@form_of "llm" LlmPlain (hform 2 (by decide))]
    exact kept_readLlm_iff (field_ordered ho hv) (writable_field hwritable hv) hllm

/-- **The settings under a key that are kept.** -/
theorem kept_key_iff {raw : List (Text × Value)} {llm : Option Value} (ho : (Json.obj raw : Value).Ordered)
    (hwritable : (Json.obj raw : Value).writable = true) (hllm : readLlm (field raw "llm") = .ok llm) {key : Text}
    {v : Value} (hv : raw.lookup key = some v) :
    Kept v (((assign raw (configProperties raw llm)).get key).map rewritten) ↔
      ∀ q ∈ plainForms, ofString q.1 = key → q.2 v := by
  obtain ⟨p, hp, rfl⟩ | hkey := key_cases raw llm key
  · rw [get_read hp, kept_known ho hwritable hllm p hp v hv]
    refine forall_congr' fun q => imp_congr_right fun _ => ?_
    exact ⟨fun h hname => h (ofString_inj hname), fun h hname => h (by rw [hname])⟩
  · rw [get_read_other hkey, hv]
    refine iff_of_true ((kept_rewritten_iff (lookup_ordered ho hv)).mpr (writable_field hwritable hv)) ?_
    rintro q hq rfl
    have hsub : plainForms.map (·.1) ⊆ configNames := by decide
    exact absurd (List.mem_map_of_mem (hsub (List.mem_map_of_mem hq))) hkey

/-! ### Reading again -/

theorem oneOfTexts_again (names : List String) (v : Option Value) :
    oneOfTexts names (oneOfTexts names v) = oneOfTexts names v := by
  cases hvalue : oneOfTexts names v with
  | none => rfl
  | some w => exact oneOfTexts_eq_some.mpr ⟨rfl, (oneOfTexts_eq_some.mp hvalue).2⟩

theorem normalizeOciRuntime_again (v : Option Value) :
    normalizeOciRuntime (normalizeOciRuntime v) = normalizeOciRuntime v := by
  cases hvalue : normalizeOciRuntime v with
  | none => rfl
  | some w =>
    obtain ⟨t, -, rfl, hname⟩ := normalizeOciRuntime_eq_some.mp hvalue
    refine normalizeOciRuntime_eq_some.mpr ⟨trimText t, rfl, ?_, ?_⟩
    · rw [trimText_trimText]
    · rw [trimText_trimText]
      exact hname

theorem normalizeNetwork_again (v : Option Value) : normalizeNetwork (normalizeNetwork v) = normalizeNetwork v := by
  cases hvalue : normalizeNetwork v with
  | none => rfl
  | some w =>
    obtain ⟨t, -, rfl, hne⟩ := normalizeNetwork_eq_some.mp hvalue
    refine normalizeNetwork_eq_some.mpr ⟨trimText t, rfl, ?_, ?_⟩
    · rw [trimText_trimText]
    · rw [trimText_trimText]
      exact hne

theorem normalizeSkills_again (v : Option Value) : normalizeSkills (some (normalizeSkills v)) = normalizeSkills v := by
  obtain ⟨l, -, hskills⟩ | ⟨-, hskills⟩ := normalizeSkills_cases v
  · rw [hskills]
    show Json.arr ((l.filter validSkill).filter validSkill) = _
    rw [List.filter_filter]
    simp
  · rw [hskills]
    rfl

theorem progressiveDisclosure_again (v : Option Value) :
    progressiveDisclosure (some (progressiveDisclosure v)) = progressiveDisclosure v := by
  obtain ⟨-, hvalue⟩ | ⟨-, hvalue⟩ := progressiveDisclosure_cases v
  · rw [hvalue]
    obtain ⟨-, hlean⟩ | ⟨hlean, -⟩ := progressiveDisclosure_cases (some (.str (ofString "lean")))
    · exact hlean
    · exact absurd rfl hlean
  · rw [hvalue]
    cases isTrue v <;> rfl

theorem orDefault_again (v : Option Value) {fallback : Value} (hne : fallback ≠ .null) :
    orDefault (some (orDefault v fallback)) fallback = orDefault v fallback := by
  have hnull : orDefault v fallback ≠ .null := by
    obtain ⟨-, hvalue⟩ | ⟨x, -, hx, hvalue⟩ := orDefault_cases v fallback
    · rw [hvalue]
      exact hne
    · rw [hvalue]
      exact hx
  obtain ⟨h, -⟩ | ⟨x, hx, -, hvalue⟩ := orDefault_cases (some (orDefault v fallback)) fallback
  · exact absurd (h.elim (fun h => nomatch h) Option.some.inj) hnull
  · rw [hvalue]
    exact (Option.some.inj hx).symm

theorem limit_again {limit : Option Value} {round : Double → Double} (hplain : LimitPlain round limit) :
    (positiveNumber ((positiveNumber limit).map fun x => .num (round x))).map (fun x => (.num (round x) : Value)) =
      (positiveNumber limit).map fun x => .num (round x) := by
  cases hvalue : positiveNumber limit with
  | none => rfl
  | some x =>
    obtain ⟨rfl, hpos⟩ := positiveNumber_eq_some.mp hvalue
    rcases hplain _ rfl with hunset | ⟨y, hy, -, hsame⟩
    · exact absurd hunset (not_unset_leaf rfl)
    · obtain rfl := Json.num.inj hy
      have hagain : positiveNumber (some (.num x)) = some x := positiveNumber_eq_some.mpr ⟨rfl, hpos⟩
      rw [Option.map_some, hsame, hagain, Option.map_some, hsame]

theorem limits_of_unset {raw : List (Text × Value)} (h : Unset (.obj raw)) (round : Double → Double) (key : String) :
    LimitPlain round (field raw key) := fun v hv => .inl (unset_obj.mp h _ v hv)

theorem normalizeResources_again {v : Option Value} (hplain : ∀ x, v = some x → ResourcesPlain x) :
    normalizeResources (normalizeResources v) = normalizeResources v := by
  cases v with
  | none => rfl
  | some v =>
    cases v with
    | obj raw =>
      have hlimits : LimitPlain Double.floor (field raw "memoryMb") ∧ LimitPlain id (field raw "cpus") ∧
          LimitPlain Double.floor (field raw "pidsLimit") := by
        rcases hplain _ rfl with hunset | ⟨fields, hfields, -, hlimits⟩
        · exact ⟨limits_of_unset hunset _ _, limits_of_unset hunset _ _, limits_of_unset hunset _ _⟩
        · obtain rfl := Json.obj.inj hfields
          exact hlimits
      by_cases hany : ((resourceProperties raw).any fun p => p.2.isSome) = true
      · have hvalue : normalizeResources (some (.obj raw)) = some (objectOf (resourceProperties raw)) := by
          rw [normalizeResources, if_pos hany]
        obtain ⟨fields, hfields, hfield⟩ := field_objectOf (resourceProperties_inOrder raw)
        have hsame : resourceProperties fields = resourceProperties raw := by
          simp only [resourceProperties, List.forall_mem_cons, List.not_mem_nil, false_implies, implies_true, and_true]
            at hfield
          unfold resourceProperties
          rw [hfield.1, hfield.2.1, hfield.2.2, limit_again hlimits.1, limit_again hlimits.2.2]
          have hcpus := limit_again hlimits.2.1
          simp only [id] at hcpus
          rw [hcpus]
        rw [hvalue, hfields, normalizeResources, hsame, if_pos hany, hfields]
      · have hvalue : normalizeResources (some (.obj raw)) = none := by
          rw [normalizeResources, if_neg hany]
        rw [hvalue]
        rfl
    | _ => rfl

/-- A plain file, read, written and read, gives the properties it gave. -/
theorem configProperties_again {raw fields : List (Text × Value)} {llm : Option Value}
    (hresources : ∀ x, field raw "resources" = some x → ResourcesPlain x)
    (hfields : ∀ p ∈ configProperties raw llm, field fields p.1 = p.2) :
    configProperties fields llm = configProperties raw llm := by
  simp only [configProperties, List.forall_mem_cons, List.not_mem_nil, false_implies, implies_true, and_true] at hfields
  obtain ⟨hservers, hgateway, hpackages, himage, hmounts, hskills, hprovider, -, hgroup, hassistant, hmemory, hsession,
    hruntime, hagent, hmessages, hlimits, hnetwork, henv, hdisclosure⟩ := hfields
  obtain ⟨inner, hinner, hinnerField⟩ := field_objectOf (packagesProperties_inOrder raw)
  simp only [packagesProperties, List.forall_mem_cons, List.not_mem_nil, false_implies, implies_true, and_true]
    at hinnerField
  have hlistNull : (.arr [] : Value) ≠ .null := nofun
  have hobjectNull : (.obj [] : Value) ≠ .null := nofun
  have hlist : ∀ {key : String}, field inner key = some (orDefault (nestedField raw "packages" key) (.arr [])) →
      orDefault (nestedField fields "packages" key) (.arr []) = orDefault (nestedField raw "packages" key) (.arr []) := by
    intro key hkey
    have hnested : nestedField fields "packages" key = some (orDefault (nestedField raw "packages" key) (.arr [])) := by
      rw [nestedField, hpackages, hinner]
      exact hkey
    rw [hnested, orDefault_again _ hlistNull]
  have hpackagesAgain : packagesProperties fields = packagesProperties raw := by
    unfold packagesProperties
    rw [hlist hinnerField.1, hlist hinnerField.2]
  unfold configProperties
  rw [hservers, hgateway, hpackagesAgain, himage, hmounts, hskills, hprovider, hgroup, hassistant, hmemory, hsession,
    hruntime, hagent, hmessages, hlimits, hnetwork, henv, hdisclosure, orDefault_again _ hlistNull,
    orDefault_again _ hobjectNull, normalizeSkills_again, normalizeOciRuntime_again, normalizeNetwork_again,
    progressiveDisclosure_again, normalizeResources_again hresources]
  simp only [normalizeMemoryMode, normalizeA2aSessionMode, oneOfTexts_again]

theorem configProperties_values {P : Value → Prop} {raw : List (Text × Value)} {llm : Option Value}
    (hstr : ∀ t, P (.str t)) (hbool : ∀ b, P (.bool b)) (hempty : P (.obj []) ∧ P (.arr []))
    (hfield : ∀ key v, field raw key = some v → P v) (hpackages : P (objectOf (packagesProperties raw)))
    (hskills : ∀ l, P (.arr l) → P (.arr (l.filter validSkill))) (hllm : ∀ v, llm = some v → P v)
    (hresources : ∀ fields, P (objectOf (resourceProperties fields))) :
    ∀ p ∈ configProperties raw llm, ∀ v, p.2 = some v → P v := by
  have hsome : ∀ {x : Value}, P x → ∀ v, some x = some v → P v := by
    intro x hx v hv
    obtain rfl := Option.some.inj hv
    exact hx
  have htext : ∀ {names : List String} {w : Option Value} v, oneOfTexts names w = some v → P v := by
    intro names w v hv
    obtain ⟨-, t, rfl, -⟩ := oneOfTexts_eq_some.mp hv
    exact hstr t
  have hskillsValue : P (normalizeSkills (field raw "skills")) := by
    obtain ⟨l, hl, hvalue⟩ | ⟨-, hvalue⟩ := normalizeSkills_cases (field raw "skills")
    · rw [hvalue]
      exact hskills l (hfield "skills" _ hl)
    · rw [hvalue]
      exact hstr _
  have hdisclosure : P (progressiveDisclosure (field raw "progressiveDisclosure")) := by
    obtain ⟨-, hvalue⟩ | ⟨-, hvalue⟩ := progressiveDisclosure_cases (field raw "progressiveDisclosure")
    · rw [hvalue]
      exact hstr _
    · rw [hvalue]
      exact hbool _
  simp only [configProperties, List.forall_mem_cons, List.not_mem_nil, false_implies, implies_true, and_true]
  refine ⟨orDefault_values (hfield "mcpServers") hempty.1, hfield "backendGateway", hsome hpackages, hfield "imageTag",
    orDefault_values (hfield "additionalMounts") hempty.2, hsome hskillsValue, hfield "provider", hllm, hfield "groupName",
    hfield "assistantName", fun v => htext v, fun v => htext v, ?_, hfield "agentGroupId", hfield "maxMessagesPerPrompt",
    ?_, ?_, hfield "env", hsome hdisclosure⟩
  · intro v hv
    obtain ⟨t, -, rfl, -⟩ := normalizeOciRuntime_eq_some.mp hv
    exact hstr _
  · intro v hv
    unfold normalizeResources at hv
    split at hv
    · split at hv
      · obtain rfl := Option.some.inj hv
        exact hresources _
      · cases hv
    · cases hv
  · intro v hv
    obtain ⟨t, -, rfl, -⟩ := normalizeNetwork_eq_some.mp hv
    exact hstr _

theorem configProperties_ordered {raw : List (Text × Value)} {llm : Option Value} (ho : (Json.obj raw : Value).Ordered)
    (hllm : readLlm (field raw "llm") = .ok llm) : ∀ p ∈ configProperties raw llm, ∀ v, p.2 = some v → v.Ordered :=
  configProperties_values (fun _ => trivial) (fun _ => trivial) ⟨⟨List.Pairwise.nil, trivial⟩, trivial⟩
    (fun _ _ hv => field_ordered ho hv)
    (ordered_objectOf (packagesProperties_inOrder raw) (packagesProperties_ordered ho))
    (fun l hl => allNamesList_filter validSkill l hl) (readLlm_ordered (fun _ hv => field_ordered ho hv) hllm)
    (fun fields => ordered_objectOf (resourceProperties_inOrder fields) fun p hp v hv =>
      (resourceProperties_values fields p hp v hv).1)

theorem configProperties_writable {raw : List (Text × Value)} {llm : Option Value}
    (hwritable : (Json.obj raw : Value).writable = true) (hllm : ∀ v, llm = some v → v.writable = true) :
    ∀ p ∈ configProperties raw llm, ∀ v, p.2 = some v → v.writable = true :=
  configProperties_values (fun _ => rfl) (fun _ => rfl) ⟨rfl, rfl⟩ (fun _ _ hv => writable_field hwritable hv)
    (writable_objectOf (packagesProperties_writable hwritable))
    (fun l hl => allNumbersList_filter validSkill l hl) hllm
    (fun fields => writable_objectOf fun p hp v hv => (resourceProperties_values fields p hp v hv).2)

end AgentDesk
