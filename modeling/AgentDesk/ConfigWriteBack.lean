/-
# Writing the container config back

Packages are appended and MCP servers are set by a change to the config as it was read, and all of it is
written back. The change is meant to touch only what it is about.

It does so when every setting of the file already has the form in which the host writes it, and then the file
that is written is read as before. Otherwise a setting is lost or changed on the way, although the change is
about another one: an operator loses a routing block that is disabled when an execution block stands next to
it.

* `write_back_iff`: **when a change keeps the other settings**, and reading, writing and reading again is
  reading once.
* `dormant_routing_lost`: a file that loses its routing block.
-/
import AgentDesk.ContainerConfig

namespace AgentDesk

open JsonText Js Binary64

/-! ### What is promised -/

/-- What a file has at a path. -/
def settingAt (text : Text) (path : List Text) : Option Value := (parse text).bind (valueAt path)

/-- Every setting that the change is not about has the value it had. -/
def KeepsOthers (m : Mutation) (text text' : Text) : Prop :=
  ∀ path u, settingAt text path = some u → isSetting u = true → ¬ m.About path → settingAt text' path = some u

/-- What was read and written is read as before. -/
def ReadsSame (path : String) (text : Text) : Prop :=
  ∀ config, readContainerConfig path (some text) = .ok config →
    ∃ config', readContainerConfig path (some (writeContainerConfig config)) = .ok config' ∧
      ∀ key, config'.get key = config.get key

/-! ### What a change leaves -/

/-- The key that the change is about. -/
def Mutation.key : Mutation → String
  | .appendPackages _ _ => "packages"
  | .setMcpServer _ _ => "mcpServers"

theorem pushAll_eq_ok {list : Option Value} {items : List Text} {w : Value} (h : pushAll list items = .ok w) :
    ∃ l, list = some (.arr l) ∧ w = .arr (l ++ items.map fun t => .str t) := by
  unfold pushAll at h
  split at h
  · rename_i l
    exact ⟨l, rfl, (Except.ok.inj h).symm⟩
  · cases h

/-- **The packages that are appended**: two lists of the packages change, and nothing else. -/
theorem appendPackages_eq_ok {apt npm : List Text} {config config' : Properties} (ho : config.Ordered)
    (hvalues : ∀ v, config.get (ofString "packages") = some v → v.Ordered)
    (h : appendPackages apt npm config = .ok config') :
    config'.Ordered ∧ (∀ key, key ≠ ofString "packages" → config'.get key = config.get key) ∧
      ∃ packages packages', config.get (ofString "packages") = some (.obj packages) ∧
        config'.get (ofString "packages") = some (.obj packages') ∧ (Json.obj packages' : Value).Ordered ∧
        (∀ key, key ∉ ["apt", "npm"].map ofString → packages'.lookup key = packages.lookup key) ∧
        ∀ p ∈ [("apt", apt), ("npm", npm)], ∃ l, field packages p.1 = some (.arr l) ∧
          field packages' p.1 = some (.arr (l ++ p.2.map fun t => .str t)) := by
  unfold appendPackages at h
  split at h
  · rename_i packages hpackages
    obtain ⟨aptList, hapt, hrest⟩ := bind_eq_ok.mp h
    obtain ⟨npmList, hnpm, hresult⟩ := bind_eq_ok.mp hrest
    obtain rfl := Except.ok.inj hresult
    obtain ⟨l, hl, rfl⟩ := pushAll_eq_ok hapt
    obtain ⟨m, hm, rfl⟩ := pushAll_eq_ok hnpm
    have hinner : (Json.obj packages : Value).Ordered := hvalues _ hpackages
    have hpushed : ∀ {key : String} {l : List Value} {items : List Text}, field packages key = some (.arr l) →
        (Json.arr (l ++ items.map fun t => .str t) : Value).Ordered := by
      intro key l items hl
      refine allNamesList_append (field_ordered hinner hl) (allNamesList_of fun v hv => ?_)
      obtain ⟨t, -, rfl⟩ := List.mem_map.mp hv
      exact trivial
    have hordered := ordered_insertField (ordered_insertField hinner (ofString "apt") (@hpushed _ l apt hl))
      (ofString "npm") (@hpushed _ m npm hm)
    have hdistinct : ofString "apt" ≠ ofString "npm" := by decide
    refine ⟨ordered_set ho fun v hv => Option.some.inj hv ▸ hordered, fun key hkey => ?_, packages, _, hpackages, ?_,
      hordered, fun key hkey => ?_, List.forall_mem_cons.mpr ⟨⟨l, hl, ?_⟩, List.forall_mem_singleton.mpr ⟨m, hm, ?_⟩⟩⟩
    · rw [get_set, if_neg hkey]
    · rw [get_set, if_pos rfl]
    · have hapt : key ≠ ofString "apt" := fun he => hkey (he ▸ by decide)
      have hnpm : key ≠ ofString "npm" := fun he => hkey (he ▸ by decide)
      rw [lookup_insertField, if_neg hnpm, lookup_insertField, if_neg hapt]
    · rw [field, lookup_insertField, if_neg hdistinct, lookup_insertField, if_pos rfl]
    · rw [field, lookup_insertField, if_pos rfl]
  · cases h

theorem mem_setElement {l : List Value} {i : ℕ} {v w : Value} (h : w ∈ setElement l i v) : w ∈ l ∨ w = .null ∨ w = v := by
  unfold setElement at h
  split at h
  · rcases List.mem_or_eq_of_mem_set h with h | h
    · exact .inl h
    · exact .inr (.inr h)
  · rcases List.mem_append.mp h with h | h
    · rcases List.mem_append.mp h with h | h
      · exact .inl h
      · exact .inr (.inl (List.eq_of_mem_replicate h))
    · exact .inr (.inr (List.mem_singleton.mp h))

theorem setMember_obj {fields : List (Text × Value)} {name : Text} {v w : Value}
    (h : setMember (.obj fields) name v = .ok w) :
    (name = ofString "__proto__" ∧ w = .obj fields) ∨ w = .obj (insertField fields name v) := by
  rw [setMember] at h
  split at h
  · rename_i hproto
    exact .inl ⟨hproto.1, (Except.ok.inj h).symm⟩
  · exact .inr (Except.ok.inj h).symm

theorem setMember_ordered {container : Value} {name : Text} {v w : Value} (hcontainer : container.Ordered)
    (hv : v.Ordered) (h : setMember container name v = .ok w) : w.Ordered := by
  cases container with
  | obj fields =>
    obtain ⟨-, rfl⟩ | rfl := setMember_obj h
    · exact hcontainer
    · exact ordered_insertField hcontainer name hv
  | arr l =>
    rw [setMember] at h
    split at h
    · rename_i i _
      obtain rfl := Except.ok.inj h
      refine allNamesList_of fun x hx => ?_
      rcases mem_setElement hx with hmem | rfl | rfl
      · exact allNamesList_mem hcontainer hmem
      · exact trivial
      · exact hv
    · split at h
      · cases h
      · obtain rfl := Except.ok.inj h
        exact hcontainer
  | _ => cases h

/-- **The MCP server that is set**: where the servers are an object, the others stay. -/
theorem setMcpServer_eq_ok {name : Text} {entry : JsonObject} {config config' : Properties} (ho : config.Ordered)
    (hvalues : ∀ v, config.get (ofString "mcpServers") = some v → v.Ordered)
    (h : setMcpServer name entry config = .ok config') :
    config'.Ordered ∧ (∀ key, key ≠ ofString "mcpServers" → config'.get key = config.get key) ∧
      ∀ servers, config.get (ofString "mcpServers") = some (.obj servers) →
        ∃ servers', config'.get (ofString "mcpServers") = some (.obj servers') ∧ (Json.obj servers' : Value).Ordered ∧
          (∀ key, key ≠ name → servers'.lookup key = servers.lookup key) ∧
          (name ≠ ofString "__proto__" → servers'.lookup name = some (.obj entry.fields)) := by
  unfold setMcpServer at h
  split at h
  · rename_i servers hservers
    obtain ⟨servers', hset, rfl⟩ := map_eq_ok.mp h
    have hordered := setMember_ordered (hvalues _ hservers) entry.ordered hset
    refine ⟨ordered_set ho fun v hv => Option.some.inj hv ▸ hordered, fun key hkey => ?_, fun fields hfields => ?_⟩
    · rw [get_set, if_neg hkey]
    · obtain rfl := Option.some.inj (hservers.symm.trans hfields)
      rw [get_set, if_pos rfl]
      obtain ⟨hproto, rfl⟩ | rfl := setMember_obj hset
      · exact ⟨fields, rfl, hordered, fun key _ => rfl, fun hname => absurd hproto hname⟩
      · refine ⟨_, rfl, hordered, fun key hkey => ?_, fun _ => ?_⟩
        · rw [lookup_insertField, if_neg hkey]
        · rw [lookup_insertField, if_pos rfl]
  · cases h

/-! ### One change -/

theorem apply_eq_ok {m : Mutation} {config config' : Properties} (ho : config.Ordered)
    (h : m.apply config = .ok config') :
    config'.Ordered ∧ ∀ key, key ≠ ofString m.key → config'.get key = config.get key := by
  cases m with
  | appendPackages apt npm =>
    obtain ⟨ho', hother, -⟩ := appendPackages_eq_ok ho (fun v hv => get_ordered ho hv) h
    exact ⟨ho', hother⟩
  | setMcpServer name entry =>
    obtain ⟨ho', hother, -⟩ := setMcpServer_eq_ok ho (fun v hv => get_ordered ho hv) h
    exact ⟨ho', hother⟩

/-- A change to a file, step by step: what is in it, what is read, changed and written. -/
structure Change (m : Mutation) (text text' : Text) (raw : List (Text × Value)) (llm : Option Value)
    (config' : Properties) (fields' : List (Text × Value)) : Prop where
  parsed : parse text = some (.obj raw)
  ordered : (Json.obj raw : Value).Ordered
  read : readLlm (field raw "llm") = .ok llm
  applied : m.apply (assign raw (configProperties raw llm)) = .ok config'
  changed : config'.Ordered
  written : parse text' = some (.obj fields')
  lookup : ∀ key, fields'.lookup key = (config'.get key).map rewritten

theorem space_newline : ∀ c ∈ [0x0a], JsonText.isSpace c = true :=
  List.forall_mem_singleton.mpr (by decide)

/-- The file that is written has the properties of the config. -/
theorem parse_config {config : Properties} (ho : config.Ordered) :
    ∃ fields, parse (writeContainerConfig config) = some (.obj fields) ∧
      ∀ key, fields.lookup key = (config.get key).map rewritten := by
  unfold writeContainerConfig
  exact parse_written ho space_newline

theorem readContainerConfig_eq_ok {path : String} {text : Text} {config : Properties} :
    readContainerConfig path (some text) = .ok config ↔
      ∃ raw llm, parse text = some (.obj raw) ∧ readLlm (field raw "llm") = .ok llm ∧
        assign raw (configProperties raw llm) = config := by
  unfold readContainerConfig
  dsimp only
  generalize parse text = parsed
  constructor
  · intro h
    split at h
    · rename_i raw
      obtain ⟨llm, hllm, rfl⟩ := map_eq_ok.mp h
      exact ⟨raw, llm, rfl, hllm, rfl⟩
    · cases h
  · rintro ⟨raw, llm, rfl, hllm, rfl⟩
    exact map_eq_ok.mpr ⟨llm, hllm, rfl⟩

theorem config_ordered {raw : List (Text × Value)} {llm : Option Value} (ho : (Json.obj raw : Value).Ordered)
    (hllm : readLlm (field raw "llm") = .ok llm) : (assign raw (configProperties raw llm)).Ordered :=
  ordered_assign ho (configProperties_ordered ho hllm)

theorem change_of_update {path : String} {text text' : Text} {m : Mutation}
    (h : updateContainerConfig path (some text) m.apply = .ok text') :
    ∃ raw llm config' fields', Change m text text' raw llm config' fields' := by
  obtain ⟨config, hread, hmap⟩ := bind_eq_ok.mp h
  obtain ⟨config', happly, rfl⟩ := map_eq_ok.mp hmap
  obtain ⟨raw, llm, hparse, hllm, rfl⟩ := readContainerConfig_eq_ok.mp hread
  have ho := parse_ordered hparse
  obtain ⟨ho', -⟩ := apply_eq_ok (config_ordered ho hllm) happly
  obtain ⟨fields', hwritten, hlookup⟩ := parse_config ho'
  exact ⟨raw, llm, config', fields', hparse, ho, hllm, happly, ho', hwritten, hlookup⟩

theorem settingAt_cons {text : Text} {fields : List (Text × Value)} (h : parse text = some (.obj fields)) (key : Text)
    (path : List Text) : settingAt text (key :: path) = (fields.lookup key).bind (valueAt path) := by
  rw [settingAt, h]
  rfl

/-- The change is about one key. -/
theorem about_key {m : Mutation} {key : Text} {path : List Text} (h : m.About (key :: path)) : key = ofString m.key := by
  cases m with
  | appendPackages apt npm => exact h.elim (fun h => (List.cons_prefix_cons.mp h).1.symm) fun h =>
      (List.cons_prefix_cons.mp h).1.symm
  | setMcpServer name entry => exact h.elim (fun h => (List.cons_prefix_cons.mp h).1.symm) fun h =>
      (List.cons.inj h).1

section

variable {m : Mutation} {text text' : Text} {raw : List (Text × Value)} {llm : Option Value} {config' : Properties}
  {fields' : List (Text × Value)}

/-- Another key holds what was read, written and parsed. -/
theorem Change.other (hc : Change m text text' raw llm config' fields') {key : Text} (hkey : key ≠ ofString m.key) :
    fields'.lookup key = ((assign raw (configProperties raw llm)).get key).map rewritten := by
  rw [hc.lookup, (apply_eq_ok (config_ordered hc.ordered hc.read) hc.applied).2 key hkey]

/-- **What another key keeps.** -/
theorem Change.kept_other (hc : Change m text text' raw llm config' fields') (hkeeps : KeepsOthers m text text')
    {key : Text} (hkey : key ≠ ofString m.key) {v : Value} (hv : raw.lookup key = some v) :
    Kept v (((assign raw (configProperties raw llm)).get key).map rewritten) := by
  intro path u hu hset
  have hat : settingAt text (key :: path) = some u := by
    rw [settingAt_cons hc.parsed, hv]
    exact hu
  have hafter := hkeeps (key :: path) u hat hset fun habout => hkey (about_key habout)
  rw [settingAt_cons hc.written, hc.other hkey] at hafter
  exact hafter

theorem Change.packages_plain {apt npm : List Text}
    (hc : Change (.appendPackages apt npm) text text' raw llm config' fields')
    (hkeeps : KeepsOthers (.appendPackages apt npm) text text') {v : Value} (hv : field raw "packages" = some v) :
    PackagesPlain v := by
  have hconfig := config_ordered hc.ordered hc.read
  have happlied := hc.applied
  rw [Mutation.apply] at happlied
  obtain ⟨-, -, packages, packages', hpackages, hpackages', ho', hsame, -⟩ :=
    appendPackages_eq_ok hconfig (fun v hv => get_ordered hconfig hv) happlied
  obtain ⟨inner, hinner, hinnerLookup⟩ := lookup_rewritten ho'
  have hafter : fields'.lookup (ofString "packages") = some (.obj inner) := by
    rw [hc.lookup, hpackages', Option.map_some, hinner]
  have hliteral : packages = definedFields ((packagesProperties raw).map fun p => (ofString p.1, p.2)) := by
    rw [get_packages] at hpackages
    exact (Json.obj.inj (Option.some.inj hpackages)).symm
  have hnone : ∀ key, key ∉ ["apt", "npm"].map ofString → inner.lookup key = none := by
    intro key hkey
    have hlookup : packages.lookup key = none := by
      have hnames : ((packagesProperties raw).map fun p => (ofString p.1, p.2)).map (·.1) =
          ["apt", "npm"].map ofString := by
        simp only [packagesProperties, List.map_cons, List.map_nil]
      rw [hliteral]
      exact lookup_of_notMem fun hmem => hkey (hnames ▸ (definedFields_names _).subset hmem)
    rw [hinnerLookup, hsame key hkey, hlookup]
    rfl
  -- no other setting may stand there, at the root or under another key
  have hlost : ∀ path u, valueAt path v = some u → isSetting u = true →
      ¬ (Mutation.appendPackages apt npm).About (ofString "packages" :: path) → valueAt path (.obj inner) = some u := by
    intro path u hu hset habout
    have hat : settingAt text (ofString "packages" :: path) = some u := by
      rw [settingAt_cons hc.parsed, show raw.lookup (ofString "packages") = some v from hv]
      exact hu
    have hkept := hkeeps _ u hat hset habout
    rwa [settingAt_cons hc.written, hafter] at hkept
  have hroot : ¬ (Mutation.appendPackages apt npm).About [ofString "packages"] := by
    rintro (h | h)
    · exact absurd (List.cons_prefix_cons.mp h).2.length_le (by decide)
    · exact absurd (List.cons_prefix_cons.mp h).2.length_le (by decide)
  obtain hleaf | rfl | ⟨fields, rfl⟩ := leaf_or v
  · obtain rfl := Option.some.inj (hlost [] v rfl hleaf hroot)
    cases hleaf
  · exact .inl unset_null
  · refine .inr ⟨fields, rfl, fun key u hu => ?_⟩
    by_cases hkey : key ∈ ["apt", "npm"].map ofString
    · exact .inl hkey
    · refine .inr fun path w hw => ?_
      by_contra hset
      have habout : ¬ (Mutation.appendPackages apt npm).About (ofString "packages" :: key :: path) := by
        rintro (h | h)
        · obtain ⟨-, hrest⟩ := List.cons_prefix_cons.mp h
          exact hkey ((List.cons_prefix_cons.mp hrest).1 ▸ by decide)
        · obtain ⟨-, hrest⟩ := List.cons_prefix_cons.mp h
          exact hkey ((List.cons_prefix_cons.mp hrest).1 ▸ by decide)
      have hat : valueAt (key :: path) (.obj fields) = some w := by
        show (fields.lookup key).bind (valueAt path) = some w
        rw [hu]
        exact hw
      have hkept := hlost (key :: path) w hat (by simpa using hset) habout
      rw [show valueAt (key :: path) (.obj inner) = (inner.lookup key).bind (valueAt path) from rfl, hnone key hkey]
        at hkept
      cases hkept

end

/-! ### Reading again -/

theorem writable_of_same {s fallback : Value} (ho : s.Ordered) (hfallback : rewritten fallback ≠ .null)
    (h : orDefault (some (rewritten s)) fallback = s) : s.writable = true := by
  obtain ⟨hnull, hvalue⟩ | ⟨x, hx, -, hvalue⟩ := orDefault_cases (some (rewritten s)) fallback
  · have hlost : rewritten s = .null := hnull.elim (fun h => nomatch h) Option.some.inj
    have hsame : fallback = s := hvalue.symm.trans h
    rw [← hsame] at hlost
    exact absurd hlost hfallback
  · have hsame : rewritten s = s := by
      rw [Option.some.inj hx, ← hvalue]
      exact h
    exact (rewritten_eq_iff ho).mp hsame

theorem writable_of_orDefault {x fallback : Value} (h : (orDefault (some x) fallback).writable = true) :
    x.writable = true := by
  obtain ⟨hnull, -⟩ | ⟨y, hy, -, hvalue⟩ := orDefault_cases (some x) fallback
  · rw [hnull.elim (fun h => nomatch h) Option.some.inj]
    rfl
  · rw [Option.some.inj hy, ← hvalue]
    exact h

section

variable {path : String} {text : Text} {raw : List (Text × Value)} {llm : Option Value}

/-- What is read again, of a file that reads the same. -/
theorem ReadsSame.read (h : ReadsSame path text) (hparse : parse text = some (.obj raw))
    (hllm : readLlm (field raw "llm") = .ok llm) :
    ∃ fields llm', (∀ key, fields.lookup key = ((assign raw (configProperties raw llm)).get key).map rewritten) ∧
      ∀ key, (assign fields (configProperties fields llm')).get key =
        (assign raw (configProperties raw llm)).get key := by
  obtain ⟨config', hread, hsame⟩ := h _ (readContainerConfig_eq_ok.mpr ⟨raw, llm, hparse, hllm, rfl⟩)
  obtain ⟨fields, llm', hwritten, -, rfl⟩ := readContainerConfig_eq_ok.mp hread
  obtain ⟨fields', hwritten', hlookup⟩ := parse_config (config_ordered (parse_ordered hparse) hllm)
  obtain rfl := Json.obj.inj (Option.some.inj (hwritten.symm.trans hwritten'))
  exact ⟨fields, llm', hlookup, hsame⟩

/-- The MCP servers, where the file reads the same. -/
theorem ReadsSame.mcpServers (h : ReadsSame path text) (hparse : parse text = some (.obj raw))
    (hllm : readLlm (field raw "llm") = .ok llm) {v : Value} (hv : field raw "mcpServers" = some v) :
    v.writable = true := by
  obtain ⟨fields, llm', hlookup, hsame⟩ := h.read hparse hllm
  have hread := hsame (ofString "mcpServers")
  have hafter := hlookup (ofString "mcpServers")
  rw [get_mcpServers, get_mcpServers] at hread
  rw [get_mcpServers, Option.map_some] at hafter
  rw [show field fields "mcpServers" = some (rewritten (orDefault (field raw "mcpServers") (.obj []))) from hafter] at hread
  have ho := parse_ordered hparse
  have hempty : (Json.obj [] : Value).Ordered := ⟨List.Pairwise.nil, trivial⟩
  have hordered : (orDefault (field raw "mcpServers") (.obj [])).Ordered :=
    orDefault_values (P := fun x => Json.Ordered x) (fun x hx => field_ordered ho hx) hempty _ rfl
  have hnull : rewritten (.obj []) ≠ .null := nofun
  have hwritable := writable_of_same hordered hnull (Option.some.inj hread)
  rw [hv] at hwritable
  exact writable_of_orDefault hwritable

/-- The packages, where the file reads the same. -/
theorem ReadsSame.packages (h : ReadsSame path text) (hparse : parse text = some (.obj raw))
    (hllm : readLlm (field raw "llm") = .ok llm) {key : String} (hkey : key ∈ ["apt", "npm"]) {v : Value}
    (hv : nestedField raw "packages" key = some v) : v.writable = true := by
  obtain ⟨fields, llm', hlookup, hsame⟩ := h.read hparse hllm
  have ho := parse_ordered hparse
  have hread := hsame (ofString "packages")
  have hafter := hlookup (ofString "packages")
  rw [get_packages, get_packages] at hread
  rw [get_packages, Option.map_some] at hafter
  obtain ⟨before, hbefore, hbeforeField⟩ := field_objectOf (packagesProperties_inOrder raw)
  obtain ⟨after, hafterObject, hafterField⟩ := field_objectOf (packagesProperties_inOrder fields)
  obtain ⟨inner, hinner, hinnerField⟩ :=
    rewritten_objectOf (packagesProperties_inOrder raw) (packagesProperties_ordered ho)
  obtain rfl : after = before := by
    rw [hafterObject, hbefore] at hread
    exact Json.obj.inj (Option.some.inj hread)
  have hmem : ∀ fields : List (Text × Value),
      (key, some (orDefault (nestedField fields "packages" key) (.arr []))) ∈ packagesProperties fields := by
    intro fields
    simp only [List.mem_cons, List.not_mem_nil, or_false] at hkey
    rcases hkey with rfl | rfl
    · exact .head _
    · exact .tail _ (.head _)
  have hnested : nestedField fields "packages" key =
      some (rewritten (orDefault (nestedField raw "packages" key) (.arr []))) := by
    rw [nestedField, show field fields "packages" = some (.obj inner) from hafter.trans (by rw [hinner])]
    exact hinnerField _ (hmem raw)
  have hagain := hafterField _ (hmem fields)
  have hfirst := hbeforeField _ (hmem raw)
  have hvalues := hagain.symm.trans hfirst
  rw [hnested] at hvalues
  have hordered := packagesProperties_ordered ho _ (hmem raw) _ rfl
  have hnull : rewritten (.arr []) ≠ .null := by
    intro hnull
    cases hnull
  have hwritable := writable_of_same hordered hnull (Option.some.inj hvalues)
  rw [hv] at hwritable
  exact writable_of_orDefault hwritable

end

/-! ### When nothing else is lost -/

section

variable {path : String} {m : Mutation} {text text' : Text} {raw : List (Text × Value)} {llm : Option Value}
  {config' : Properties} {fields' : List (Text × Value)}

theorem Change.touched_writable (hc : Change m text text' raw llm config' fields') (hkeeps : KeepsOthers m text text')
    (hreads : ReadsSame path text) {v : Value} (hv : field raw m.key = some v) : v.writable = true := by
  cases m with
  | setMcpServer name entry => exact hreads.mcpServers hc.parsed hc.read hv
  | appendPackages apt npm =>
    have ho : v.Ordered := field_ordered hc.ordered hv
    rcases hc.packages_plain hkeeps hv with hunset | ⟨packages, rfl, honly⟩
    · exact writable_of_unset ho hunset
    · refine writable_obj.mpr fun f hf => ?_
      have hlookup : packages.lookup f.1 = some f.2 := lookup_of_mem ho.1.nodup hf
      rcases honly f.1 f.2 hlookup with hkey | hunset
      · obtain ⟨key, hmem, hkey⟩ := List.mem_map.mp hkey
        have hpackages : field raw "packages" = some (.obj packages) := hv
        have hnested : nestedField raw "packages" key = some f.2 := by
          rw [nestedField, hpackages]
          show packages.lookup (ofString key) = some f.2
          rw [hkey]
          exact hlookup
        exact hreads.packages hc.parsed hc.read hmem hnested
      · exact writable_of_unset (lookup_ordered ho hlookup) hunset

/-- **Only plain files** keep what is set in them and read the same. -/
theorem Change.plain (hc : Change m text text' raw llm config' fields') (hkeeps : KeepsOthers m text text')
    (hreads : ReadsSame path text) : PlainConfig raw := by
  have hconfig := config_ordered hc.ordered hc.read
  have hwritable : (Json.obj raw : Value).writable = true := by
    refine writable_obj.mpr fun f hf => ?_
    have hlookup : raw.lookup f.1 = some f.2 := lookup_of_mem hc.ordered.1.nodup hf
    by_cases hkey : f.1 = ofString m.key
    · rw [hkey] at hlookup
      exact hc.touched_writable hkeeps hreads hlookup
    · exact writable_of_kept_rewritten (lookup_ordered hc.ordered hlookup) (fun x hx => get_ordered hconfig hx)
        (hc.kept_other hkeeps hkey hlookup)
  refine ⟨hwritable, fun p hp v hv => ?_⟩
  by_cases hkey : ofString p.1 = ofString m.key
  · have hname : p.1 = m.key := ofString_inj hkey
    rw [hname] at hv
    cases m with
    | setMcpServer name entry =>
      have hno : "mcpServers" ∉ plainForms.map (·.1) := by decide
      have hmem : p.1 ∈ plainForms.map (·.1) := List.mem_map_of_mem hp
      rw [hname] at hmem
      exact absurd hmem hno
    | appendPackages apt npm =>
      exact (form_of (List.mem_cons_self) v).mpr (hc.packages_plain hkeeps hv) p hp hname
  · exact (kept_key_iff hc.ordered hwritable hc.read hv).mp (hc.kept_other hkeeps hkey hv) p hp rfl

theorem Change.keeps_touched (hc : Change m text text' raw llm config' fields') (hplain : PlainConfig raw) {v : Value}
    (hv : field raw m.key = some v) {path : List Text} {u : Value} (hu : valueAt path v = some u)
    (hset : isSetting u = true) (habout : ¬ m.About (ofString m.key :: path)) :
    (fields'.lookup (ofString m.key)).bind (valueAt path) = some u := by
  cases m with
  | appendPackages apt npm =>
    exfalso
    have hform := (form_of List.mem_cons_self v).mp fun q hq hname => hplain.forms q hq v (hname ▸ hv)
    have hunsetNo : ∀ {w : Value} {path : List Text}, Unset w → valueAt path w ≠ some u := by
      intro w path hunset hat
      rw [hunset path u hat] at hset
      cases hset
    rcases hform with hunset | ⟨packages, rfl, honly⟩
    · exact hunsetNo hunset hu
    · cases path with
      | nil =>
        obtain rfl := Option.some.inj hu
        cases hset
      | cons key path =>
        obtain ⟨w, hw, hat⟩ := Option.bind_eq_some_iff.mp
          (show (packages.lookup key).bind (valueAt path) = some u from hu)
        rcases honly key w hw with hkey | hunset
        · simp only [List.map_cons, List.map_nil, List.mem_cons, List.not_mem_nil, or_false] at hkey
          rcases hkey with rfl | rfl
          · exact habout (.inl (List.cons_prefix_cons.mpr ⟨rfl, List.cons_prefix_cons.mpr ⟨rfl, List.nil_prefix⟩⟩))
          · exact habout (.inr (List.cons_prefix_cons.mpr ⟨rfl, List.cons_prefix_cons.mpr ⟨rfl, List.nil_prefix⟩⟩))
        · exact hunsetNo hunset hat
  | setMcpServer name entry =>
    cases path with
    | nil => exact absurd (.inr rfl) habout
    | cons key path =>
      cases v with
      | obj servers =>
        have hkey : key ≠ name := by
          rintro rfl
          exact habout (.inl (List.cons_prefix_cons.mpr ⟨rfl, List.cons_prefix_cons.mpr ⟨rfl, List.nil_prefix⟩⟩))
        have hconfig := config_ordered hc.ordered hc.read
        have happlied := hc.applied
        rw [Mutation.apply] at happlied
        have hread : (assign raw (configProperties raw llm)).get (ofString "mcpServers") = some (.obj servers) := by
          rw [get_mcpServers, show field raw "mcpServers" = some (.obj servers) from hv]
          rfl
        obtain ⟨-, -, hset'⟩ := setMcpServer_eq_ok hconfig (fun v hv => get_ordered hconfig hv) happlied
        obtain ⟨servers', hservers', ho', hsame, -⟩ := hset' servers hread
        obtain ⟨inner, hinner, hinnerLookup⟩ := lookup_rewritten ho'
        obtain ⟨w, hw, hat⟩ := Option.bind_eq_some_iff.mp (show (servers.lookup key).bind (valueAt path) = some u from hu)
        have hwritten : rewritten w = w := by
          have ho : (Json.obj servers : Value).Ordered := field_ordered hc.ordered hv
          have hwritable : (Json.obj servers : Value).writable = true := writable_field hplain.writable hv
          exact (rewritten_eq_iff (lookup_ordered ho hw)).mpr (writable_field hwritable hw)
        have hafter : fields'.lookup (ofString "mcpServers") = some (.obj inner) := by
          rw [hc.lookup, hservers', Option.map_some, hinner]
        show (fields'.lookup (ofString "mcpServers")).bind (valueAt (key :: path)) = some u
        rw [hafter]
        show (inner.lookup key).bind (valueAt path) = some u
        rw [hinnerLookup, hsame key hkey, hw, Option.map_some, hwritten]
        exact hat
      | _ => cases hu

/-- A plain file keeps what is set in it. -/
theorem Change.keeps (hc : Change m text text' raw llm config' fields') (hplain : PlainConfig raw) :
    KeepsOthers m text text' := by
  intro path u hu hset habout
  cases path with
  | nil =>
    rw [settingAt, hc.parsed] at hu
    obtain rfl := Option.some.inj hu
    cases hset
  | cons key path =>
    rw [settingAt_cons hc.parsed] at hu
    obtain ⟨v, hv, hat⟩ := Option.bind_eq_some_iff.mp hu
    rw [settingAt_cons hc.written]
    by_cases hkey : key = ofString m.key
    · subst hkey
      exact hc.keeps_touched hplain hv hat hset habout
    · have hkept : Kept v (((assign raw (configProperties raw llm)).get key).map rewritten) := by
        refine (kept_key_iff hc.ordered hplain.writable hc.read hv).mpr fun q hq hname => ?_
        exact hplain.forms q hq v (by rw [field, hname]; exact hv)
      rw [hc.other hkey]
      exact hkept path u hat hset

end

/-- **A plain file reads the same** after what was read is written. -/
theorem readsSame_of_plain {path : String} {text : Text} {raw : List (Text × Value)}
    (hparse : parse text = some (.obj raw)) (hplain : PlainConfig raw) : ReadsSame path text := by
  intro config hread
  obtain ⟨raw', llm, hparse', hllm, rfl⟩ := readContainerConfig_eq_ok.mp hread
  obtain rfl := Json.obj.inj (Option.some.inj (hparse'.symm.trans hparse))
  have ho := parse_ordered hparse'
  have hllmAgain : (∀ v, llm = some v → v.writable = true) ∧ readLlm llm = .ok llm := by
    cases hvalue : field raw' "llm" with
    | none =>
      rw [hvalue] at hllm
      obtain rfl : none = llm := Except.ok.inj hllm
      exact ⟨fun v hv => (nomatch hv), hllm⟩
    | some v =>
      rw [hvalue] at hllm
      have hform : ("llm", LlmPlain) ∈ plainForms := .tail _ (.tail _ (.head _))
      exact readLlm_idem (writable_field hplain.writable hvalue) hllm (hplain.forms _ hform v hvalue)
  have hvalues := configProperties_writable hplain.writable hllmAgain.1
  have hconfig := config_ordered ho hllm
  obtain ⟨fields, hwritten, hlookup⟩ := parse_config hconfig
  -- every value of the config is written as it is
  have hsame : ∀ key, fields.lookup key = (assign raw' (configProperties raw' llm)).get key := by
    intro key
    rw [hlookup]
    cases hget : (assign raw' (configProperties raw' llm)).get key with
    | none => rfl
    | some v =>
      have hwritable : v.writable = true := by
        obtain ⟨p, hp, rfl⟩ | hkey := key_cases raw' llm key
        · rw [get_read hp] at hget
          exact hvalues p hp v hget
        · rw [get_read_other hkey] at hget
          exact writable_field hplain.writable hget
      rw [Option.map_some, (rewritten_eq_iff (get_ordered hconfig hget)).mpr hwritable]
  have hfields : ∀ p ∈ configProperties raw' llm, field fields p.1 = p.2 := by
    intro p hp
    rw [field, hsame, get_read hp]
  have hagain : configProperties fields llm = configProperties raw' llm := by
    have hform : ("resources", ResourcesPlain) ∈ plainForms := by
      simp only [plainForms, List.mem_cons, true_or, or_true]
    exact configProperties_again (fun x hx => hplain.forms _ hform x hx) hfields
  have hllmField : field fields "llm" = llm := by
    have hmem : ("llm", llm) ∈ configProperties raw' llm := by
      unfold configProperties
      simp only [List.mem_cons, true_or, or_true]
    have hread := hfields _ hmem
    exact hread
  refine ⟨assign fields (configProperties fields llm),
    readContainerConfig_eq_ok.mpr ⟨fields, llm, hwritten, ?_, rfl⟩, fun key => ?_⟩
  · rw [hllmField]
    exact hllmAgain.2
  · obtain ⟨p, hp, rfl⟩ | hkey := key_cases raw' llm key
    · have hp' : p ∈ configProperties fields llm := by
        rw [hagain]
        exact hp
      rw [get_read hp', get_read hp]
    · rw [get_read_other hkey, hsame]

/-- **A change keeps every other setting, and what it wrote is read as before,** exactly when the file is plain. -/
theorem write_back_iff {path : String} {text text' : Text} {m : Mutation}
    (h : updateContainerConfig path (some text) m.apply = .ok text') :
    KeepsOthers m text text' ∧ ReadsSame path text ↔ ∃ raw, parse text = some (.obj raw) ∧ PlainConfig raw := by
  obtain ⟨raw, llm, config', fields', hc⟩ := change_of_update h
  constructor
  · rintro ⟨hkeeps, hreads⟩
    exact ⟨raw, hc.parsed, hc.plain hkeeps hreads⟩
  · rintro ⟨raw', hparse, hplain⟩
    obtain rfl := Json.obj.inj (Option.some.inj (hparse.symm.trans hc.parsed))
    exact ⟨hc.keeps hplain, readsSame_of_plain hparse hplain⟩

theorem isOk_iff {ε α : Type} {e : Except ε α} : e.isOk = true ↔ ∃ a, e = .ok a := by
  cases e with
  | error message => exact iff_of_false (fun h => nomatch h) (fun ⟨a, h⟩ => nomatch h)
  | ok a => exact iff_of_true rfl ⟨a, rfl⟩

theorem record_of_isRecord {v : Option Value} {fields : List (Text × Value)} (h : isRecord v = some fields) :
    v = some (.obj fields) := by
  unfold isRecord at h
  split at h
  · rw [Option.some.inj h]
  · cases h

/-- A file with a setting that the host does not know. -/
def providerFile : Text := ofString "\x7b\"provider\":\"codex\",\"team\":\x7b\"owner\":\"ops\"\x7d\x7d"

/-- A package is added to it: the provider and the owner stay. -/
theorem write_back_iff_sample : ∃ text',
    updateContainerConfig "container.json" (some providerFile) (Mutation.appendPackages [] [ofString "tsx"]).apply =
      .ok text' ∧
    KeepsOthers (.appendPackages [] [ofString "tsx"]) providerFile text' ∧ ReadsSame "container.json" providerFile := by
  obtain ⟨text', htext'⟩ := isOk_iff.mp (show (updateContainerConfig "container.json" (some providerFile)
    (Mutation.appendPackages [] [ofString "tsx"]).apply).isOk = true by decide +kernel)
  have hobject : (isRecord (parse providerFile)).isSome = true := by decide +kernel
  have hwritable : (isRecord (parse providerFile)).all (fun raw => (Json.obj raw : Value).writable) = true := by
    decide +kernel
  have hforms : ∀ name ∈ plainForms.map (·.1), (isRecord (parse providerFile)).all
      (fun raw => (field raw name).isNone) = true := by decide +kernel
  obtain ⟨raw, hraw⟩ := Option.isSome_iff_exists.mp hobject
  rw [hraw] at hwritable
  have hplain : PlainConfig raw := by
    refine ⟨hwritable, fun p hp v hv => ?_⟩
    have hnone := hforms p.1 (List.mem_map_of_mem hp)
    rw [hraw, Option.all_some, hv] at hnone
    cases hnone
  exact ⟨text', htext', (write_back_iff htext').mpr ⟨raw, record_of_isRecord hraw, hplain⟩⟩

/-- A file with an execution block and a routing block that is disabled. -/
def dormantFile : Text := ofString
  "\x7b\"llm\":\x7b\"execution\":\x7b\"provider\":\"deep\"\x7d,\"routing\":\x7b\"enabled\":false,\"provider\":\"mini\"\x7d\x7d\x7d"

def dormantProvider : List Text := ["llm", "routing", "provider"].map ofString

/-- **A package is added, and the routing block is gone.** -/
theorem dormant_routing_lost : ∃ text',
    updateContainerConfig "container.json" (some dormantFile) (Mutation.appendPackages [] [ofString "tsx"]).apply =
      .ok text' ∧
    (settingAt dormantFile dormantProvider).isSome = true ∧ settingAt text' dormantProvider = none ∧
    ¬ KeepsOthers (.appendPackages [] [ofString "tsx"]) dormantFile text' := by
  obtain ⟨text', htext'⟩ := isOk_iff.mp (show (updateContainerConfig "container.json" (some dormantFile)
    (Mutation.appendPackages [] [ofString "tsx"]).apply).isOk = true by decide +kernel)
  have hbefore : (settingAt dormantFile dormantProvider).any isSetting = true := by decide +kernel
  have hafter : ((updateContainerConfig "container.json" (some dormantFile)
      (Mutation.appendPackages [] [ofString "tsx"]).apply).toOption.bind fun text' =>
      settingAt text' dormantProvider).isNone = true := by decide +kernel
  rw [htext'] at hafter
  have hlost : settingAt text' dormantProvider = none := Option.isNone_iff_eq_none.mp hafter
  cases hprovider : settingAt dormantFile dormantProvider with
  | none =>
    rw [hprovider] at hbefore
    cases hbefore
  | some u =>
    rw [hprovider] at hbefore
    refine ⟨text', htext', rfl, hlost, fun hkeeps => ?_⟩
    have habout : ¬ (Mutation.appendPackages [] [ofString "tsx"]).About dormantProvider := fun h =>
      absurd (about_key h) (by decide)
    have hkept := hkeeps dormantProvider u hprovider hbefore habout
    rw [hlost] at hkept
    cases hkept

end AgentDesk
