/-
# What the host keeps of the routing configuration

`readLlm` puts the `llm` field together again from the blocks that it models, and this is what is written
back. A block that it models loses what it does not know, and a block that it does not model is lost when the
other is modelled: the field only stays as it is when neither is.

* `kept_readLlm_iff`: the fields of which every setting is kept.
* `readLlm_idem`: such a field is read the next time as it was written.
-/
import AgentDesk.LlmAgreement

namespace AgentDesk

open JsonText Js

/-! ### Fields that are kept -/

/-- A text without white space around it. -/
def TrimmedAt (fields : List (Text × Value)) (key : String) : Prop :=
  ∀ t, field fields key = some (.str t) → trimText t = t

/-- A block with these properties, or nothing in it. -/
def BlockPlain (names : List String) (block : Option Value) : Prop :=
  ∀ v, block = some v → Unset v ∨ ∃ fields, v = .obj fields ∧ OnlyKeys names fields

/-- The routing blocks that are written back with all that is set in them. -/
structure RoutingPlain (routing : List (Text × Value)) : Prop where
  keys : OnlyKeys ["enabled", "provider", "model", "promptFile", "transport", "timeoutMs", "retryTimes", "context",
    "confidence", "fallback"] routing
  provider : TrimmedAt routing "provider"
  model : TrimmedAt routing "model"
  promptFile : ∀ t, field routing "promptFile" = some (.str t) → promptPath routing = t
  context : BlockPlain ["maxMessages", "maxChars"] (field routing "context")
  confidence : BlockPlain ["threshold", "belowThresholdAction"] (field routing "confidence")
  fallback : BlockPlain ["action"] (field routing "fallback")

structure ExecutionPlain (execution : List (Text × Value)) : Prop where
  keys : OnlyKeys ["provider", "model", "transport"] execution
  provider : TrimmedAt execution "provider"
  model : ∀ v, field execution "model" = some v → Unset v ∨ ∃ t, v = .str t ∧ trimText t = t ∧ t ≠ []

/-- An execution block that is modelled. -/
def NamesExecution (execution : List (Text × Value)) : Prop := trimmedText (field execution "provider") ≠ []

/-- One of the blocks is modelled. -/
def Modelled (fields : List (Text × Value)) : Prop :=
  (∃ execution, blockOf fields "execution" = some execution ∧ NamesExecution execution) ∨
    ∃ routing, enabledRouting fields = some routing

/-- Both blocks are modelled and plain, or there is nothing set in them. -/
structure BlocksPlain (fields : List (Text × Value)) : Prop where
  keys : OnlyKeys ["execution", "routing"] fields
  execution : ∀ v, field fields "execution" = some v →
    Unset v ∨ ∃ execution, v = .obj execution ∧ NamesExecution execution ∧ ExecutionPlain execution
  routing : ∀ v, field fields "routing" = some v →
    Unset v ∨ ∃ routing, v = .obj routing ∧ isTrue (field routing "enabled") = true ∧ RoutingPlain routing

/-- The `llm` fields that are written back with all that is set in them. -/
def LlmPlain : Value → Prop
  | .obj fields => Modelled fields → BlocksPlain fields
  | v => Unset v

/-! ### Texts and numbers -/

/-- A text that is trimmed is kept when it was trimmed before. -/
theorem kept_trimmed_iff {fields : List (Text × Value)} {key : String} (hne : trimmedText (field fields key) ≠ []) :
    (∀ v, field fields key = some v → Kept v ((text (trimmedText (field fields key))).map rewritten)) ↔
      TrimmedAt fields key := by
  constructor
  · intro h t ht
    have hkept := (kept_leaf (v := .str t) rfl).mp (h _ ht)
    rw [ht] at hkept
    exact Json.str.inj (Option.some.inj hkept)
  · intro h v hv
    rw [hv] at hne ⊢
    cases v with
    | str t =>
      rw [trimmedText, h t hv]
      exact kept_self _
    | _ => exact absurd rfl hne

theorem kept_of_eq {v : Value} {w : Option Value} (ho : v.Ordered) (hw : v.writable = true) (h : w = some v) :
    Kept v (w.map rewritten) := by
  rw [h, Option.map_some]
  exact (kept_rewritten_iff ho).mpr hw

theorem oneOf_eq {α : Type} {name : α → Text} {options : List α} {value : Option Value} {a : Option α}
    (h : oneOf name options value = some a) : value = a.map fun a => .str (name a) := by
  cases value with
  | none =>
    obtain rfl := Option.some.inj h
    rfl
  | some v =>
    cases v with
    | str t =>
      obtain ⟨b, hb, rfl⟩ := Option.map_eq_some_iff.mp h
      have hname := List.find?_some hb
      rw [Option.map_some, of_decide_eq_true hname]
    | _ => cases h

theorem transportOf_eq {value : Option Value} {field : String} {t : Option LlmTransport}
    (h : transportOf value field = .ok t) : value = t.map fun t => .str t.text := by
  unfold transportOf at h
  split at h
  · rename_i transport htransport
    obtain rfl := Except.ok.inj h
    exact oneOf_eq htransport
  · cases h

theorem routingAction_eq {value : Option Value} {field : String} {a : Option RoutingFallbackAction}
    (h : routingAction value field = .ok a) : value = a.map fun a => .str a.text := by
  unfold routingAction at h
  split at h
  · rename_i action haction
    obtain rfl := Except.ok.inj h
    exact oneOf_eq haction
  · cases h

/-! ### What is kept of a block -/

/-- A block whose known properties are kept: the others must be unset. -/
theorem kept_block_iff {block : Option Value} {properties : List (String × Option Value)}
    (hnames : InOrder (properties.map fun p => ofString p.1))
    (hvalues : ∀ p ∈ properties, ∀ v, p.2 = some v → v.Ordered)
    (hinside : ∀ fields, block = some (.obj fields) → ∀ p ∈ properties, ∀ v, field fields p.1 = some v →
      Kept v (p.2.map rewritten)) :
    (∀ v, block = some v → Kept v (((isRecord block).map fun _ => objectOf properties).map rewritten)) ↔
      BlockPlain (properties.map (·.1)) block := by
  constructor
  · intro h v hv
    have hkept := h v hv
    rw [hv] at hkept
    cases v with
    | obj fields => exact .inr ⟨fields, rfl, ((kept_objectOf hnames hvalues).mp hkept).1⟩
    | _ => exact .inl (kept_none.mp hkept)
  · intro h v hv
    rcases h v hv with hunset | ⟨fields, rfl, honly⟩
    · exact kept_of_unset hunset _
    · rw [hv]
      exact (kept_objectOf hnames hvalues).mpr ⟨honly, hinside fields hv⟩

/-- The fallback block is only written with an action. -/
theorem kept_fallback_iff {block : Option Value} {action : Option RoutingFallbackAction} {field' : String}
    (haction : routingAction (field ((isRecord block).getD []) "action") field' = .ok action) :
    (∀ v, block = some v → Kept v ((action.map fun a => objectOf (fallbackProperties a)).map rewritten)) ↔
      BlockPlain ["action"] block := by
  have hvalue := routingAction_eq haction
  cases action with
  | none =>
    constructor
    · intro h v hv
      exact .inl (kept_none.mp (h v hv))
    · intro h v hv
      rcases h v hv with hunset | ⟨fields, rfl, honly⟩
      · exact kept_of_unset hunset _
      · refine kept_of_unset (unset_obj.mpr fun key u hu => ?_) _
        rcases honly key u hu with hkey | hunset
        · obtain rfl := List.mem_singleton.mp hkey
          rw [hv] at hvalue
          rw [show fields.lookup (ofString "action") = none from hvalue] at hu
          cases hu
        · exact hunset
  | some a =>
    have hinside : ∀ fields, block = some (.obj fields) → ∀ p ∈ fallbackProperties a, ∀ v, field fields p.1 = some v →
        Kept v (p.2.map rewritten) := by
      intro fields hfields
      refine List.forall_mem_singleton.mpr fun v hv => ?_
      rw [hfields] at hvalue
      rw [show field fields "action" = some (.str a.text) from hvalue] at hv
      obtain rfl := Option.some.inj hv
      exact kept_self _
    have hblock := kept_block_iff (fallbackProperties_inOrder a) (fallbackProperties_ordered a) hinside
    rw [← show (fallbackProperties a).map (·.1) = ["action"] from rfl, ← hblock]
    have hrecord : ∀ v, block = some v → ∃ fields, isRecord block = some fields := by
      intro v hv
      cases hrecord : isRecord block with
      | none =>
        rw [hrecord] at hvalue
        cases hvalue
      | some fields => exact ⟨fields, rfl⟩
    constructor
    · intro h v hv
      obtain ⟨fields, hfields⟩ := hrecord v hv
      rw [hfields]
      exact h v hv
    · intro h v hv
      obtain ⟨fields, hfields⟩ := hrecord v hv
      have hkept := h v hv
      rw [hfields] at hkept
      exact hkept

theorem promptFile_kept_iff {routing : List (Text × Value)} {n : Text}
    (h : promptFileOf (field routing "promptFile") = .ok n) :
    (∀ v, field routing "promptFile" = some v → Kept v ((text n).map rewritten)) ↔
      ∀ t, field routing "promptFile" = some (.str t) → promptPath routing = t := by
  obtain ⟨hne, -, -, rfl⟩ := promptFileOf_eq_ok.mp h
  constructor
  · intro hkept t ht
    have hleaf := (kept_leaf (v := .str t) rfl).mp (hkept _ ht)
    exact Json.str.inj (Option.some.inj hleaf)
  · intro hpath v hv
    cases v with
    | str t =>
      have htext : posixNormal (trimmedText (field routing "promptFile")) = t := hpath t hv
      rw [htext]
      exact kept_self _
    | _ =>
      rw [hv] at hne
      exact absurd rfl hne

/-- **What is kept of a routing block.** -/
theorem kept_routing_iff {routing : List (Text × Value)} {w : Value} (ho : (Json.obj routing : Value).Ordered)
    (hwritable : (Json.obj routing : Value).writable = true) (henabled : isTrue (field routing "enabled") = true)
    (hw : normalizeRoutingLlm routing = .ok w) :
    Kept (.obj routing) (some (rewritten w)) ↔ RoutingPlain routing := by
  simp only [normalizeRoutingLlm, bind_eq_ok] at hw
  obtain ⟨transport, htransport, timeoutMs, htimeout, retryTimes, hretry, maxMessages, hmessages, maxChars, hchars,
    threshold, hthreshold, below, hbelow, action, haction, provider, hprovider, model, hmodel, promptFile, hprompt,
    hresult⟩ := hw
  obtain rfl := Except.ok.inj hresult
  have hnumbers : ∀ o ∈ [timeoutMs, retryTimes, maxMessages, maxChars, threshold], ∀ v, o = some v → v.Ordered := by
    simp only [List.forall_mem_cons, List.not_mem_nil, false_implies, implies_true, and_true]
    exact ⟨integer_ordered htimeout, integer_ordered hretry, integer_ordered hmessages, integer_ordered hchars,
      threshold_ordered hthreshold⟩
  have hprovider_iff := kept_trimmed_iff (requiredText_eq_ok.mp hprovider).1
  have hmodel_iff := kept_trimmed_iff (requiredText_eq_ok.mp hmodel).1
  rw [← (requiredText_eq_ok.mp hprovider).2] at hprovider_iff
  rw [← (requiredText_eq_ok.mp hmodel).2] at hmodel_iff
  obtain rfl := (optionalRoutingInteger_eq_ok.mp htimeout).1
  obtain rfl := (optionalRoutingInteger_eq_ok.mp hretry).1
  obtain rfl := (optionalRoutingInteger_eq_ok.mp hmessages).1
  obtain rfl := (optionalRoutingInteger_eq_ok.mp hchars).1
  obtain rfl := (hostThreshold_eq_ok.mp hthreshold).1
  -- a property that the host writes as it stands
  have hsame : ∀ {fields : List (Text × Value)} {key : String}, (Json.obj fields : Value).Ordered →
      (Json.obj fields : Value).writable = true →
      ∀ v, field fields key = some v → Kept v ((field fields key).map rewritten) := by
    intro fields key ho hwritable v hv
    exact kept_of_eq (field_ordered ho hv) (writable_field hwritable hv) hv
  have hcontext_iff := @kept_block_iff (field routing "context") _ (contextProperties_inOrder
    (field ((isRecord (field routing "context")).getD []) "maxMessages")
    (field ((isRecord (field routing "context")).getD []) "maxChars"))
    (contextProperties_ordered (integer_ordered hmessages) (integer_ordered hchars)) (by
      intro fields hfields
      have hinner := field_ordered ho hfields
      have hinnerWritable := writable_field hwritable hfields
      rw [hfields]
      exact List.forall_mem_cons.mpr ⟨hsame hinner hinnerWritable,
        List.forall_mem_singleton.mpr (hsame hinner hinnerWritable)⟩)
  have hconfidence_iff := @kept_block_iff (field routing "confidence") _ (confidenceProperties_inOrder
    (field ((isRecord (field routing "confidence")).getD []) "threshold") below)
    (confidenceProperties_ordered (threshold_ordered hthreshold) below) (by
      intro fields hfields
      have hinner := field_ordered ho hfields
      have hinnerWritable := writable_field hwritable hfields
      have hvalue := routingAction_eq hbelow
      rw [hfields] at hvalue ⊢
      refine List.forall_mem_cons.mpr ⟨hsame hinner hinnerWritable, List.forall_mem_singleton.mpr ?_⟩
      intro v hv
      have hkept := hsame hinner hinnerWritable v hv
      rwa [show field fields "belowThresholdAction" = _ from hvalue] at hkept)
  have hfallback_iff := kept_fallback_iff haction
  have henabled_kept : ∀ v, field routing "enabled" = some v → Kept v ((some (.bool true)).map rewritten) := by
    intro v hv
    rw [hv] at henabled
    cases v with
    | bool b =>
      cases b with
      | true => exact kept_self _
      | false => cases henabled
    | _ => cases henabled
  have htransport_kept : ∀ v, field routing "transport" = some v →
      Kept v ((transport.map fun t => (.str t.text : Value)).map rewritten) := by
    intro v hv
    have hkept := hsame ho hwritable v hv
    rwa [transportOf_eq htransport] at hkept
  rw [kept_objectOf (routingProperties_inOrder _ _ _ _ _ _ _ _ _) (writtenRouting_ordered hnumbers)]
  simp only [routingProperties, List.forall_mem_cons, List.not_mem_nil, false_implies, implies_true, and_true]
  rw [hprovider_iff, hmodel_iff, promptFile_kept_iff hprompt, hcontext_iff, hconfidence_iff, hfallback_iff]
  constructor
  · rintro ⟨hkeys, -, hprovider', hmodel', hprompt', -, -, -, hcontext, hconfidence, hfallback⟩
    exact ⟨hkeys, hprovider', hmodel', hprompt', hcontext, hconfidence, hfallback⟩
  · rintro ⟨hkeys, hprovider', hmodel', hprompt', hcontext, hconfidence, hfallback⟩
    exact ⟨hkeys, henabled_kept, hprovider', hmodel', hprompt', htransport_kept, hsame ho hwritable, hsame ho hwritable,
      hcontext, hconfidence, hfallback⟩

theorem model_kept_iff {execution : List (Text × Value)} :
    (∀ v, field execution "model" = some v →
      Kept v ((if trimmedText (field execution "model") = [] then none
        else text (trimmedText (field execution "model"))).map rewritten)) ↔
      ∀ v, field execution "model" = some v → Unset v ∨ ∃ t, v = .str t ∧ trimText t = t ∧ t ≠ [] := by
  refine forall_congr' fun v => imp_congr_right fun hv => ?_
  rw [hv]
  cases v with
  | str t =>
    show Kept (.str t) ((if trimText t = [] then none else text (trimText t)).map rewritten) ↔ _
    rw [kept_leaf rfl]
    have hset : ¬ Unset (.str t) := not_unset_leaf rfl
    by_cases hblank : trimText t = []
    · rw [if_pos hblank]
      refine iff_of_false (fun h => nomatch h) ?_
      rintro (h | ⟨t', ht', htrim, hne⟩)
      · exact hset h
      · obtain rfl := Json.str.inj ht'
        exact hne (htrim.symm.trans hblank)
    · rw [if_neg hblank]
      constructor
      · intro h
        have htrim : trimText t = t := Json.str.inj (Option.some.inj h)
        exact .inr ⟨t, rfl, htrim, fun hnil => hblank (htrim.trans hnil)⟩
      · rintro (h | ⟨t', ht', htrim, -⟩)
        · exact absurd h hset
        · obtain rfl := Json.str.inj ht'
          rw [htrim]
          rfl
  | _ =>
    show Kept _ none ↔ _
    rw [kept_none]
    exact ⟨.inl, fun h => h.resolve_right fun ⟨t, ht, _⟩ => (nomatch ht)⟩

/-- **What is kept of an execution block.** -/
theorem kept_execution_iff {execution : List (Text × Value)} {w : Value}
    (ho : (Json.obj execution : Value).Ordered) (hwritable : (Json.obj execution : Value).writable = true)
    (hw : normalizeExecutionLlm execution = .ok (some w)) :
    Kept (.obj execution) (some (rewritten w)) ↔ ExecutionPlain execution := by
  unfold normalizeExecutionLlm at hw
  by_cases hprovider : trimmedText (field execution "provider") = []
  · simp [hprovider] at hw
  · simp only [hprovider, if_false] at hw
    obtain ⟨t, ht, hresult⟩ := map_eq_ok.mp hw
    obtain rfl := Option.some.inj hresult
    have htransport : ∀ v, field execution "transport" = some v →
        Kept v ((t.map fun t => (.str t.text : Value)).map rewritten) := by
      intro v hv
      have hkept := kept_of_eq (field_ordered ho hv) (writable_field hwritable hv) hv
      rwa [transportOf_eq ht] at hkept
    rw [kept_objectOf (executionProperties_inOrder _ _ t) (executionProperties_ordered _ _ t)]
    simp only [executionProperties, List.forall_mem_cons, List.not_mem_nil, false_implies, implies_true, and_true]
    rw [kept_trimmed_iff hprovider, model_kept_iff]
    constructor
    · rintro ⟨hkeys, hprovider', hmodel, -⟩
      exact ⟨hkeys, hprovider', hmodel⟩
    · rintro ⟨hkeys, hprovider', hmodel⟩
      exact ⟨hkeys, hprovider', hmodel, htransport⟩

/-! ### The field as a whole -/

theorem namesExecution_of_some {execution : List (Text × Value)} {w : Value}
    (h : normalizeExecutionLlm execution = .ok (some w)) : NamesExecution execution := by
  intro hblank
  unfold normalizeExecutionLlm at h
  simp [hblank] at h

/-- The execution block, kept or lost. -/
theorem kept_execution_part {fields : List (Text × Value)} {execution : Option Value}
    (ho : (Json.obj fields : Value).Ordered) (hwritable : (Json.obj fields : Value).writable = true)
    (h : readBlock normalizeExecutionLlm (blockOf fields "execution") = .ok execution) :
    (∀ v, field fields "execution" = some v → Kept v (execution.map rewritten)) ↔
      ∀ v, field fields "execution" = some v →
        Unset v ∨ ∃ e, v = .obj e ∧ NamesExecution e ∧ ExecutionPlain e := by
  refine forall_congr' fun v => imp_congr_right fun hv => ?_
  rw [blockOf, hv] at h
  cases v with
  | obj e =>
    have hread : normalizeExecutionLlm e = .ok execution := h
    cases execution with
    | none =>
      show Kept (.obj e) none ↔ _
      rw [kept_none]
      refine ⟨.inl, fun h => h.resolve_right ?_⟩
      rintro ⟨e', he', hnames, -⟩
      obtain rfl := Json.obj.inj he'
      exact hnames (buildExecutionLlm_none hread)
    | some w =>
      rw [Option.map_some, kept_execution_iff (field_ordered ho hv) (writable_field hwritable hv) hread]
      constructor
      · intro hplain
        exact .inr ⟨e, rfl, namesExecution_of_some hread, hplain⟩
      · rintro (hunset | ⟨e', he', -, hplain⟩)
        · have hkept := kept_of_unset hunset (some (rewritten w))
          exact (kept_execution_iff (field_ordered ho hv) (writable_field hwritable hv) hread).mp hkept
        · obtain rfl := Json.obj.inj he'
          exact hplain
  | _ =>
    obtain rfl := Except.ok.inj h
    show Kept _ none ↔ _
    rw [kept_none]
    refine ⟨.inl, fun h => h.resolve_right ?_⟩
    rintro ⟨e, he, -⟩
    cases he

/-- The routing block, kept or lost. -/
theorem kept_routing_part {fields : List (Text × Value)} {routing : Option Value}
    (ho : (Json.obj fields : Value).Ordered) (hwritable : (Json.obj fields : Value).writable = true)
    (h : readBlock (fun routing => (normalizeRoutingLlm routing).map some) (enabledRouting fields) = .ok routing) :
    (∀ v, field fields "routing" = some v → Kept v (routing.map rewritten)) ↔
      ∀ v, field fields "routing" = some v →
        Unset v ∨ ∃ r, v = .obj r ∧ isTrue (field r "enabled") = true ∧ RoutingPlain r := by
  refine forall_congr' fun v => imp_congr_right fun hv => ?_
  rw [enabledRouting, blockOf, hv] at h
  cases v with
  | obj r =>
    by_cases henabled : isTrue (field r "enabled") = true
    · rw [show (isRecord (some (.obj r))).filter (fun routing => isTrue (field routing "enabled")) = some r from
        Option.filter_some_pos henabled] at h
      obtain ⟨w, hw, rfl⟩ := map_eq_ok.mp h
      have hiff := kept_routing_iff (field_ordered ho hv) (writable_field hwritable hv) henabled hw
      rw [Option.map_some, hiff]
      constructor
      · intro hplain
        exact .inr ⟨r, rfl, henabled, hplain⟩
      · rintro (hunset | ⟨r', hr', -, hplain⟩)
        · exact hiff.mp (kept_of_unset hunset _)
        · obtain rfl := Json.obj.inj hr'
          exact hplain
    · rw [show (isRecord (some (.obj r))).filter (fun routing => isTrue (field routing "enabled")) = none from
        Option.filter_some_neg (by simpa using henabled)] at h
      obtain rfl := Except.ok.inj h
      show Kept (.obj r) none ↔ _
      rw [kept_none]
      refine ⟨.inl, fun h => h.resolve_right ?_⟩
      rintro ⟨r', hr', henabled', -⟩
      obtain rfl := Json.obj.inj hr'
      exact henabled henabled'
  | _ =>
    obtain rfl := Except.ok.inj h
    show Kept _ none ↔ _
    rw [kept_none]
    refine ⟨.inl, fun h => h.resolve_right ?_⟩
    rintro ⟨r, hr, -⟩
    cases hr

/-- Something is written of a field with a block that is modelled. -/
theorem modelled_iff {fields : List (Text × Value)} {w : Option Value}
    (h : normalizeDualLlmConfig (some (.obj fields)) = .ok w) : (∃ v, w = some v) ↔ Modelled fields := by
  obtain ⟨execution, routing, hexecution, hrouting, rfl⟩ := normalizeDualLlmConfig_eq_ok.mp h
  have hexecution_iff : (∃ v, execution = some v) ↔
      ∃ e, blockOf fields "execution" = some e ∧ NamesExecution e := by
    cases hblock : blockOf fields "execution" with
    | none =>
      rw [hblock] at hexecution
      obtain rfl := Except.ok.inj hexecution
      exact iff_of_false (fun ⟨_, hv⟩ => nomatch hv) fun ⟨_, he, _⟩ => nomatch he
    | some e =>
      rw [hblock] at hexecution
      cases execution with
      | none =>
        refine iff_of_false (fun ⟨_, hv⟩ => nomatch hv) ?_
        rintro ⟨e', he', hnames⟩
        obtain rfl := Option.some.inj he'
        exact hnames (buildExecutionLlm_none hexecution)
      | some v => exact iff_of_true ⟨v, rfl⟩ ⟨e, rfl, namesExecution_of_some hexecution⟩
  have hrouting_iff : (∃ v, routing = some v) ↔ ∃ r, enabledRouting fields = some r := by
    cases hblock : enabledRouting fields with
    | none =>
      rw [hblock] at hrouting
      obtain rfl := Except.ok.inj hrouting
      exact iff_of_false (fun ⟨_, hv⟩ => nomatch hv) fun ⟨_, hr⟩ => nomatch hr
    | some r =>
      rw [hblock] at hrouting
      obtain ⟨v, -, rfl⟩ := map_eq_ok.mp hrouting
      exact iff_of_true ⟨v, rfl⟩ ⟨r, rfl⟩
  unfold Modelled
  rw [← hexecution_iff, ← hrouting_iff]
  cases execution <;> cases routing <;> simp

theorem routing_part_ordered {block : Option (List (Text × Value))} {routing : Option Value}
    (h : readBlock (fun routing => (normalizeRoutingLlm routing).map some) block = .ok routing) :
    ∀ v, routing = some v → v.Ordered := by
  rintro v rfl
  cases block with
  | none => cases h
  | some r =>
    obtain ⟨w, hw, hsome⟩ := map_eq_ok.mp h
    obtain rfl := Option.some.inj hsome
    obtain ⟨haccepted, -⟩ := normalizeRoutingLlm_ok_iff.mp ⟨w, hw⟩
    obtain ⟨c, hc⟩ := buildRoutingLlm_ok_iff.mpr haccepted
    exact (buildRoutingLlm_written hw hc).1

/-- **What is kept of an `llm` field.** -/
theorem kept_readLlm_iff {v : Value} {w : Option Value} (ho : v.Ordered) (hwritable : v.writable = true)
    (hw : readLlm (some v) = .ok w) : Kept v (w.map rewritten) ↔ LlmPlain v := by
  obtain ⟨normalized, hnormalized, rfl⟩ := map_eq_ok.mp hw
  cases v with
  | obj fields =>
    cases normalized with
    | none =>
      have hnot : ¬ Modelled fields := fun h => nomatch (modelled_iff hnormalized).mpr h
      refine iff_of_true ?_ fun h => absurd h hnot
      exact (kept_rewritten_iff ho).mpr hwritable
    | some w =>
      have hmodelled := (modelled_iff hnormalized).mp ⟨w, rfl⟩
      obtain ⟨execution, routing, hexecution, hrouting, hresult⟩ := normalizeDualLlmConfig_eq_ok.mp hnormalized
      have hliteral : w = objectOf (dualProperties execution routing) := by
        split at hresult
        · exact (Option.some.inj hresult).symm
        · cases hresult
      have hexecutionOrdered := (execution_written hexecution).1
      have hroutingOrdered := routing_part_ordered hrouting
      show Kept (.obj fields) (some (rewritten w)) ↔ LlmPlain (.obj fields)
      rw [hliteral, kept_objectOf (dualProperties_inOrder execution routing)
        (List.forall_mem_cons.mpr ⟨hexecutionOrdered, List.forall_mem_singleton.mpr hroutingOrdered⟩)]
      simp only [dualProperties, List.forall_mem_cons, List.not_mem_nil, false_implies, implies_true, and_true]
      rw [kept_execution_part ho hwritable hexecution, kept_routing_part ho hwritable hrouting]
      constructor
      · rintro ⟨hkeys, hexecution', hrouting'⟩ -
        exact ⟨hkeys, hexecution', hrouting'⟩
      · intro hplain
        obtain ⟨hkeys, hexecution', hrouting'⟩ := hplain hmodelled
        exact ⟨hkeys, hexecution', hrouting'⟩
  | _ =>
    obtain rfl := Except.ok.inj hnormalized
    show Kept _ none ↔ Unset _
    exact kept_none

/-! ### Reading again -/

theorem transportOf_self (t : Option LlmTransport) (field : String) :
    transportOf (t.map fun t => .str t.text) field = .ok t := by
  have htext := transportOf_text t field
  cases t with
  | none => exact htext
  | some t => exact htext

theorem routingAction_self (a : Option RoutingFallbackAction) (field : String) :
    routingAction (a.map fun a => .str a.text) field = .ok a := by
  have htext := routingAction_text a field
  cases a with
  | none => exact htext
  | some a => exact htext

theorem requiredText_self {value : Option Value} {message : String} {t : Text} (h : requiredText value message = .ok t) :
    requiredText (text t) message = .ok t := requiredText_text h message

/-- A block of a literal, as the host finds it. -/
theorem nested_literal {fields : List (Text × Value)} {name : String} {block : Option (List (Text × Value))}
    {properties : List (String × Option Value)} (hblock : field fields name = block.map fun _ => objectOf properties)
    (hnames : InOrder (properties.map fun p => ofString p.1)) (hnone : block = none → ∀ p ∈ properties, p.2 = none) :
    (∀ p ∈ properties, field ((isRecord (field fields name)).getD []) p.1 = p.2) ∧
      ∀ v : Value, (isRecord (field fields name)).map (fun _ => v) = block.map fun _ => v := by
  rw [hblock]
  cases block with
  | none =>
    refine ⟨fun p hp => ?_, fun v => rfl⟩
    rw [hnone rfl p hp]
    rfl
  | some inner =>
    obtain ⟨fields', hfields', hfield'⟩ := field_objectOf hnames
    rw [Option.map_some, hfields']
    exact ⟨hfield', fun v => rfl⟩

theorem integer_self {value w : Option Value} {field : String} {min max : ℕ}
    (h : optionalRoutingInteger value field min max = .ok w) : optionalRoutingInteger w field min max = .ok w := by
  obtain rfl := (optionalRoutingInteger_eq_ok.mp h).1
  exact h

theorem hostThreshold_self {value w : Option Value} (h : hostThreshold value = .ok w) : hostThreshold w = .ok w := by
  obtain rfl := (hostThreshold_eq_ok.mp h).1
  exact h

/-- **The routing block that was written** is put together as it was, if its prompt file is. -/
theorem normalizeRoutingLlm_again {routing : List (Text × Value)} {w : Value}
    (hw : normalizeRoutingLlm routing = .ok w) (hpath : trimText (promptPath routing) = promptPath routing) :
    ∃ fields, w = .obj fields ∧ isTrue (field fields "enabled") = true ∧ normalizeRoutingLlm fields = .ok w := by
  simp only [normalizeRoutingLlm, bind_eq_ok] at hw
  obtain ⟨transport, htransport, timeoutMs, htimeout, retryTimes, hretry, maxMessages, hmessages, maxChars, hchars,
    threshold, hthreshold, below, hbelow, action, haction, provider, hprovider, model, hmodel, promptFile, hprompt,
    hresult⟩ := hw
  obtain rfl := Except.ok.inj hresult
  obtain ⟨fields, hfields, hfield⟩ := field_objectOf (routingProperties_inOrder provider model promptFile transport
    timeoutMs retryTimes
    ((isRecord (field routing "context")).map fun _ => objectOf (contextProperties maxMessages maxChars))
    ((isRecord (field routing "confidence")).map fun _ => objectOf (confidenceProperties threshold below))
    (action.map fun a => objectOf (fallbackProperties a)))
  simp only [routingProperties, List.forall_mem_cons, List.not_mem_nil, false_implies, implies_true, and_true] at hfield
  obtain ⟨fenabled, fprovider, fmodel, fpromptFile, ftransport, ftimeout, fretry, fcontext, fconfidence, ffallback⟩ :=
    hfield
  obtain ⟨hcontext, hcontextBlock⟩ := nested_literal fcontext (contextProperties_inOrder _ _) (by
    intro hnone
    rw [hnone] at hmessages hchars
    exact List.forall_mem_cons.mpr ⟨(Except.ok.inj hmessages).symm,
      List.forall_mem_singleton.mpr (Except.ok.inj hchars).symm⟩)
  obtain ⟨hconfidence, hconfidenceBlock⟩ := nested_literal fconfidence (confidenceProperties_inOrder _ _) (by
    intro hnone
    rw [hnone] at hthreshold hbelow
    refine List.forall_mem_cons.mpr ⟨(Except.ok.inj hthreshold).symm, List.forall_mem_singleton.mpr ?_⟩
    rw [← Except.ok.inj hbelow]
    rfl)
  simp only [contextProperties, confidenceProperties, List.forall_mem_cons, List.not_mem_nil, false_implies,
    implies_true, and_true] at hcontext hconfidence
  have hfallback : field ((isRecord (field fields "fallback")).getD []) "action" = action.map fun a => .str a.text := by
    rw [ffallback]
    cases action with
    | none => rfl
    | some a =>
      obtain ⟨fields', hfields', hfield'⟩ := field_objectOf (fallbackProperties_inOrder a)
      rw [Option.map_some, hfields']
      exact hfield' _ (List.mem_singleton.mpr rfl)
  have hpromptAgain : promptFileOf (text promptFile) = .ok promptFile := by
    refine (promptFile_stable_iff hprompt).mpr ?_
    rw [(promptFileOf_eq_ok.mp hprompt).2.2.2]
    exact hpath
  refine ⟨fields, hfields, by rw [fenabled]; rfl, ?_⟩
  simp only [normalizeRoutingLlm, bind_eq_ok]
  refine ⟨transport, ?_, timeoutMs, ?_, retryTimes, ?_, maxMessages, ?_, maxChars, ?_, threshold, ?_, below, ?_, action,
    ?_, provider, ?_, model, ?_, promptFile, ?_, ?_⟩
  · rw [ftransport, transportOf_self]
  · rw [ftimeout]
    exact integer_self htimeout
  · rw [fretry]
    exact integer_self hretry
  · rw [hcontext.1]
    exact integer_self hmessages
  · rw [hcontext.2]
    exact integer_self hchars
  · rw [hconfidence.1]
    exact hostThreshold_self hthreshold
  · rw [hconfidence.2, routingAction_self]
  · rw [hfallback, routingAction_self]
  · rw [fprovider]
    exact requiredText_self hprovider
  · rw [fmodel]
    exact requiredText_self hmodel
  · rw [fpromptFile]
    exact hpromptAgain
  · rw [hcontextBlock, hconfidenceBlock]

/-- The execution block that was written is put together as it was. -/
theorem normalizeExecutionLlm_again {execution : List (Text × Value)} {w : Value}
    (hw : normalizeExecutionLlm execution = .ok (some w)) :
    ∃ fields, w = .obj fields ∧ normalizeExecutionLlm fields = .ok (some w) := by
  unfold normalizeExecutionLlm at hw
  by_cases hprovider : trimmedText (field execution "provider") = []
  · simp [hprovider] at hw
  · simp only [hprovider, if_false] at hw
    obtain ⟨t, ht, hresult⟩ := map_eq_ok.mp hw
    obtain rfl := Option.some.inj hresult
    obtain ⟨fields, hfields, hfield⟩ := field_objectOf (executionProperties_inOrder
      (trimmedText (field execution "provider")) (trimmedText (field execution "model")) t)
    simp only [executionProperties, List.forall_mem_cons, List.not_mem_nil, false_implies, implies_true, and_true]
      at hfield
    obtain ⟨fprovider, fmodel, ftransport⟩ := hfield
    have hproviderAgain : trimmedText (field fields "provider") = trimmedText (field execution "provider") := by
      rw [fprovider]
      exact trimText_trimmedText _
    have hmodelAgain : trimmedText (field fields "model") = trimmedText (field execution "model") := by
      rw [fmodel]
      by_cases hmodel : trimmedText (field execution "model") = []
      · rw [if_pos hmodel, hmodel]
        rfl
      · rw [if_neg hmodel]
        exact trimText_trimmedText _
    refine ⟨fields, hfields, ?_⟩
    unfold normalizeExecutionLlm
    simp only [hproviderAgain, hmodelAgain, hprovider, if_false, ftransport, transportOf_self]
    rfl

/-- The numbers of a routing block that is written are those of the file. -/
theorem writable_routing {routing : List (Text × Value)} {w : Value}
    (hwritable : (Json.obj routing : Value).writable = true) (hw : normalizeRoutingLlm routing = .ok w) :
    w.writable = true := by
  simp only [normalizeRoutingLlm, bind_eq_ok] at hw
  obtain ⟨transport, -, timeoutMs, htimeout, retryTimes, hretry, maxMessages, hmessages, maxChars, hchars,
    threshold, hthreshold, below, -, action, -, provider, -, model, -, promptFile, -, hresult⟩ := hw
  obtain rfl := Except.ok.inj hresult
  have hfile : ∀ {fields : List (Text × Value)} {key : String}, (Json.obj fields : Value).writable = true →
      ∀ v, field fields key = some v → v.writable = true := fun h v hv => writable_field h hv
  have hnested : ∀ {name key : String}, ∀ v, nestedField routing name key = some v → v.writable = true := by
    intro name key v hv
    cases hblock : field routing name with
    | none =>
      rw [nestedField, hblock] at hv
      cases hv
    | some block =>
      rw [nestedField, hblock] at hv
      cases block with
      | obj fields => exact writable_field (writable_field hwritable hblock) hv
      | _ => cases hv
  have hinteger : ∀ {value w : Option Value} {field : String} {min max : ℕ},
      optionalRoutingInteger value field min max = .ok w → (∀ v, value = some v → v.writable = true) →
      ∀ v, w = some v → v.writable = true := by
    intro value w field min max h hvalue
    obtain rfl := (optionalRoutingInteger_eq_ok.mp h).1
    exact hvalue
  have hthresholdWritable : ∀ v, threshold = some v → v.writable = true := by
    obtain rfl := (hostThreshold_eq_ok.mp hthreshold).1
    exact hnested
  have htext : ∀ {α : Type} {f : α → Value} {o : Option α}, (∀ a, (f a).writable = true) →
      ∀ v, o.map f = some v → v.writable = true := by
    intro α f o hf v hv
    obtain ⟨a, -, rfl⟩ := Option.map_eq_some_iff.mp hv
    exact hf a
  have hstr : ∀ t : Text, ∀ v, text t = some v → v.writable = true := by
    intro t v hv
    obtain rfl := Option.some.inj hv
    rfl
  have hcontext := @writable_objectOf (contextProperties maxMessages maxChars) (List.forall_mem_cons.mpr
    ⟨hinteger hmessages hnested, List.forall_mem_singleton.mpr (hinteger hchars hnested)⟩)
  have hconfidence := @writable_objectOf (confidenceProperties threshold below) (List.forall_mem_cons.mpr
    ⟨hthresholdWritable, List.forall_mem_singleton.mpr (htext fun a => rfl)⟩)
  refine writable_objectOf ?_
  simp only [routingProperties, List.forall_mem_cons, List.not_mem_nil, false_implies, implies_true, and_true]
  refine ⟨?_, hstr provider, hstr model, hstr promptFile, htext fun t => rfl, hinteger htimeout (hfile hwritable),
    hinteger hretry (hfile hwritable), htext fun _ => hcontext, htext fun _ => hconfidence, htext fun a => ?_⟩
  · intro v hv
    obtain rfl := Option.some.inj hv
    rfl
  · exact writable_objectOf (List.forall_mem_singleton.mpr (hstr a.text))

/-- The path of a prompt file that is written as it stands is trimmed. -/
theorem promptPath_trimmed {routing : List (Text × Value)} {n : Text}
    (hprompt : promptFileOf (field routing "promptFile") = .ok n)
    (hplain : ∀ t, field routing "promptFile" = some (.str t) → promptPath routing = t) :
    trimText (promptPath routing) = promptPath routing := by
  have hne := (promptFileOf_eq_ok.mp hprompt).1
  cases hvalue : field routing "promptFile" with
  | none =>
    rw [hvalue] at hne
    exact absurd rfl hne
  | some v =>
    cases v with
    | str t =>
      have hpath := hplain t hvalue
      rw [hvalue] at hne
      have hlength : (promptPath routing).length ≤ (trimText t).length := by
        rw [promptPath, hvalue]
        exact posixNormal_length hne
      rw [hpath] at hlength ⊢
      exact (trimText_sublist t).eq_of_length_le hlength
    | _ =>
      rw [hvalue] at hne
      exact absurd rfl hne

theorem writable_execution {execution : List (Text × Value)} {w : Value}
    (hw : normalizeExecutionLlm execution = .ok (some w)) : w.writable = true := by
  unfold normalizeExecutionLlm at hw
  by_cases hprovider : trimmedText (field execution "provider") = []
  · simp [hprovider] at hw
  · simp only [hprovider, if_false] at hw
    obtain ⟨t, -, hresult⟩ := map_eq_ok.mp hw
    obtain rfl := Option.some.inj hresult
    refine writable_objectOf ?_
    simp only [executionProperties, List.forall_mem_cons, List.not_mem_nil, false_implies, implies_true, and_true]
    refine ⟨?_, ?_, ?_⟩
    · intro v hv
      obtain rfl := Option.some.inj hv
      rfl
    · intro v hv
      split at hv
      · cases hv
      · obtain rfl := Option.some.inj hv
        rfl
    · intro v hv
      obtain ⟨t, -, rfl⟩ := Option.map_eq_some_iff.mp hv
      rfl

/-- The routing block of a plain field. -/
theorem routing_plain {fields routing : List (Text × Value)} (hplain : BlocksPlain fields)
    (henabled : enabledRouting fields = some routing) :
    field fields "routing" = some (.obj routing) ∧ isTrue (field routing "enabled") = true ∧ RoutingPlain routing := by
  obtain ⟨hblock, htrue⟩ := Option.filter_eq_some_iff.mp henabled
  obtain hnone | ⟨block, hfield, hsome⟩ := @block_cases fields "routing"
  · rw [hnone] at hblock
    cases hblock
  · obtain rfl := Option.some.inj (hsome.symm.trans hblock)
    refine ⟨hfield, htrue, ?_⟩
    rcases hplain.routing _ hfield with hunset | ⟨routing, hrouting, -, hroutingPlain⟩
    · cases hvalue : field block "enabled" with
      | none =>
        rw [hvalue] at htrue
        cases htrue
      | some v =>
        have hunsetValue := unset_obj.mp hunset _ v hvalue
        rw [hvalue] at htrue
        cases v with
        | bool b => exact absurd hunsetValue (not_unset_leaf rfl)
        | _ => cases htrue
    · obtain rfl := Json.obj.inj hrouting
      exact hroutingPlain

/-- **A field that is kept** is written with numbers that can be written, and read again as it was written. -/
theorem readLlm_idem {v : Value} {w : Option Value} (hwritable : v.writable = true) (hw : readLlm (some v) = .ok w)
    (hplain : LlmPlain v) : (∀ x, w = some x → x.writable = true) ∧ readLlm w = .ok w := by
  obtain ⟨normalized, hnormalized, rfl⟩ := map_eq_ok.mp hw
  cases v with
  | obj fields =>
    cases normalized with
    | none =>
      refine ⟨fun x hx => ?_, hw⟩
      obtain rfl := Option.some.inj hx
      exact hwritable
    | some w =>
      have hblocks := hplain ((modelled_iff hnormalized).mp ⟨w, rfl⟩)
      obtain ⟨execution, routing, hexecution, hrouting, hresult⟩ := normalizeDualLlmConfig_eq_ok.mp hnormalized
      have hsome : (routing.isSome || execution.isSome) = true := by
        by_contra hne
        rw [if_neg hne] at hresult
        cases hresult
      obtain rfl : objectOf (dualProperties execution routing) = w := by
        rw [if_pos hsome] at hresult
        exact Option.some.inj hresult
      -- each block that is there is put together again
      have hexecutionAgain : (∀ x, execution = some x → x.writable = true) ∧
          readBlock normalizeExecutionLlm (isRecord execution) = .ok execution := by
        cases execution with
        | none =>
          refine ⟨fun x hx => ?_, rfl⟩
          cases hx
        | some x =>
          cases hblock : blockOf fields "execution" with
          | none =>
            rw [hblock] at hexecution
            cases hexecution
          | some e =>
            rw [hblock] at hexecution
            obtain ⟨fields', rfl, hagain⟩ := normalizeExecutionLlm_again hexecution
            refine ⟨fun y hy => ?_, hagain⟩
            obtain rfl := Option.some.inj hy
            exact writable_execution hexecution
      have hroutingAgain : (∀ x, routing = some x → x.writable = true) ∧
          readBlock (fun routing => (normalizeRoutingLlm routing).map some)
            ((isRecord routing).filter fun routing => isTrue (field routing "enabled")) = .ok routing := by
        cases routing with
        | none =>
          refine ⟨fun x hx => ?_, rfl⟩
          cases hx
        | some x =>
          cases hblock : enabledRouting fields with
          | none =>
            rw [hblock] at hrouting
            cases hrouting
          | some r =>
            rw [hblock] at hrouting
            obtain ⟨y, hy, hxy⟩ := map_eq_ok.mp hrouting
            obtain rfl := Option.some.inj hxy
            obtain ⟨hfield, -, hroutingPlain⟩ := routing_plain hblocks hblock
            obtain ⟨haccepted, -⟩ := normalizeRoutingLlm_ok_iff.mp ⟨y, hy⟩
            obtain ⟨n, hn⟩ := promptFileOf_ok_iff.mpr haccepted.promptFile
            obtain ⟨fields', rfl, htrue, hagain⟩ :=
              normalizeRoutingLlm_again hy (promptPath_trimmed hn hroutingPlain.promptFile)
            refine ⟨fun z hz => ?_, ?_⟩
            · obtain rfl := Option.some.inj hz
              exact writable_routing (writable_field hwritable hfield) hy
            · rw [show (isRecord (some (.obj fields'))).filter (fun routing => isTrue (field routing "enabled")) =
                some fields' from Option.filter_some_pos htrue]
              exact map_eq_ok.mpr ⟨_, hagain, rfl⟩
      obtain ⟨fields', hfields', hfield'⟩ := field_objectOf (dualProperties_inOrder execution routing)
      simp only [dualProperties, List.forall_mem_cons, List.not_mem_nil, false_implies, implies_true, and_true] at hfield'
      refine ⟨fun x hx => ?_, map_eq_ok.mpr ⟨some (objectOf (dualProperties execution routing)), ?_, rfl⟩⟩
      · obtain rfl := Option.some.inj hx
        exact writable_objectOf (List.forall_mem_cons.mpr
          ⟨hexecutionAgain.1, List.forall_mem_singleton.mpr hroutingAgain.1⟩)
      · show normalizeDualLlmConfig (some (objectOf (dualProperties execution routing))) = _
        rw [hfields']
        refine normalizeDualLlmConfig_eq_ok.mpr ⟨execution, routing, ?_, ?_, ?_⟩
        · rw [blockOf, hfield'.1]
          exact hexecutionAgain.2
        · rw [enabledRouting, blockOf, hfield'.2]
          exact hroutingAgain.2
        · rw [if_pos hsome, hfields']
  | _ =>
    obtain rfl := Except.ok.inj hnormalized
    refine ⟨fun x hx => ?_, rfl⟩
    cases hx

/-- What is read is in order. -/
theorem readLlm_ordered {v w : Option Value} (ho : ∀ x, v = some x → x.Ordered) (hw : readLlm v = .ok w) :
    ∀ x, w = some x → x.Ordered := by
  obtain ⟨normalized, hnormalized, rfl⟩ := map_eq_ok.mp hw
  intro x hx
  cases hrecord : isRecord v with
  | none =>
    rw [normalizeDualLlmConfig, hrecord] at hnormalized
    obtain rfl := Except.ok.inj hnormalized
    rw [hrecord] at hx
    cases hx
  | some fields =>
    obtain rfl : v = some (.obj fields) := by
      cases v with
      | none => cases hrecord
      | some v =>
        cases v with
        | obj fields' =>
          obtain rfl := Option.some.inj hrecord
          rfl
        | _ => cases hrecord
    cases normalized with
    | none =>
      obtain rfl := Option.some.inj hx
      exact ho _ rfl
    | some w =>
      obtain rfl := Option.some.inj hx
      obtain ⟨execution, routing, hexecution, hrouting, hresult⟩ := normalizeDualLlmConfig_eq_ok.mp hnormalized
      split at hresult
      · obtain rfl := Option.some.inj hresult
        exact ordered_objectOf (dualProperties_inOrder execution routing) (List.forall_mem_cons.mpr
          ⟨(execution_written hexecution).1, List.forall_mem_singleton.mpr (routing_part_ordered hrouting)⟩)
      · cases hresult

end AgentDesk
