/-
# The host and the runner agree on the routing configuration

What the host writes back, `readLlm`, is what the runner reads. Whether the two agree on an `llm` field is
whether they refuse the same fields, and whether the runner builds the same configuration from what the host
has written as from what the operator has.

A field without an enabled routing block is always agreed on: the host keeps what it does not model, and the
runner does not look at it. With one, the two refuse the same blocks but for an explicit `null` threshold, and
what was written back is read as before when the normal path of the prompt file is trimmed.

* `buildRoutingLlm_ok_iff`, `normalizeRoutingLlm_ok_iff`: the routing blocks that the two accept.
* `buildRoutingLlm_written`: the routing block that is written back.
* `readLlm_dormant`: a field that the host does not model stays as it is.
* `host_runner_agree_iff`: when the two agree on an `llm` field.
* `null_threshold_differs`: a field on which they do not.
-/
import AgentDesk.LlmConfig

namespace AgentDesk

open JsonText Js

/-! ### What is accepted -/

/-- A property of a block inside: nothing when the block is not an object. -/
def nestedField (fields : List (Text × Value)) (block key : String) : Option Value :=
  field ((isRecord (field fields block)).getD []) key

def knownTransport (value : Option Value) : Bool :=
  (oneOf LlmTransport.text [.responses, .chatCompletions] value).isSome

def knownAction (value : Option Value) : Bool :=
  (oneOf RoutingFallbackAction.text [.clarify, .reject] value).isSome

/-- Left out, or an integer in the range. -/
def integerAccepted (value : Option Value) (min max : ℕ) : Prop := ∀ v, value = some v → (integerIn min max v).isSome

/-- Left out, `null`, or a number from 0 to 1. -/
def thresholdAccepted (value : Option Value) : Prop := ∀ v, value = some v → v = .null ∨ (unitInterval v).isSome

/-- A prompt file that is relative and stays in its directory. -/
def promptFileAccepted (value : Option Value) : Prop :=
  trimmedText value ≠ [] ∧ (trimmedText value).head? ≠ some (unit '/') ∧
    staysInPrompts (posixNormal (trimmedText value)) = true

/-- The routing blocks that the runner accepts. -/
structure RoutingAccepted (routing : List (Text × Value)) : Prop where
  provider : trimmedText (field routing "provider") ≠ []
  model : trimmedText (field routing "model") ≠ []
  transport : knownTransport (field routing "transport") = true
  promptFile : promptFileAccepted (field routing "promptFile")
  timeoutMs : integerAccepted (field routing "timeoutMs") 1000 120000
  retryTimes : integerAccepted (field routing "retryTimes") 0 3
  maxMessages : integerAccepted (nestedField routing "context" "maxMessages") 1 10
  maxChars : integerAccepted (nestedField routing "context" "maxChars") 1000 50000
  threshold : thresholdAccepted (nestedField routing "confidence" "threshold")
  belowThresholdAction : knownAction (nestedField routing "confidence" "belowThresholdAction") = true
  action : knownAction (nestedField routing "fallback" "action") = true

/-- The execution blocks that both accept: with a provider the transport must be known. -/
def ExecutionAccepted (execution : List (Text × Value)) : Prop :=
  trimmedText (field execution "provider") ≠ [] → knownTransport (field execution "transport") = true

theorem transportOf_ok_iff {value : Option Value} {field : String} :
    (∃ t, transportOf value field = .ok t) ↔ knownTransport value = true := by
  unfold transportOf knownTransport
  cases oneOf LlmTransport.text [.responses, .chatCompletions] value <;> simp

theorem routingAction_ok_iff {value : Option Value} {field : String} :
    (∃ a, routingAction value field = .ok a) ↔ knownAction value = true := by
  unfold routingAction knownAction
  cases oneOf RoutingFallbackAction.text [.clarify, .reject] value <;> simp

theorem boundedInteger_ok_iff {value : Option Value} {fallback : ℚ} {field : String} {min max : ℕ} :
    (∃ q, boundedInteger value fallback min max field = .ok q) ↔ integerAccepted value min max := by
  unfold integerAccepted
  cases value with
  | none => exact iff_of_true ⟨fallback, rfl⟩ fun v hv => (nomatch hv)
  | some v =>
    cases hv : integerIn min max v with
    | none => simp [boundedInteger, hv]
    | some q => simp [boundedInteger, hv]

theorem runnerThreshold_ok_iff {value : Option Value} :
    (∃ q, runnerThreshold value = .ok q) ↔ thresholdAccepted value := by
  unfold thresholdAccepted
  cases value with
  | none => exact iff_of_true ⟨_, rfl⟩ fun v hv => (nomatch hv)
  | some v =>
    by_cases hnull : v = .null
    · subst hnull
      exact iff_of_true ⟨_, rfl⟩ fun v hv => .inl (Option.some.inj hv).symm
    · rw [runnerThreshold_some hnull]
      cases hv : unitInterval v with
      | none => simp [hv, hnull]
      | some q => simp [hv]

theorem requiredText_ok_iff {value : Option Value} {message : String} :
    (∃ t, requiredText value message = .ok t) ↔ trimmedText value ≠ [] := by
  constructor
  · rintro ⟨t, ht⟩
    exact (requiredText_eq_ok.mp ht).1
  · intro hne
    exact ⟨_, requiredText_eq_ok.mpr ⟨hne, rfl⟩⟩

theorem promptFileOf_ok_iff {value : Option Value} : (∃ n, promptFileOf value = .ok n) ↔ promptFileAccepted value := by
  constructor
  · rintro ⟨n, hn⟩
    obtain ⟨hne, hrelative, hstays, rfl⟩ := promptFileOf_eq_ok.mp hn
    exact ⟨hne, hrelative, hstays⟩
  · rintro ⟨hne, hrelative, hstays⟩
    exact ⟨_, promptFileOf_eq_ok.mpr ⟨hne, hrelative, hstays, rfl⟩⟩

/-! ### The routing block -/

/-- What the runner builds, part by part. -/
structure RoutingRead (routing : List (Text × Value)) (c : RoutingLlmConfig) : Prop where
  provider : requiredText (field routing "provider") "llm.routing.provider is required when routing is enabled" =
    .ok c.provider
  model : requiredText (field routing "model") "llm.routing.model is required when routing is enabled" = .ok c.model
  threshold : runnerThreshold (nestedField routing "confidence" "threshold") = .ok c.threshold
  transport : ∃ t, transportOf (field routing "transport") "llm.routing.transport" = .ok t ∧
    c.transport = t.getD .chatCompletions
  promptFile : promptFileOf (field routing "promptFile") = .ok c.promptFile
  timeoutMs : boundedInteger (field routing "timeoutMs") defaultRoutingTimeoutMs 1000 120000
    "llm.routing.timeoutMs" = .ok c.timeoutMs
  retryTimes : boundedInteger (field routing "retryTimes") defaultRoutingRetryTimes 0 3
    "llm.routing.retryTimes" = .ok c.retryTimes
  maxMessages : boundedInteger (nestedField routing "context" "maxMessages") defaultRoutingMaxMessages 1 10
    "llm.routing.context.maxMessages" = .ok c.maxMessages
  maxChars : boundedInteger (nestedField routing "context" "maxChars") defaultRoutingMaxChars 1000 50000
    "llm.routing.context.maxChars" = .ok c.maxChars
  belowThresholdAction : ∃ a, routingAction (nestedField routing "confidence" "belowThresholdAction")
    "llm.routing.confidence.belowThresholdAction" = .ok a ∧ c.belowThresholdAction = a.getD .clarify
  action : ∃ a, routingAction (nestedField routing "fallback" "action") "llm.routing.fallback.action" = .ok a ∧
    c.action = a.getD .clarify

theorem fallbackAction_eq_ok {value : Option Value} {field : String} {b : RoutingFallbackAction} :
    fallbackAction value field = .ok b ↔ ∃ a, routingAction value field = .ok a ∧ b = a.getD .clarify := by
  unfold fallbackAction
  cases routingAction value field with
  | error e => simp [Except.map]
  | ok a => simp [Except.map, eq_comm]

theorem buildRoutingLlm_eq_ok {routing : List (Text × Value)} {c : RoutingLlmConfig} :
    buildRoutingLlm routing = .ok c ↔ RoutingRead routing c := by
  simp only [buildRoutingLlm, bind_eq_ok]
  constructor
  · rintro ⟨provider, hprovider, model, hmodel, threshold, hthreshold, transport, htransport, promptFile, hprompt,
      timeoutMs, htimeout, retryTimes, hretry, maxMessages, hmessages, maxChars, hchars, below, hbelow, action,
      haction, hconfig⟩
    obtain rfl := Except.ok.inj hconfig
    exact ⟨hprovider, hmodel, hthreshold, ⟨transport, htransport, rfl⟩, hprompt, htimeout, hretry, hmessages, hchars,
      fallbackAction_eq_ok.mp hbelow, fallbackAction_eq_ok.mp haction⟩
  · intro h
    obtain ⟨t, ht, htransport⟩ := h.transport
    refine ⟨_, h.provider, _, h.model, _, h.threshold, t, ht, _, h.promptFile, _, h.timeoutMs, _, h.retryTimes, _,
      h.maxMessages, _, h.maxChars, _, fallbackAction_eq_ok.mpr h.belowThresholdAction, _,
      fallbackAction_eq_ok.mpr h.action, ?_⟩
    rw [← htransport]

/-- **The routing blocks that the runner accepts.** -/
theorem buildRoutingLlm_ok_iff {routing : List (Text × Value)} :
    (∃ c, buildRoutingLlm routing = .ok c) ↔ RoutingAccepted routing := by
  constructor
  · rintro ⟨c, hc⟩
    have h := buildRoutingLlm_eq_ok.mp hc
    obtain ⟨t, ht, -⟩ := h.transport
    obtain ⟨a, ha, -⟩ := h.belowThresholdAction
    obtain ⟨b, hb, -⟩ := h.action
    exact ⟨requiredText_ok_iff.mp ⟨_, h.provider⟩, requiredText_ok_iff.mp ⟨_, h.model⟩, transportOf_ok_iff.mp ⟨t, ht⟩,
      promptFileOf_ok_iff.mp ⟨_, h.promptFile⟩, boundedInteger_ok_iff.mp ⟨_, h.timeoutMs⟩,
      boundedInteger_ok_iff.mp ⟨_, h.retryTimes⟩, boundedInteger_ok_iff.mp ⟨_, h.maxMessages⟩,
      boundedInteger_ok_iff.mp ⟨_, h.maxChars⟩, runnerThreshold_ok_iff.mp ⟨_, h.threshold⟩,
      routingAction_ok_iff.mp ⟨a, ha⟩, routingAction_ok_iff.mp ⟨b, hb⟩⟩
  · intro h
    obtain ⟨provider, hprovider⟩ := requiredText_ok_iff.mpr h.provider
    obtain ⟨model, hmodel⟩ := requiredText_ok_iff.mpr h.model
    obtain ⟨threshold, hthreshold⟩ := runnerThreshold_ok_iff.mpr h.threshold
    obtain ⟨transport, htransport⟩ := transportOf_ok_iff.mpr h.transport
    obtain ⟨promptFile, hprompt⟩ := promptFileOf_ok_iff.mpr h.promptFile
    obtain ⟨timeoutMs, htimeout⟩ := boundedInteger_ok_iff.mpr h.timeoutMs
    obtain ⟨retryTimes, hretry⟩ := boundedInteger_ok_iff.mpr h.retryTimes
    obtain ⟨maxMessages, hmessages⟩ := boundedInteger_ok_iff.mpr h.maxMessages
    obtain ⟨maxChars, hchars⟩ := boundedInteger_ok_iff.mpr h.maxChars
    obtain ⟨below, hbelow⟩ := routingAction_ok_iff.mpr h.belowThresholdAction
    obtain ⟨action, haction⟩ := routingAction_ok_iff.mpr h.action
    exact ⟨{ provider, model, threshold, promptFile, timeoutMs, retryTimes, maxMessages, maxChars
             transport := transport.getD .chatCompletions
             belowThresholdAction := below.getD .clarify
             action := action.getD .clarify },
      buildRoutingLlm_eq_ok.mpr ⟨hprovider, hmodel, hthreshold, ⟨transport, htransport, rfl⟩, hprompt, htimeout, hretry,
        hmessages, hchars, ⟨below, hbelow, rfl⟩, ⟨action, haction, rfl⟩⟩⟩

/-- **The host accepts the same**, but for a `null` threshold. -/
theorem normalizeRoutingLlm_ok_iff {routing : List (Text × Value)} :
    (∃ w, normalizeRoutingLlm routing = .ok w) ↔
      RoutingAccepted routing ∧ nestedField routing "confidence" "threshold" ≠ some .null := by
  simp only [normalizeRoutingLlm, bind_eq_ok]
  constructor
  · rintro ⟨w, transport, htransport, timeoutMs, htimeout, retryTimes, hretry, maxMessages, hmessages, maxChars, hchars,
      threshold, hthreshold, below, hbelow, action, haction, provider, hprovider, model, hmodel, promptFile, hprompt, -⟩
    have hinteger : ∀ {value w : Option Value} {field : String} {min max : ℕ},
        optionalRoutingInteger value field min max = .ok w → integerAccepted value min max := by
      intro value w field min max hw
      exact boundedInteger_ok_iff.mp ((@integer_ok_iff value 0 field min max).mpr ⟨w, hw⟩)
    obtain ⟨hread, hnull⟩ := threshold_ok_iff.mp ⟨_, hthreshold⟩
    exact ⟨⟨requiredText_ok_iff.mp ⟨_, hprovider⟩, requiredText_ok_iff.mp ⟨_, hmodel⟩, transportOf_ok_iff.mp ⟨_, htransport⟩,
      promptFileOf_ok_iff.mp ⟨_, hprompt⟩, hinteger htimeout, hinteger hretry, hinteger hmessages, hinteger hchars,
      runnerThreshold_ok_iff.mp hread, routingAction_ok_iff.mp ⟨_, hbelow⟩, routingAction_ok_iff.mp ⟨_, haction⟩⟩, hnull⟩
  · rintro ⟨h, hnull⟩
    have hinteger : ∀ {value : Option Value} (field : String) {min max : ℕ},
        integerAccepted value min max → ∃ w, optionalRoutingInteger value field min max = .ok w := by
      intro value field min max haccepted
      exact (@integer_ok_iff value 0 field min max).mp (boundedInteger_ok_iff.mpr haccepted)
    obtain ⟨transport, htransport⟩ := transportOf_ok_iff.mpr h.transport
    obtain ⟨timeoutMs, htimeout⟩ := hinteger "llm.routing.timeoutMs" h.timeoutMs
    obtain ⟨retryTimes, hretry⟩ := hinteger "llm.routing.retryTimes" h.retryTimes
    obtain ⟨maxMessages, hmessages⟩ := hinteger "llm.routing.context.maxMessages" h.maxMessages
    obtain ⟨maxChars, hchars⟩ := hinteger "llm.routing.context.maxChars" h.maxChars
    obtain ⟨threshold, hthreshold⟩ := threshold_ok_iff.mpr ⟨runnerThreshold_ok_iff.mpr h.threshold, hnull⟩
    obtain ⟨below, hbelow⟩ := routingAction_ok_iff.mpr h.belowThresholdAction
    obtain ⟨action, haction⟩ := routingAction_ok_iff.mpr h.action
    obtain ⟨provider, hprovider⟩ := requiredText_ok_iff.mpr h.provider
    obtain ⟨model, hmodel⟩ := requiredText_ok_iff.mpr h.model
    obtain ⟨promptFile, hprompt⟩ := promptFileOf_ok_iff.mpr h.promptFile
    exact ⟨_, transport, htransport, timeoutMs, htimeout, retryTimes, hretry, maxMessages, hmessages, maxChars, hchars,
      threshold, hthreshold, below, hbelow, action, haction, provider, hprovider, model, hmodel, promptFile, hprompt, rfl⟩

/-- A block that is only there when the file has it. -/
theorem nested_written {fields : List (Text × Value)} {name : String} {block : Option (List (Text × Value))}
    {properties : List (String × Option Value)}
    (hblock : field fields name = (block.map fun _ => objectOf properties).map rewritten)
    (hnames : InOrder (properties.map fun p => ofString p.1))
    (hvalues : ∀ p ∈ properties, ∀ v, p.2 = some v → v.Ordered) (hnone : block = none → ∀ p ∈ properties, p.2 = none) :
    ∀ p ∈ properties, nestedField fields name p.1 = p.2.map rewritten := by
  intro p hp
  rw [nestedField, hblock]
  cases block with
  | none =>
    rw [hnone rfl p hp]
    rfl
  | some fields =>
    obtain ⟨fields', hfields, hfield⟩ := rewritten_objectOf hnames hvalues
    rw [Option.map_some, Option.map_some, hfields]
    exact hfield p hp

/-- What a property may be: left out, or a value in property order. -/
theorem ordered_map {α : Type} {f : α → Value} (hf : ∀ a, (f a).Ordered) (o : Option α) :
    ∀ v, o.map f = some v → v.Ordered := by
  intro v hv
  obtain ⟨a, -, rfl⟩ := Option.map_eq_some_iff.mp hv
  exact hf a

theorem ordered_str (t : Text) : (Json.str t : Value).Ordered := trivial

theorem ordered_text (t : Text) : ∀ v, text t = some v → v.Ordered := ordered_map ordered_str (some t)

/-- The names of the blocks are in property order: none is an array index. -/
theorem contextProperties_inOrder (maxMessages maxChars : Option Value) :
    InOrder ((contextProperties maxMessages maxChars).map fun p => ofString p.1) := by
  show InOrder (["maxMessages", "maxChars"].map ofString)
  unfold InOrder
  decide

theorem confidenceProperties_inOrder (threshold : Option Value) (below : Option RoutingFallbackAction) :
    InOrder ((confidenceProperties threshold below).map fun p => ofString p.1) := by
  show InOrder (["threshold", "belowThresholdAction"].map ofString)
  unfold InOrder
  decide

theorem fallbackProperties_inOrder (action : RoutingFallbackAction) :
    InOrder ((fallbackProperties action).map fun p => ofString p.1) := by
  show InOrder (["action"].map ofString)
  unfold InOrder
  decide

theorem routingProperties_inOrder (provider model promptFile : Text) (transport : Option LlmTransport)
    (timeoutMs retryTimes context confidence fallback : Option Value) :
    InOrder ((routingProperties provider model promptFile transport timeoutMs retryTimes context confidence
      fallback).map fun p => ofString p.1) := by
  show InOrder (["enabled", "provider", "model", "promptFile", "transport", "timeoutMs", "retryTimes", "context",
    "confidence", "fallback"].map ofString)
  unfold InOrder
  decide

theorem executionProperties_inOrder (provider model : Text) (transport : Option LlmTransport) :
    InOrder ((executionProperties provider model transport).map fun p => ofString p.1) := by
  show InOrder (["provider", "model", "transport"].map ofString)
  unfold InOrder
  decide

/-- And so are the values, when those from the file are. -/
theorem contextProperties_ordered {maxMessages maxChars : Option Value}
    (hmessages : ∀ v, maxMessages = some v → v.Ordered) (hchars : ∀ v, maxChars = some v → v.Ordered) :
    ∀ p ∈ contextProperties maxMessages maxChars, ∀ v, p.2 = some v → v.Ordered :=
  List.forall_mem_cons.mpr ⟨hmessages, List.forall_mem_singleton.mpr hchars⟩

theorem confidenceProperties_ordered {threshold : Option Value} (hthreshold : ∀ v, threshold = some v → v.Ordered)
    (below : Option RoutingFallbackAction) :
    ∀ p ∈ confidenceProperties threshold below, ∀ v, p.2 = some v → v.Ordered :=
  List.forall_mem_cons.mpr ⟨hthreshold, List.forall_mem_singleton.mpr (ordered_map (fun a => ordered_str a.text) below)⟩

theorem fallbackProperties_ordered (action : RoutingFallbackAction) :
    ∀ p ∈ fallbackProperties action, ∀ v, p.2 = some v → v.Ordered :=
  List.forall_mem_singleton.mpr (ordered_text action.text)

theorem routingProperties_ordered {provider model promptFile : Text} {transport : Option LlmTransport}
    {timeoutMs retryTimes context confidence fallback : Option Value}
    (hnumbers : ∀ o ∈ [timeoutMs, retryTimes], ∀ v, o = some v → v.Ordered)
    (hblocks : ∀ o ∈ [context, confidence, fallback], ∀ v, o = some v → v.Ordered) :
    ∀ p ∈ routingProperties provider model promptFile transport timeoutMs retryTimes context confidence fallback,
      ∀ v, p.2 = some v → v.Ordered := by
  have henabled : ∀ v : Value, some (.bool true) = some v → v.Ordered := by
    intro v hv
    obtain rfl := Option.some.inj hv
    exact trivial
  have htransport := ordered_map (fun t : LlmTransport => ordered_str t.text) transport
  simp only [List.forall_mem_cons, List.not_mem_nil, false_implies, implies_true, and_true] at hnumbers hblocks
  simp only [routingProperties, List.forall_mem_cons, List.not_mem_nil, false_implies, implies_true, and_true]
  exact ⟨henabled, ordered_text provider, ordered_text model, ordered_text promptFile, htransport, hnumbers.1, hnumbers.2,
    hblocks⟩

/-- A routing block as it is written, when the numbers in it are in order. -/
theorem writtenRouting_ordered {provider model promptFile : Text} {transport : Option LlmTransport}
    {timeoutMs retryTimes maxMessages maxChars threshold : Option Value} {below action : Option RoutingFallbackAction}
    {context confidence : Option (List (Text × Value))}
    (hnumbers : ∀ o ∈ [timeoutMs, retryTimes, maxMessages, maxChars, threshold], ∀ v, o = some v → v.Ordered) :
    ∀ p ∈ routingProperties provider model promptFile transport timeoutMs retryTimes
      (context.map fun _ => objectOf (contextProperties maxMessages maxChars))
      (confidence.map fun _ => objectOf (confidenceProperties threshold below))
      (action.map fun a => objectOf (fallbackProperties a)), ∀ v, p.2 = some v → v.Ordered := by
  simp only [List.forall_mem_cons, List.not_mem_nil, false_implies, implies_true, and_true] at hnumbers
  obtain ⟨htimeout, hretry, hmessages, hchars, hthreshold⟩ := hnumbers
  have hcontext := ordered_map (fun _ => ordered_objectOf (contextProperties_inOrder maxMessages maxChars)
    (contextProperties_ordered hmessages hchars)) context
  have hconfidence := ordered_map (fun _ => ordered_objectOf (confidenceProperties_inOrder threshold below)
    (confidenceProperties_ordered hthreshold below)) confidence
  have hfallback := ordered_map (fun a => ordered_objectOf (fallbackProperties_inOrder a) (fallbackProperties_ordered a))
    action
  exact routingProperties_ordered
    (List.forall_mem_cons.mpr ⟨htimeout, List.forall_mem_singleton.mpr hretry⟩)
    (List.forall_mem_cons.mpr ⟨hcontext, List.forall_mem_cons.mpr ⟨hconfidence, List.forall_mem_singleton.mpr hfallback⟩⟩)

theorem executionProperties_ordered (provider model : Text) (transport : Option LlmTransport) :
    ∀ p ∈ executionProperties provider model transport, ∀ v, p.2 = some v → v.Ordered := by
  have hmodel : ∀ v, (if model = [] then none else text model) = some v → v.Ordered := by
    split
    · intro v hv
      cases hv
    · exact ordered_text model
  exact List.forall_mem_cons.mpr ⟨ordered_text provider, List.forall_mem_cons.mpr ⟨hmodel,
    List.forall_mem_singleton.mpr (ordered_map (fun t : LlmTransport => ordered_str t.text) transport)⟩⟩

theorem requiredText_text {value : Option Value} {message : String} {t : Text} (h : requiredText value message = .ok t)
    (message' : String) : requiredText ((text t).map rewritten) message' = .ok t := by
  obtain ⟨hne, rfl⟩ := requiredText_eq_ok.mp h
  have htext : trimmedText ((text (trimmedText value)).map rewritten) = trimmedText value := trimText_trimmedText value
  refine requiredText_eq_ok.mpr ⟨?_, htext.symm⟩
  rw [htext]
  exact hne

/-- The texts that are required are the same on both sides. -/
theorem requiredText_agrees {value : Option Value} {message message' : String} {t u : Text}
    (h : requiredText value message = .ok t) (h' : requiredText value message' = .ok u) : t = u :=
  (requiredText_eq_ok.mp h).2.trans (requiredText_eq_ok.mp h').2.symm

/-- **The routing block that is written back** is enabled, and read as before if its prompt file is. -/
theorem buildRoutingLlm_written {routing : List (Text × Value)} {w : Value} {c : RoutingLlmConfig}
    (hw : normalizeRoutingLlm routing = .ok w) (hc : buildRoutingLlm routing = .ok c) :
    w.Ordered ∧ ∃ fields, rewritten w = .obj fields ∧ isTrue (field fields "enabled") = true ∧
      (buildRoutingLlm fields = .ok c ↔ trimText c.promptFile = c.promptFile) := by
  obtain ⟨hprovider', hmodel', hthreshold', ⟨transport', htransport', htransportc⟩, hprompt', htimeout', hretry',
    hmessages', hchars', ⟨below', hbelow', hbelowc⟩, ⟨action', haction', hactionc⟩⟩ := buildRoutingLlm_eq_ok.mp hc
  simp only [normalizeRoutingLlm, bind_eq_ok] at hw
  obtain ⟨transport, htransport, timeoutMs, htimeout, retryTimes, hretry, maxMessages, hmessages, maxChars, hchars,
    threshold, hthreshold, below, hbelow, action, haction, provider, hprovider, model, hmodel, promptFile, hprompt,
    hresult⟩ := hw
  obtain rfl := Except.ok.inj hresult
  obtain rfl : transport' = transport := Except.ok.inj (htransport'.symm.trans htransport)
  obtain rfl : below' = below := Except.ok.inj (hbelow'.symm.trans hbelow)
  obtain rfl : action' = action := Except.ok.inj (haction'.symm.trans haction)
  obtain rfl : c.promptFile = promptFile := Except.ok.inj (hprompt'.symm.trans hprompt)
  obtain rfl : c.provider = provider := requiredText_agrees hprovider' hprovider
  obtain rfl : c.model = model := requiredText_agrees hmodel' hmodel
  have hcontext := contextProperties_ordered (integer_ordered hmessages) (integer_ordered hchars)
  have hconfidence := confidenceProperties_ordered (threshold_ordered hthreshold) below'
  have hnumbers : ∀ o ∈ [timeoutMs, retryTimes, maxMessages, maxChars, threshold], ∀ v, o = some v → v.Ordered := by
    simp only [List.forall_mem_cons, List.not_mem_nil, false_implies, implies_true, and_true]
    exact ⟨integer_ordered htimeout, integer_ordered hretry, integer_ordered hmessages, integer_ordered hchars,
      threshold_ordered hthreshold⟩
  have hordered := @writtenRouting_ordered c.provider c.model c.promptFile transport' timeoutMs retryTimes maxMessages
    maxChars threshold below' action' (isRecord (field routing "context")) (isRecord (field routing "confidence")) hnumbers
  obtain ⟨fields, hfields, hfield⟩ := rewritten_objectOf (routingProperties_inOrder _ _ _ _ _ _ _ _ _) hordered
  refine ⟨ordered_objectOf (routingProperties_inOrder _ _ _ _ _ _ _ _ _) hordered, fields, hfields, ?_⟩
  simp only [routingProperties, List.forall_mem_cons, List.not_mem_nil, false_implies, implies_true, and_true] at hfield
  obtain ⟨fenabled, fprovider, fmodel, fpromptFile, ftransport, ftimeout, fretry, fcontext, fconfidence, ffallback⟩ :=
    hfield
  have hcontextField := nested_written fcontext (contextProperties_inOrder _ _) hcontext (by
    intro hnone
    rw [hnone] at hmessages hchars
    exact List.forall_mem_cons.mpr ⟨(Except.ok.inj hmessages).symm,
      List.forall_mem_singleton.mpr (Except.ok.inj hchars).symm⟩)
  have hconfidenceField := nested_written fconfidence (confidenceProperties_inOrder _ _) hconfidence (by
    intro hnone
    rw [hnone] at hthreshold hbelow
    refine List.forall_mem_cons.mpr ⟨(Except.ok.inj hthreshold).symm, List.forall_mem_singleton.mpr ?_⟩
    rw [← Except.ok.inj hbelow]
    rfl)
  have hactionField : nestedField fields "fallback" "action" = (action'.map fun a => .str a.text).map rewritten := by
    rw [nestedField, ffallback]
    cases action' with
    | none => rfl
    | some a =>
      obtain ⟨fields', hfields', hfield'⟩ := rewritten_objectOf (fallbackProperties_inOrder a) (fallbackProperties_ordered a)
      rw [Option.map_some, Option.map_some, hfields']
      exact hfield' _ (List.mem_singleton.mpr rfl)
  simp only [contextProperties, confidenceProperties, List.forall_mem_cons, List.not_mem_nil, false_implies,
    implies_true, and_true] at hcontextField hconfidenceField
  have hprompt_iff : promptFileOf (field fields "promptFile") = .ok c.promptFile ↔ trimText c.promptFile = c.promptFile := by
    rw [fpromptFile]
    exact promptFile_stable_iff hprompt
  refine ⟨by rw [fenabled]; rfl, ?_⟩
  rw [buildRoutingLlm_eq_ok]
  constructor
  · intro h
    exact hprompt_iff.mp h.promptFile
  · intro htrim
    refine ⟨?_, ?_, ?_, ⟨transport', ?_, htransportc⟩, hprompt_iff.mpr htrim, ?_, ?_, ?_, ?_, ⟨below', ?_, hbelowc⟩,
      ⟨action', ?_, hactionc⟩⟩
    · rw [fprovider]
      exact requiredText_text hprovider _
    · rw [fmodel]
      exact requiredText_text hmodel _
    · rw [hconfidenceField.1, threshold_rewritten hthreshold]
      exact hthreshold'
    · rw [ftransport, transportOf_text]
    · rw [ftimeout, integer_rewritten htimeout]
      exact htimeout'
    · rw [fretry, integer_rewritten hretry]
      exact hretry'
    · rw [hcontextField.1, integer_rewritten hmessages]
      exact hmessages'
    · rw [hcontextField.2, integer_rewritten hchars]
      exact hchars'
    · rw [hconfidenceField.2, routingAction_text]
    · rw [hactionField, routingAction_text]

/-! ### The execution block -/

theorem transport_cases (value : Option Value) (field : String) :
    (∃ t, transportOf value field = .ok t ∧ knownTransport value = true) ∨
      (∃ e, transportOf value field = .error e ∧ knownTransport value = false) := by
  unfold transportOf knownTransport
  cases oneOf LlmTransport.text [.responses, .chatCompletions] value with
  | none => exact .inr ⟨_, rfl, rfl⟩
  | some t => exact .inl ⟨t, rfl, rfl⟩

theorem buildExecutionLlm_ok_iff {execution : List (Text × Value)} :
    (∃ c, buildExecutionLlm execution = .ok c) ↔ ExecutionAccepted execution := by
  unfold buildExecutionLlm ExecutionAccepted
  by_cases hprovider : trimmedText (field execution "provider") = []
  · simp [hprovider]
  · simp only [hprovider, if_false, ne_eq, not_false_eq_true, true_implies]
    obtain ⟨t, ht, hknown⟩ | ⟨e, he, hunknown⟩ :=
      transport_cases (field execution "transport") "llm.execution.transport"
    · simp [ht, hknown, Except.map]
    · simp [he, hunknown, Except.map]

theorem normalizeExecutionLlm_ok_iff {execution : List (Text × Value)} :
    (∃ w, normalizeExecutionLlm execution = .ok w) ↔ ExecutionAccepted execution := by
  unfold normalizeExecutionLlm ExecutionAccepted
  by_cases hprovider : trimmedText (field execution "provider") = []
  · simp [hprovider]
  · simp only [hprovider, if_false, ne_eq, not_false_eq_true, true_implies]
    obtain ⟨t, ht, hknown⟩ | ⟨e, he, hunknown⟩ :=
      transport_cases (field execution "transport") "llm.execution.transport"
    · simp [ht, hknown, Except.map]
    · simp [he, hunknown, Except.map]

/-- What the runner builds depends on the two texts and the transport. -/
theorem buildExecutionLlm_congr {execution execution' : List (Text × Value)}
    (hprovider : trimmedText (field execution' "provider") = trimmedText (field execution "provider"))
    (hmodel : trimmedText (field execution' "model") = trimmedText (field execution "model"))
    (htransport : transportOf (field execution' "transport") "llm.execution.transport" =
      transportOf (field execution "transport") "llm.execution.transport") :
    buildExecutionLlm execution' = buildExecutionLlm execution := by
  unfold buildExecutionLlm
  rw [hprovider, hmodel, htransport]

/-- **The execution block that is written back** is read as before. -/
theorem buildExecutionLlm_written {execution : List (Text × Value)} {w : Value}
    (hw : normalizeExecutionLlm execution = .ok (some w)) :
    w.Ordered ∧ ∃ fields, rewritten w = .obj fields ∧ buildExecutionLlm fields = buildExecutionLlm execution := by
  unfold normalizeExecutionLlm at hw
  by_cases hprovider : trimmedText (field execution "provider") = []
  · simp [hprovider] at hw
  · simp only [hprovider, if_false] at hw
    obtain ⟨t, ht, hknown⟩ | ⟨e, he, hunknown⟩ :=
      transport_cases (field execution "transport") "llm.execution.transport"
    · rw [ht] at hw
      obtain rfl := Option.some.inj (Except.ok.inj hw)
      have hordered := executionProperties_ordered (trimmedText (field execution "provider"))
        (trimmedText (field execution "model")) t
      obtain ⟨fields, hfields, hfield⟩ := rewritten_objectOf (executionProperties_inOrder _ _ t) hordered
      simp only [executionProperties, List.forall_mem_cons, List.not_mem_nil, false_implies, implies_true, and_true]
        at hfield
      obtain ⟨fprovider, fmodel, ftransport⟩ := hfield
      refine ⟨ordered_objectOf (executionProperties_inOrder _ _ t) hordered, fields, hfields, ?_⟩
      refine buildExecutionLlm_congr ?_ ?_ ?_
      · rw [fprovider]
        exact trimText_trimmedText _
      · rw [fmodel]
        by_cases hmodel : trimmedText (field execution "model") = []
        · rw [if_pos hmodel, hmodel]
          rfl
        · rw [if_neg hmodel]
          exact trimText_trimmedText _
      · rw [ftransport, transportOf_text, ht]
    · rw [he] at hw
      cases hw

/-- No block is written for an execution model that the runner does not see. -/
theorem buildExecutionLlm_none {execution : List (Text × Value)} (h : normalizeExecutionLlm execution = .ok none) :
    trimmedText (field execution "provider") = [] := by
  by_contra hprovider
  unfold normalizeExecutionLlm at h
  simp only [hprovider, if_false] at h
  obtain ⟨t, ht, -⟩ | ⟨e, he, -⟩ := transport_cases (field execution "transport") "llm.execution.transport"
  · rw [ht] at h
    cases h
  · rw [he] at h
    cases h

/-! ### The field as a whole -/

/-- The path that the prompt file of a routing block is read as. -/
def promptPath (routing : List (Text × Value)) : Text := posixNormal (trimmedText (field routing "promptFile"))

/-- **Host and runner agree on an `llm` field**: the same fields are refused, and what the host writes back is
read by the runner as what the operator wrote. -/
structure HostRunnerAgree (llm : Option Value) : Prop where
  throws : (∃ e, normalizeDualLlmConfig llm = .error e) ↔ ∃ e, buildDualLlmConfig llm = .error e
  same : ∀ written config, readLlm llm = .ok written → buildDualLlmConfig llm = .ok config →
    buildDualLlmConfig (written.map rewritten) = .ok config

theorem readBlock_ok_iff {α β : Type} {read : α → Except String (Option β)} {accepted : α → Prop}
    (hread : ∀ a, (∃ b, read a = .ok b) ↔ accepted a) (block : Option α) :
    (∃ b, readBlock read block = .ok b) ↔ ∀ a, block = some a → accepted a := by
  cases block with
  | none => exact iff_of_true ⟨none, rfl⟩ fun a ha => (nomatch ha)
  | some a => simp [readBlock, hread a]

theorem map_ok_iff {α β : Type} (f : α → β) {x : Except String α} : (∃ b, x.map f = .ok b) ↔ ∃ a, x = .ok a := by
  cases x <;> simp [Except.map]

theorem buildDualLlmConfig_eq_ok {fields : List (Text × Value)} {c : Option DualLlmConfig} :
    buildDualLlmConfig (some (.obj fields)) = .ok c ↔ ∃ execution routing,
      readBlock buildExecutionLlm (blockOf fields "execution") = .ok execution ∧
      readBlock (fun routing => (buildRoutingLlm routing).map some) (enabledRouting fields) = .ok routing ∧
      dualLlmOf routing execution = c := by
  show (readBlock buildExecutionLlm (blockOf fields "execution") >>= _) = _ ↔ _
  simp only [bind_eq_ok, Except.ok.injEq]
  constructor
  · rintro ⟨execution, he, routing, hr, hc⟩
    exact ⟨execution, routing, he, hr, hc⟩
  · rintro ⟨execution, routing, he, hr, hc⟩
    exact ⟨execution, he, routing, hr, hc⟩

theorem normalizeDualLlmConfig_eq_ok {fields : List (Text × Value)} {w : Option Value} :
    normalizeDualLlmConfig (some (.obj fields)) = .ok w ↔ ∃ execution routing,
      readBlock normalizeExecutionLlm (blockOf fields "execution") = .ok execution ∧
      readBlock (fun routing => (normalizeRoutingLlm routing).map some) (enabledRouting fields) = .ok routing ∧
      (if routing.isSome || execution.isSome then some (objectOf (dualProperties execution routing)) else none) = w := by
  show (readBlock normalizeExecutionLlm (blockOf fields "execution") >>= _) = _ ↔ _
  simp only [bind_eq_ok, Except.ok.injEq]
  constructor
  · rintro ⟨execution, he, routing, hr, hw⟩
    exact ⟨execution, routing, he, hr, hw⟩
  · rintro ⟨execution, routing, he, hr, hw⟩
    exact ⟨execution, he, routing, hr, hw⟩

theorem buildDualLlmConfig_ok_iff {fields : List (Text × Value)} :
    (∃ c, buildDualLlmConfig (some (.obj fields)) = .ok c) ↔
      (∀ execution, blockOf fields "execution" = some execution → ExecutionAccepted execution) ∧
        ∀ routing, enabledRouting fields = some routing → RoutingAccepted routing := by
  have hexecution := readBlock_ok_iff (fun e => @buildExecutionLlm_ok_iff e) (blockOf fields "execution")
  have hrouting := readBlock_ok_iff (fun r => (map_ok_iff some).trans (@buildRoutingLlm_ok_iff r)) (enabledRouting fields)
  rw [← hexecution, ← hrouting]
  constructor
  · rintro ⟨c, hc⟩
    obtain ⟨execution, routing, he, hr, -⟩ := buildDualLlmConfig_eq_ok.mp hc
    exact ⟨⟨execution, he⟩, ⟨routing, hr⟩⟩
  · rintro ⟨⟨execution, he⟩, ⟨routing, hr⟩⟩
    exact ⟨_, buildDualLlmConfig_eq_ok.mpr ⟨execution, routing, he, hr, rfl⟩⟩

theorem normalizeDualLlmConfig_ok_iff {fields : List (Text × Value)} :
    (∃ w, normalizeDualLlmConfig (some (.obj fields)) = .ok w) ↔
      (∀ execution, blockOf fields "execution" = some execution → ExecutionAccepted execution) ∧
        ∀ routing, enabledRouting fields = some routing →
          RoutingAccepted routing ∧ nestedField routing "confidence" "threshold" ≠ some .null := by
  have hexecution := readBlock_ok_iff (fun e => @normalizeExecutionLlm_ok_iff e) (blockOf fields "execution")
  have hrouting := readBlock_ok_iff (fun r => (map_ok_iff some).trans (@normalizeRoutingLlm_ok_iff r))
    (enabledRouting fields)
  rw [← hexecution, ← hrouting]
  constructor
  · rintro ⟨w, hw⟩
    obtain ⟨execution, routing, he, hr, -⟩ := normalizeDualLlmConfig_eq_ok.mp hw
    exact ⟨⟨execution, he⟩, ⟨routing, hr⟩⟩
  · rintro ⟨⟨execution, he⟩, ⟨routing, hr⟩⟩
    exact ⟨_, normalizeDualLlmConfig_eq_ok.mpr ⟨execution, routing, he, hr, rfl⟩⟩

theorem throws_iff {α : Type} {x : Except String α} : (∃ e, x = .error e) ↔ ¬ ∃ a, x = .ok a := by
  cases x <;> simp

theorem dualLlmOf_inj {routing routing' : Option RoutingLlmConfig} {execution : Option ExecutionLlmConfig}
    (h : dualLlmOf routing' execution = dualLlmOf routing execution) : routing' = routing := by
  unfold dualLlmOf at h
  cases routing <;> cases routing' <;> cases execution <;> simp_all

/-- The execution block after it was written back. -/
theorem execution_written {block : Option (List (Text × Value))} {execution : Option Value}
    (h : readBlock normalizeExecutionLlm block = .ok execution) :
    (∀ v, execution = some v → v.Ordered) ∧
      readBlock buildExecutionLlm (isRecord (execution.map rewritten)) = readBlock buildExecutionLlm block := by
  cases execution with
  | none =>
    refine ⟨fun v hv => (nomatch hv), ?_⟩
    cases block with
    | none => rfl
    | some fields =>
      have hblank := buildExecutionLlm_none h
      have hbuild : buildExecutionLlm fields = .ok none := by
        unfold buildExecutionLlm
        rw [if_pos hblank]
      exact hbuild.symm
  | some w =>
    cases block with
    | none => cases h
    | some fields =>
      obtain ⟨hordered, fields', hfields', hsame⟩ := buildExecutionLlm_written h
      refine ⟨fun v hv => Option.some.inj hv ▸ hordered, ?_⟩
      rw [Option.map_some, hfields']
      exact hsame

/-- The routing block after it was written back. -/
theorem routing_written {block : Option (List (Text × Value))} {routing : Option Value} {c : Option RoutingLlmConfig}
    (hw : readBlock (fun routing => (normalizeRoutingLlm routing).map some) block = .ok routing)
    (hc : readBlock (fun routing => (buildRoutingLlm routing).map some) block = .ok c) :
    (∀ v, routing = some v → v.Ordered) ∧
      (readBlock (fun routing => (buildRoutingLlm routing).map some)
        ((isRecord (routing.map rewritten)).filter fun routing => isTrue (field routing "enabled")) = .ok c ↔
        ∀ r, block = some r → trimText (promptPath r) = promptPath r) := by
  cases block with
  | none =>
    obtain rfl := Except.ok.inj hw
    exact ⟨fun v hv => (nomatch hv), iff_of_true hc fun r hr => (nomatch hr)⟩
  | some r =>
    obtain ⟨w, hr, rfl⟩ := map_eq_ok.mp hw
    obtain ⟨c', hr', rfl⟩ := map_eq_ok.mp hc
    obtain ⟨hordered, fields, hfields, henabled, hsame⟩ := buildRoutingLlm_written hr hr'
    refine ⟨fun v hv => Option.some.inj hv ▸ hordered, ?_⟩
    have hpath : c'.promptFile = promptPath r :=
      (promptFileOf_eq_ok.mp (buildRoutingLlm_eq_ok.mp hr').promptFile).2.2.2
    have hfilter : (isRecord ((some w).map rewritten)).filter (fun routing => isTrue (field routing "enabled")) =
        some fields := by
      rw [Option.map_some, hfields]
      exact Option.filter_some_pos henabled
    have hread : readBlock (fun routing => (buildRoutingLlm routing).map some) (some fields) = .ok (some c') ↔
        buildRoutingLlm fields = .ok c' := by
      simp [readBlock, map_eq_ok]
    rw [hfilter, hread, hsame, hpath]
    constructor
    · intro htrim r' hr'
      obtain rfl := Option.some.inj hr'
      exact htrim
    · intro hall
      exact hall r rfl

theorem dualProperties_inOrder (execution routing : Option Value) :
    InOrder ((dualProperties execution routing).map fun p => ofString p.1) := by
  show InOrder (["execution", "routing"].map ofString)
  unfold InOrder
  decide

theorem buildDualLlmConfig_written {fields : List (Text × Value)} {w : Value} {c : Option DualLlmConfig}
    (hw : normalizeDualLlmConfig (some (.obj fields)) = .ok (some w))
    (hc : buildDualLlmConfig (some (.obj fields)) = .ok c) :
    buildDualLlmConfig (some (rewritten w)) = .ok c ↔
      ∀ routing, enabledRouting fields = some routing → trimText (promptPath routing) = promptPath routing := by
  obtain ⟨execution, routing, hexecution, hrouting, hresult⟩ := normalizeDualLlmConfig_eq_ok.mp hw
  obtain ⟨execution', routing', hexecution', hrouting', rfl⟩ := buildDualLlmConfig_eq_ok.mp hc
  obtain ⟨hexecutionOrdered, hexecutionSame⟩ := execution_written hexecution
  obtain ⟨hroutingOrdered, hroutingSame⟩ := routing_written hrouting hrouting'
  have hw : w = objectOf (dualProperties execution routing) := by
    split at hresult
    · exact (Option.some.inj hresult).symm
    · cases hresult
  obtain ⟨fields', hfields, hfield⟩ := rewritten_objectOf (dualProperties_inOrder execution routing)
    (List.forall_mem_cons.mpr ⟨hexecutionOrdered, List.forall_mem_singleton.mpr hroutingOrdered⟩)
  simp only [dualProperties, List.forall_mem_cons, List.not_mem_nil, false_implies, implies_true, and_true] at hfield
  have hexecutionBlock : readBlock buildExecutionLlm (blockOf fields' "execution") = .ok execution' := by
    rw [blockOf, hfield.1, hexecutionSame]
    exact hexecution'
  have hroutingBlock : readBlock (fun routing => (buildRoutingLlm routing).map some) (enabledRouting fields') =
      .ok routing' ↔ ∀ r, enabledRouting fields = some r → trimText (promptPath r) = promptPath r := by
    rw [enabledRouting, blockOf, hfield.2]
    exact hroutingSame
  rw [← hroutingBlock, hw, hfields, buildDualLlmConfig_eq_ok]
  constructor
  · rintro ⟨execution'', routing'', he, hr, hsame⟩
    obtain rfl := Except.ok.inj (he.symm.trans hexecutionBlock)
    obtain rfl := dualLlmOf_inj hsame
    exact hr
  · intro hr
    exact ⟨execution', routing', hexecutionBlock, hr, rfl⟩

theorem block_cases {fields : List (Text × Value)} (key : String) :
    blockOf fields key = none ∨ ∃ block, field fields key = some (.obj block) ∧ blockOf fields key = some block := by
  unfold blockOf
  cases field fields key with
  | none => exact .inl rfl
  | some v =>
    cases v with
    | obj block => exact .inr ⟨block, rfl, rfl⟩
    | _ => exact .inl rfl

/-- A block after it was written and parsed. -/
theorem blockOf_rewritten {fields fields' : List (Text × Value)} (ho : (Json.obj fields : Value).Ordered)
    (hfield : ∀ key, field fields' key = (field fields key).map rewritten) (key : String) :
    (blockOf fields key = none ∧ blockOf fields' key = none) ∨
      ∃ block block', blockOf fields key = some block ∧ blockOf fields' key = some block' ∧
        ∀ name, field block' name = (field block name).map rewritten := by
  obtain hnone | ⟨block, hblock, hsome⟩ := @block_cases fields key
  · refine .inl ⟨hnone, ?_⟩
    rw [blockOf, hfield]
    exact isRecord_rewritten hnone
  · obtain ⟨block', hblock', hinside⟩ := field_rewritten (field_ordered ho hblock)
    refine .inr ⟨block, block', hsome, ?_, hinside⟩
    rw [blockOf, hfield, hblock, Option.map_some, hblock']
    rfl

theorem buildDual_none {fields : List (Text × Value)}
    (hexecution : ∀ execution, blockOf fields "execution" = some execution → trimmedText (field execution "provider") = [])
    (hrouting : enabledRouting fields = none) : buildDualLlmConfig (some (.obj fields)) = .ok none := by
  refine buildDualLlmConfig_eq_ok.mpr ⟨none, none, ?_, by rw [hrouting]; rfl, rfl⟩
  cases hblock : blockOf fields "execution" with
  | none => rfl
  | some execution =>
    show buildExecutionLlm execution = .ok none
    unfold buildExecutionLlm
    rw [if_pos (hexecution execution hblock)]

/-- **What the host does not model stays as it is**: the runner sees nothing in it, before and after. -/
theorem readLlm_dormant {fields : List (Text × Value)} (ho : (Json.obj fields : Value).Ordered)
    (h : normalizeDualLlmConfig (some (.obj fields)) = .ok none) :
    buildDualLlmConfig (some (.obj fields)) = .ok none ∧
      buildDualLlmConfig (some (rewritten (.obj fields))) = .ok none := by
  obtain ⟨execution, routing, hexecution, hrouting, hresult⟩ := normalizeDualLlmConfig_eq_ok.mp h
  obtain ⟨rfl, rfl⟩ : execution = none ∧ routing = none := by
    cases execution <;> cases routing <;> simp at hresult ⊢
  have hblank : ∀ execution, blockOf fields "execution" = some execution →
      trimmedText (field execution "provider") = [] := by
    intro execution hblock
    rw [hblock] at hexecution
    exact buildExecutionLlm_none hexecution
  have hdisabled : enabledRouting fields = none := by
    cases henabled : enabledRouting fields with
    | none => rfl
    | some r =>
      rw [henabled] at hrouting
      obtain ⟨w, -, hw⟩ := map_eq_ok.mp hrouting
      cases hw
  obtain ⟨fields', hfields', hfield⟩ := field_rewritten ho
  refine ⟨buildDual_none hblank hdisabled, ?_⟩
  rw [hfields']
  refine buildDual_none ?_ ?_
  · intro execution' hblock'
    obtain ⟨-, hnone⟩ | ⟨block, block', hblock, hsome, hinside⟩ := blockOf_rewritten ho hfield "execution"
    · rw [hnone] at hblock'
      cases hblock'
    · obtain rfl := Option.some.inj (hsome.symm.trans hblock')
      rw [hinside, trimmedText_rewritten]
      exact hblank block hblock
  · obtain ⟨-, hnone⟩ | ⟨block, block', hblock, hsome, hinside⟩ := blockOf_rewritten ho hfield "routing"
    · rw [enabledRouting, hnone]
      rfl
    · rw [enabledRouting, hblock, Option.filter_some_eq_none] at hdisabled
      rw [enabledRouting, hsome, Option.filter_some_eq_none, hinside, isTrue_rewritten]
      exact hdisabled

/-- An enabled routing block is written back. -/
theorem normalized_of_enabled {fields routing : List (Text × Value)} {w : Option Value}
    (hw : normalizeDualLlmConfig (some (.obj fields)) = .ok w) (h : enabledRouting fields = some routing) :
    ∃ v, w = some v := by
  obtain ⟨execution, written, -, hwritten, hresult⟩ := normalizeDualLlmConfig_eq_ok.mp hw
  rw [h] at hwritten
  obtain ⟨v, -, rfl⟩ := map_eq_ok.mp hwritten
  exact ⟨_, hresult.symm⟩

/-- Where one of the two sees no object, neither does the other. -/
theorem agree_of_no_record {llm : Option Value} (h : isRecord llm = none) : HostRunnerAgree llm := by
  have hhost : normalizeDualLlmConfig llm = .ok none := by
    unfold normalizeDualLlmConfig
    rw [h]
  have hrunner : ∀ llm, isRecord llm = none → buildDualLlmConfig llm = .ok none := by
    intro llm hnone
    unfold buildDualLlmConfig
    rw [hnone]
  refine ⟨by rw [hhost, hrunner llm h]; simp, fun written config hw hc => ?_⟩
  rw [readLlm, hhost, h] at hw
  obtain rfl := Except.ok.inj hw
  rw [hrunner llm h] at hc
  rw [← hc]
  exact hrunner _ rfl

/-- **Host and runner agree on an `llm` field** unless it has a routing block that the runner accepts, and there
the threshold is `null` or the normal path of the prompt file is not trimmed. -/
theorem host_runner_agree_iff (raw : JsonObject) :
    HostRunnerAgree (raw.get (ofString "llm")) ↔
      ∀ fields routing, isRecord (raw.get (ofString "llm")) = some fields →
        (∀ execution, blockOf fields "execution" = some execution → ExecutionAccepted execution) →
        enabledRouting fields = some routing → RoutingAccepted routing →
        nestedField routing "confidence" "threshold" ≠ some .null ∧ trimText (promptPath routing) = promptPath routing := by
  cases hllm : raw.get (ofString "llm") with
  | none => exact iff_of_true (agree_of_no_record rfl) fun fields routing h => (nomatch h)
  | some llm =>
    have hordered : llm.Ordered := @field_ordered raw.fields raw.ordered "llm" _ hllm
    obtain hnone | ⟨fields, rfl⟩ : isRecord (some llm) = none ∨ ∃ fields, llm = .obj fields := by
      cases llm with
      | obj fields => exact .inr ⟨fields, rfl⟩
      | _ => exact .inl rfl
    · refine iff_of_true (agree_of_no_record hnone) fun fields routing h => ?_
      rw [hnone] at h
      cases h
    · have hthrows := @throws_iff _ (buildDualLlmConfig (some (.obj fields)))
      have hhost := @throws_iff _ (normalizeDualLlmConfig (some (.obj fields)))
      rw [buildDualLlmConfig_ok_iff] at hthrows
      rw [normalizeDualLlmConfig_ok_iff] at hhost
      constructor
      · rintro ⟨hsame, hwritten⟩ fields' routing hfields hexecution hrouting haccepted
        obtain rfl := Option.some.inj hfields
        have hall : ∀ r, enabledRouting fields = some r → RoutingAccepted r := by
          intro r hr
          obtain rfl := Option.some.inj (hrouting.symm.trans hr)
          exact haccepted
        rw [hhost, hthrows, not_iff_not] at hsame
        have hboth := hsame.mpr ⟨hexecution, hall⟩
        obtain ⟨w, hw⟩ := normalizeDualLlmConfig_ok_iff.mpr hboth
        obtain ⟨c, hc⟩ := buildDualLlmConfig_ok_iff.mpr ⟨hexecution, hall⟩
        obtain ⟨w, rfl⟩ := normalized_of_enabled hw hrouting
        have hread : readLlm (some (.obj fields)) = .ok (some w) := map_eq_ok.mpr ⟨some w, hw, rfl⟩
        exact ⟨(hboth.2 routing hrouting).2,
          (buildDualLlmConfig_written hw hc).mp (hwritten (some w) c hread hc) routing hrouting⟩
      · intro hcondition
        have haccepted := fun r hexecution hrouting hall => hcondition fields r rfl hexecution hrouting hall
        refine ⟨?_, fun written config hwritten hc => ?_⟩
        · rw [hhost, hthrows, not_iff_not]
          constructor
          · rintro ⟨hexecution, hrouting⟩
            exact ⟨hexecution, fun r hr => (hrouting r hr).1⟩
          · rintro ⟨hexecution, hrouting⟩
            exact ⟨hexecution, fun r hr => ⟨hrouting r hr, (haccepted r hexecution hr (hrouting r hr)).1⟩⟩
        · obtain ⟨hexecution, hrouting⟩ := buildDualLlmConfig_ok_iff.mp ⟨config, hc⟩
          obtain ⟨normalized, hnormalized, rfl⟩ := map_eq_ok.mp hwritten
          cases normalized with
          | none =>
            obtain ⟨hbefore, hafter⟩ := readLlm_dormant hordered hnormalized
            obtain rfl := Except.ok.inj (hbefore.symm.trans hc)
            exact hafter
          | some w =>
            exact (buildDualLlmConfig_written hnormalized hc).mpr fun r hr =>
              (haccepted r hexecution hr (hrouting r hr)).2

/-- A file with a routing block, and nothing else. -/
def routingFile (promptFile : String) (confidence : Option Value) : JsonObject :=
  cloneFields [(ofString "llm", objectOf [("routing", some (objectOf (routingProperties (ofString "codex")
    (ofString "gpt-5") (ofString promptFile) none none none none confidence none)))])]

/-- **A `null` threshold**: the host refuses the file, the runner starts with the default. -/
theorem null_threshold_differs : ¬ ∀ raw : JsonObject, HostRunnerAgree (raw.get (ofString "llm")) := by
  intro hall
  have hagree := hall (routingFile "prompts/router.md" (some (objectOf [("threshold", some .null)])))
  generalize hllm : (routingFile "prompts/router.md" (some (objectOf [("threshold", some .null)]))).get
    (ofString "llm") = llm at hagree
  have hhost : (normalizeDualLlmConfig llm).isOk = false := by
    rw [← hllm]
    decide
  have hrunner : (buildDualLlmConfig llm).isOk = true := by
    rw [← hllm]
    decide
  cases hread : normalizeDualLlmConfig llm with
  | ok w =>
    rw [hread] at hhost
    cases hhost
  | error e =>
    obtain ⟨e', he'⟩ := hagree.throws.mp ⟨e, hread⟩
    rw [he'] at hrunner
    cases hrunner

end AgentDesk
