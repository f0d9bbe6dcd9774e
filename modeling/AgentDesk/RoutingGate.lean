/-
# The gate of a routed turn

`routing/gate.ts`. A turn that the routing model has decided about runs under a gate: one row of
`session_state`, a JSON text that every process of the container reads before it writes to someone.
A text that does not hold a gate counts as no gate, so that everything rests on the round trip.

* `getRoutingGate_setRoutingGate`: the gate that was set is the gate that is read, whatever it holds.
* `permits_of_allowed`: what is allowed under a gate goes to its origin, or to its worker.

`undefined` and `null` are one here; they differ for a delegating gate without a worker only.
-/
import AgentDesk.JsonRoundTrip

namespace JsonText

/-! ### Object literals -/

/-- What `JSON.stringify` sees of an object literal: the properties that are not `undefined`. -/
def definedFields (properties : List (Text × Option Value)) : List (Text × Value) :=
  properties.filterMap fun p => p.2.map (p.1, ·)

theorem definedFields_names (properties : List (Text × Option Value)) :
    ((definedFields properties).map (·.1)).Sublist (properties.map (·.1)) := by
  induction properties with
  | nil => exact .slnil
  | cons p properties ih =>
    obtain ⟨key, v⟩ := p
    cases v with
    | none => exact ih.cons key
    | some v => exact ih.cons_cons key

theorem lookup_of_notMem {key : Text} {fields : List (Text × Value)} (h : key ∉ fields.map (·.1)) :
    fields.lookup key = none := by
  rw [List.lookup_eq_none_iff]
  intro p hp
  have hne : key ≠ p.1 := fun he => h (he ▸ List.mem_map_of_mem hp)
  simpa using hne

theorem lookup_definedFields {properties : List (Text × Option Value)} (hnames : (properties.map (·.1)).Nodup)
    {key : Text} {v : Option Value} (hv : (key, v) ∈ properties) : (definedFields properties).lookup key = v := by
  induction properties with
  | nil => cases hv
  | cons p properties ih =>
    obtain ⟨key', v'⟩ := p
    obtain ⟨hnot, hrest⟩ := List.nodup_cons.mp hnames
    rcases List.mem_cons.mp hv with he | hmem
    · obtain ⟨rfl, rfl⟩ := Prod.mk.inj he
      cases v with
      | none =>
        have hnone : key ∉ (definedFields properties).map (·.1) := fun h =>
          hnot ((definedFields_names properties).subset h)
        exact lookup_of_notMem hnone
      | some v => exact List.lookup_cons_self
    · have hmap : key ∈ properties.map (·.1) := List.mem_map.mpr ⟨_, hmem, rfl⟩
      have hne : key ≠ key' := fun he => hnot (he ▸ hmap)
      cases v' with
      | none => exact ih hrest hmem
      | some v' =>
        change List.lookup key ((key', v') :: definedFields properties) = v
        rw [List.lookup_cons, beq_false_of_ne hne]
        exact ih hrest hmem

theorem allNumbersFields_iff {p : Binary64.Double → Bool} {fields : List (Text × Value)} :
    allNumbersFields p fields = true ↔ ∀ f ∈ fields, f.2.allNumbers p = true := by
  induction fields with
  | nil => simp [allNumbersFields]
  | cons f fields ih => simp [allNumbersFields, ih]

/-- **Literals come back.** What is written of a literal is parsed to it, when its names are in order and no
value has a number JSON loses. -/
theorem parse_stringify_literal {properties : List (Text × Option Value)}
    (hnames : InOrder (properties.map (·.1)))
    (hvalues : ∀ p ∈ properties, ∀ v, p.2 = some v → v.Ordered ∧ v.writable = true) :
    parse (stringify (.obj (definedFields properties))) = some (.obj (definedFields properties)) := by
  have hfields : ∀ f ∈ definedFields properties, f.2.Ordered ∧ f.2.writable = true := by
    intro f hf
    obtain ⟨p, hp, hpf⟩ := List.mem_filterMap.mp hf
    obtain ⟨v, hv, rfl⟩ := Option.map_eq_some_iff.mp hpf
    exact hvalues p hp v hv
  have ho : Json.Ordered (.obj (definedFields properties)) :=
    ⟨hnames.sublist (definedFields_names properties), allNamesFields_iff.mpr fun f hf => (hfields f hf).1⟩
  have hw : Json.writable (.obj (definedFields properties)) = true :=
    allNumbersFields_iff.mpr fun f hf => (hfields f hf).2
  rw [parse, read_stringify, Option.map_some, (eval_toTree ho).mpr hw]

end JsonText

namespace AgentDesk

open JsonText

/-! ### The gate -/

inductive RoutingAction where
  | delegate | answerSelf | clarify | reject
  deriving DecidableEq, Repr

def RoutingAction.name : RoutingAction → String
  | .delegate => "delegate"
  | .answerSelf => "answer_self"
  | .clarify => "clarify"
  | .reject => "reject"

def RoutingAction.all : List RoutingAction := [.delegate, .answerSelf, .clarify, .reject]

structure RoutingGate where
  decisionId : Text
  anchorId : Text
  action : RoutingAction
  targetAgentGroupId : Option Text
  originChannelType : Option Text
  originPlatformId : Option Text
  originThreadId : Option (Option Text)
  deriving DecidableEq, Repr

/-- `originThreadId ?? null`. -/
def RoutingGate.originThread (gate : RoutingGate) : Option Text := gate.originThreadId.join

def textOrNull : Option Text → Value
  | some t => .str t
  | none => .null

def RoutingGate.properties (gate : RoutingGate) : List (Text × Option Value) :=
  [(ofString "decisionId", some (.str gate.decisionId)),
    (ofString "anchorId", some (.str gate.anchorId)),
    (ofString "action", some (.str (ofString gate.action.name))),
    (ofString "targetAgentGroupId", gate.targetAgentGroupId.map .str),
    (ofString "originChannelType", gate.originChannelType.map .str),
    (ofString "originPlatformId", gate.originPlatformId.map .str),
    (ofString "originThreadId", gate.originThreadId.map textOrNull)]

/-- The value of the `routing:active_gate` row. -/
def setRoutingGate (gate : RoutingGate) : Text := stringify (.obj (definedFields gate.properties))

/-- A property that has to be a string. -/
def textProperty (fields : List (Text × Value)) (key : String) : Option Text :=
  match fields.lookup (ofString key) with
  | some (.str t) => some t
  | _ => none

/-- A property that may be left out, else a string; `none` when it is something else. -/
def optionalTextProperty (fields : List (Text × Value)) (key : String) : Option (Option Text) :=
  match fields.lookup (ofString key) with
  | none => some none
  | some (.str t) => some (some t)
  | _ => none

/-- The same for one that may also be `null`. -/
def nullableTextProperty (fields : List (Text × Value)) (key : String) : Option (Option (Option Text)) :=
  match fields.lookup (ofString key) with
  | none => some none
  | some .null => some (some none)
  | some (.str t) => some (some (some t))
  | _ => none

/-- The gate a text holds. The type of `targetAgentGroupId` is not checked: what is no string is equal
to no platform id. -/
def getRoutingGate (value : Text) : Option RoutingGate :=
  match parse value with
  | some (.obj fields) => do
    let decisionId ← textProperty fields "decisionId"
    let anchorId ← textProperty fields "anchorId"
    let originChannelType ← optionalTextProperty fields "originChannelType"
    let originPlatformId ← optionalTextProperty fields "originPlatformId"
    let originThreadId ← nullableTextProperty fields "originThreadId"
    let name ← textProperty fields "action"
    let action ← RoutingAction.all.find? fun action => ofString action.name = name
    some
      { decisionId, anchorId, action, targetAgentGroupId := textProperty fields "targetAgentGroupId"
        originChannelType, originPlatformId, originThreadId }
  | _ => none

/-! ### The round trip -/

theorem properties_inOrder (gate : RoutingGate) : InOrder (gate.properties.map (·.1)) := by
  let names : List Text := ["decisionId", "anchorId", "action", "targetAgentGroupId", "originChannelType",
    "originPlatformId", "originThreadId"].map ofString
  have hnames : gate.properties.map (·.1) = names := rfl
  have hall : names.Pairwise fun a b => a ≠ b ∧ before a b = true := by decide +kernel
  rw [hnames]
  exact hall

theorem mem_properties {gate : RoutingGate} {p : Text × Option Value} (hp : p ∈ gate.properties) {v : Value}
    (hv : p.2 = some v) : ∃ t, v = textOrNull t := by
  simp only [RoutingGate.properties, List.mem_cons, List.not_mem_nil, or_false] at hp
  rcases hp with rfl | rfl | rfl | rfl | rfl | rfl | rfl
  · exact ⟨some gate.decisionId, (Option.some.inj hv).symm⟩
  · exact ⟨some gate.anchorId, (Option.some.inj hv).symm⟩
  · exact ⟨some (ofString gate.action.name), (Option.some.inj hv).symm⟩
  all_goals
    obtain ⟨t, -, rfl⟩ := Option.map_eq_some_iff.mp hv
  · exact ⟨some t, rfl⟩
  · exact ⟨some t, rfl⟩
  · exact ⟨some t, rfl⟩
  · exact ⟨t, rfl⟩

theorem parse_setRoutingGate (gate : RoutingGate) :
    parse (setRoutingGate gate) = some (.obj (definedFields gate.properties)) := by
  apply parse_stringify_literal (properties_inOrder gate)
  intro p hp v hv
  obtain ⟨t, rfl⟩ := mem_properties hp hv
  cases t <;> exact ⟨trivial, rfl⟩

theorem lookup_properties {gate : RoutingGate} {key : String} {v : Option Value}
    (h : (ofString key, v) ∈ gate.properties) : (definedFields gate.properties).lookup (ofString key) = v :=
  lookup_definedFields (properties_inOrder gate).nodup h

theorem find_action (action : RoutingAction) :
    (RoutingAction.all.find? fun a => ofString a.name = ofString action.name) = some action := by
  cases action <;> decide +kernel

section Properties

variable {gate : RoutingGate} {key : String}

theorem textProperty_properties {t : Option Text} (h : (ofString key, t.map .str) ∈ gate.properties) :
    textProperty (definedFields gate.properties) key = t := by
  rw [textProperty, lookup_properties h]
  cases t <;> rfl

theorem optionalTextProperty_properties {t : Option Text} (h : (ofString key, t.map .str) ∈ gate.properties) :
    optionalTextProperty (definedFields gate.properties) key = some t := by
  rw [optionalTextProperty, lookup_properties h]
  cases t <;> rfl

theorem nullableTextProperty_properties {t : Option (Option Text)}
    (h : (ofString key, t.map textOrNull) ∈ gate.properties) :
    nullableTextProperty (definedFields gate.properties) key = some t := by
  rw [nullableTextProperty, lookup_properties h]
  cases t with
  | none => rfl
  | some t => cases t <;> rfl

end Properties

/-- **The gate that was set is the gate that is read.** -/
theorem getRoutingGate_setRoutingGate (gate : RoutingGate) : getRoutingGate (setRoutingGate gate) = some gate := by
  have hdecision : textProperty (definedFields gate.properties) "decisionId" = some gate.decisionId :=
    textProperty_properties (.head _)
  have hanchor : textProperty (definedFields gate.properties) "anchorId" = some gate.anchorId :=
    textProperty_properties (.tail _ (.head _))
  have haction : textProperty (definedFields gate.properties) "action" = some (ofString gate.action.name) :=
    textProperty_properties (.tail _ (.tail _ (.head _)))
  have htarget : textProperty (definedFields gate.properties) "targetAgentGroupId" = gate.targetAgentGroupId :=
    textProperty_properties (.tail _ (.tail _ (.tail _ (.head _))))
  have hchannel : optionalTextProperty (definedFields gate.properties) "originChannelType" =
      some gate.originChannelType :=
    optionalTextProperty_properties (.tail _ (.tail _ (.tail _ (.tail _ (.head _)))))
  have hplatform : optionalTextProperty (definedFields gate.properties) "originPlatformId" =
      some gate.originPlatformId :=
    optionalTextProperty_properties (.tail _ (.tail _ (.tail _ (.tail _ (.tail _ (.head _))))))
  have hthread : nullableTextProperty (definedFields gate.properties) "originThreadId" = some gate.originThreadId :=
    nullableTextProperty_properties (.tail _ (.tail _ (.tail _ (.tail _ (.tail _ (.tail _ (.head _)))))))
  simp only [getRoutingGate, parse_setRoutingGate, hdecision, hanchor, haction, htarget, hchannel, hplatform, hthread,
    find_action, Option.bind_eq_bind, Option.bind_some]

/-! ### What the gate allows -/

inductive RefusalReason where
  | originDestinationUnavailable | nonOriginDestination | wrongAgentDestination | agentDestinationForbidden
  | opaqueDestinationForbidden
  deriving DecidableEq, Repr

def RefusalReason.text : RefusalReason → String
  | .originDestinationUnavailable => "origin_destination_unavailable"
  | .nonOriginDestination => "non_origin_destination"
  | .wrongAgentDestination => "wrong_agent_destination"
  | .agentDestinationForbidden => "agent_destination_forbidden"
  | .opaqueDestinationForbidden => "opaque_destination_forbidden"

inductive Enforcement where
  | allowed (decisionId : Option Text)
  | refused (decisionId : Text) (reason : RefusalReason)
  deriving DecidableEq, Repr

/-- The channel type of a message to an agent. -/
def agentChannel : Text := ofString "agent"

/-- `!value`. -/
def falsy (value : Option Text) : Bool := value.all (· = [])

/-- Both threads are concrete, and they are not the same. -/
def threadMismatch (sendThread originThread : Option Text) : Prop :=
  sendThread ≠ none ∧ originThread ≠ none ∧ sendThread ≠ originThread

instance (sendThread originThread : Option Text) : Decidable (threadMismatch sendThread originThread) :=
  inferInstanceAs (Decidable (_ ∧ _ ∧ _))

/-- `enforceRoutingDestination`, under the gate that is read. -/
def enforceRoutingDestination (gate : Option RoutingGate) (channelType platformId threadId : Option Text) :
    Enforcement :=
  match gate with
  | none => .allowed none
  | some gate =>
    if channelType ≠ some agentChannel then
      if falsy gate.originChannelType ∨ falsy gate.originPlatformId then
        .refused gate.decisionId .originDestinationUnavailable
      else if channelType ≠ gate.originChannelType ∨ platformId ≠ gate.originPlatformId ∨
          threadMismatch threadId gate.originThread then
        .refused gate.decisionId .nonOriginDestination
      else .allowed (some gate.decisionId)
    else if gate.action = .delegate ∧ platformId = gate.targetAgentGroupId then .allowed (some gate.decisionId)
    else .refused gate.decisionId
      (if gate.action = .delegate then .wrongAgentDestination else .agentDestinationForbidden)

/-- `enforceRoutingOpaqueOutbound`: whom the row goes to cannot be told from it. -/
def enforceRoutingOpaqueOutbound (gate : Option RoutingGate) : Enforcement :=
  match gate with
  | none => .allowed none
  | some gate => .refused gate.decisionId .opaqueDestinationForbidden

/-- A destination under the gate: the worker of a delegation, else the origin, in no other thread of it. -/
def RoutingGate.Permits (gate : RoutingGate) (channelType platformId threadId : Option Text) : Prop :=
  if channelType = some agentChannel then gate.action = .delegate ∧ platformId = gate.targetAgentGroupId
  else channelType = gate.originChannelType ∧ platformId = gate.originPlatformId ∧
    ∀ thread origin, threadId = some thread → gate.originThread = some origin → thread = origin

/-- **What is allowed is permitted.** -/
theorem permits_of_allowed {gate : RoutingGate} {channelType platformId threadId : Option Text}
    {decisionId : Option Text}
    (h : enforceRoutingDestination (some gate) channelType platformId threadId = .allowed decisionId) :
    gate.Permits channelType platformId threadId ∧ decisionId = some gate.decisionId := by
  rw [RoutingGate.Permits]
  by_cases hagent : channelType = some agentChannel
  · rw [if_pos hagent]
    rw [enforceRoutingDestination, if_neg (not_not.mpr hagent)] at h
    by_cases hworker : gate.action = .delegate ∧ platformId = gate.targetAgentGroupId
    · rw [if_pos hworker] at h
      exact ⟨hworker, (Enforcement.allowed.inj h).symm⟩
    · rw [if_neg hworker] at h
      cases h
  · rw [if_neg hagent]
    rw [enforceRoutingDestination, if_pos hagent] at h
    split at h
    · cases h
    · by_cases hother : channelType ≠ gate.originChannelType ∨ platformId ≠ gate.originPlatformId ∨
          threadMismatch threadId gate.originThread
      · rw [if_pos hother] at h
        cases h
      · rw [if_neg hother] at h
        have hsame : ¬threadMismatch threadId gate.originThread := fun hm => hother (.inr (.inr hm))
        refine ⟨⟨?_, ?_, fun thread origin hthread horigin => ?_⟩, (Enforcement.allowed.inj h).symm⟩
        · exact not_not.mp fun hne => hother (.inl hne)
        · exact not_not.mp fun hne => hother (.inr (.inl hne))
        · by_contra hne
          apply hsame
          rw [hthread, horigin]
          exact ⟨nofun, nofun, fun he => hne (Option.some.inj he)⟩

theorem origin_of_allowed {gate : RoutingGate} {channelType platformId threadId : Option Text}
    {decisionId : Option Text} (hagent : channelType ≠ some agentChannel)
    (h : enforceRoutingDestination (some gate) channelType platformId threadId = .allowed decisionId) :
    (channelType ≠ none ∧ channelType = gate.originChannelType) ∧
      platformId ≠ none ∧ platformId = gate.originPlatformId := by
  have hpermits := (permits_of_allowed h).1
  rw [RoutingGate.Permits, if_neg hagent] at hpermits
  obtain ⟨rfl, rfl, -⟩ := hpermits
  rw [enforceRoutingDestination, if_pos hagent] at h
  split at h
  · cases h
  · rename_i hpresent
    refine ⟨⟨fun hnone => hpresent (.inl ?_), rfl⟩, fun hnone => hpresent (.inr ?_), rfl⟩
    · rw [hnone]
      rfl
    · rw [hnone]
      rfl

theorem permits_origin {gate : RoutingGate} (h : gate.originChannelType ≠ some agentChannel) :
    gate.Permits gate.originChannelType gate.originPlatformId gate.originThread := by
  rw [RoutingGate.Permits, if_neg h]
  refine ⟨rfl, rfl, fun thread origin hthread horigin => ?_⟩
  rw [hthread] at horigin
  exact Option.some.inj horigin

end AgentDesk
