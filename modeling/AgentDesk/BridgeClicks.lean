/-
# Clicks on the bridge's question cards

`deliverMessage` records a question (its id, its title and the normalised options as JSON), and the Chat SDK bridge
sends a card for it. A button carries the id and the index of its option as `ncq:<id>:<index>`. A click is decoded in
two places: from the SDK's action event the text is split at its colons and the second part is the id; from a Discord
interaction the id ends at the first colon behind `ncq:`. The option is then looked up in the row of that id.

* `onAction_button`, `handleInteraction_button`: what a click makes of the id and the index.
* `click_iff`: **a click returns the option it shows** exactly when the id has no colon and the option's value survives
  being stored as JSON; through Discord the value must also count as true.
* `colon_id_misread`: a question under `a:b`.
-/
import AgentDesk.JsonCoercion
import AgentDesk.OutboundFields
import AgentDesk.PosixPath

namespace AgentDesk.BridgeClicks

open JsonText

/-- `v ?? fallback`. -/
def coalesce (v fallback : Option Value) : Option Value :=
  match v with
  | none | some .null => fallback
  | some v => some v

structure NormalizedOption where
  label : Option Value
  selectedLabel : Option Value
  value : Option Value

/-- Reading the label of `null` throws. -/
def normalizeOption : Value → Option NormalizedOption
  | .null => none
  | .str raw => some ⟨some (.str raw), some (.str raw), some (.str raw)⟩
  | raw => some
    { label := raw.prop "label"
      selectedLabel := coalesce (raw.prop "selectedLabel") (raw.prop "label")
      value := coalesce (raw.prop "value") (raw.prop "label") }

def normalizeOptions (raws : List Value) : Option (List NormalizedOption) := raws.mapM normalizeOption

/-- The options, where they are an array and none of them is `null`. -/
def optionsOf (content : JsonObject) : Option (List NormalizedOption) :=
  match field content.fields "options" with
  | some (.arr raws) => normalizeOptions raws
  | _ => none

/-! ### Recording the question -/

structure QuestionRow where
  id : Text
  title : Text
  optionsJson : Text
  deriving DecidableEq

def NormalizedOption.json (o : NormalizedOption) : Value :=
  objectOf [("label", o.label), ("selectedLabel", o.selectedLabel), ("value", o.value)]

/-- `JSON.stringify(options)`. -/
def optionsJson (options : List NormalizedOption) : Text := stringify (.arr (options.map NormalizedOption.json))

/-- The row `deliverMessage` records. -/
def pendingRow (content : JsonObject) : Option QuestionRow :=
  if fieldText content.fields (ofString "type") = some (ofString "ask_question") ∧
      truthyValue (field content.fields "questionId") = true then
    match OutboundFields.readString content.fields "questionId" ⟨true, some 256, none, []⟩,
      OutboundFields.readString content.fields "title" ⟨true, some 1024, none, []⟩ with
    | .ok questionId, .ok title =>
      if title = [] then none else (optionsOf content).map fun options => ⟨questionId, title, optionsJson options⟩
    | _, _ => none
  else none

/-! ### The card -/

structure Button where
  id : Text
  label : Option Value
  value : Text

def button (questionId : Text) (idx : ℕ) (opt : NormalizedOption) : Button where
  id := ofString "ncq:" ++ (questionId ++ unit ':' :: decimalText idx)
  label := opt.label
  value := decimalText idx

/-- The buttons of the card the bridge builds for a content, if it builds one. -/
def askCard (content : JsonObject) : Option (List Button) :=
  let is (name text : String) : Bool := fieldText content.fields (ofString name) = some (ofString text)
  let has (name : String) : Bool := truthyValue (field content.fields name)
  if is "operation" "edit" && has "messageId" then none
  else if is "operation" "reaction" && has "messageId" && has "emoji" then none
  else if is "type" "ask_question" && has "questionId" && has "options" then
    if has "title" then
      -- the id is put into a template
      ((field content.fields "questionId").bind Json.toText).bind fun questionId =>
      (optionsOf content).map fun options => options.mapIdx fun idx opt => button questionId idx opt
    else none
  else none

/-! ### Decoding a click -/

structure Tables where
  pendingQuestions : List QuestionRow
  pendingApprovals : List QuestionRow
  /-- The last two are `none` where the module that has them is not installed. -/
  pendingChannelApprovals : Option (List QuestionRow)
  pendingSenderApprovals : Option (List QuestionRow)

structure Render where
  title : Text
  options : List Value

def findRow (rows : List QuestionRow) (id : Text) : Option QuestionRow := rows.find? fun row => row.id = id

/-- A row that has a title. -/
def titledRow (rows : List QuestionRow) (id : Text) : Option QuestionRow :=
  (findRow rows id).filter fun row => row.title ≠ []

/-- `JSON.parse(options_json)`; the host writes arrays there, and what is no JSON throws. -/
def QuestionRow.render (row : QuestionRow) : Option Render :=
  match parse row.optionsJson with
  | some (.arr options) => some ⟨row.title, options⟩
  | _ => none

/-- `none` where it throws. -/
def getAskQuestionRender (tables : Tables) (id : Text) : Option (Option Render) :=
  let row := (findRow tables.pendingQuestions id).or ((titledRow tables.pendingApprovals id).or
    ((titledRow (tables.pendingChannelApprovals.getD []) id).or (titledRow (tables.pendingSenderApprovals.getD []) id)))
  match row with
  | some row => row.render.map some
  | none => some none

/-- `/^\d+$/`. -/
def isIndex (t : Text) : Bool := t ≠ [] && t.all fun c => (digit? c).isSome

def resolveSelectedOption (render : Option Render) (eventValue tail : Option Text) : Option Value :=
  let candidate := (eventValue.or tail).getD []
  let chosen := if isIndex candidate then render.bind fun r => r.options[numeral candidate]? else none
  if truthyValue chosen then chosen.bind fun opt => opt.prop "value" else some (.str candidate)

/-- What the host is called with. -/
structure HostCall where
  questionId : Text
  selectedOption : Option Value
  userId : Text

structure ActionEvent where
  actionId : Text
  value : Option Text
  userId : Text

/-- The calls an action event makes. -/
def onAction (tables : Tables) (event : ActionEvent) : List HostCall :=
  if (ofString "ncq:").isPrefixOf event.actionId then
    match event.actionId.splitOn (unit ':') with
    | _ :: questionId :: first :: rest =>
      let tail := [unit ':'].intercalate (first :: rest)
      match getAskQuestionRender tables questionId with
      | some render => [⟨questionId, resolveSelectedOption render event.value (some tail), event.userId⟩]
      | none => []
    | _ => []
  else []

/-- The question's id and what is behind it, of a `custom_id`. -/
def splitCustomId (customId : Text) : Option (Text × Text) :=
  if (ofString "ncq:").isPrefixOf customId then
    let rest := customId.drop 4
    if unit ':' ∈ rest then
      some (rest.takeWhile (fun c => c ≠ unit ':'), (rest.dropWhile fun c => c ≠ unit ':').tail)
    else none
  else none

/-- The calls a forwarded interaction makes. -/
def handleInteraction (tables : Tables) (customId userId : Text) : List HostCall :=
  let parsed := splitCustomId customId
  let tail := parsed.map (·.2)
  match (parsed.map (·.1)).filter fun questionId => questionId ≠ [] with
  | none => []
  | some questionId => match getAskQuestionRender tables questionId with
    | none => []
    | some render =>
      let selectedOption := resolveSelectedOption render tail tail
      if truthyValue selectedOption then [⟨questionId, selectedOption, userId⟩] else []

/-! ### The index -/

theorem decimalText_noColon (n : ℕ) : unit ':' ∉ decimalText n := by
  intro hmem
  have hdigit := digitUnit_of_mem_decimalText hmem
  exact absurd hdigit.2 (by decide)

theorem isIndex_decimalText (n : ℕ) : isIndex (decimalText n) = true := by
  have hne : decimalText n ≠ [] := by
    intro hnil
    have hvalue := numeral_decimalText n
    have hzero := numeral_decimalText 0
    rw [hnil] at hvalue
    obtain rfl : n = 0 := hvalue.symm
    exact absurd hnil (by decide)
  have hdigits : (decimalText n).all (fun c => (digit? c).isSome) = true := by
    refine List.all_eq_true.mpr fun c hc => ?_
    obtain ⟨d, hd, rfl⟩ := List.mem_map.mp hc
    rw [digit?_digitUnit d (decimalDigits_lt hd)]
    rfl
  simp [isIndex, hne, hdigits]

/-! ### The stored options -/

def NormalizedOption.Ordered (o : NormalizedOption) : Prop :=
  ∀ p ∈ [("label", o.label), ("selectedLabel", o.selectedLabel), ("value", o.value)], ∀ v, p.2 = some v → v.Ordered

theorem prop_ordered {raw : Value} (h : raw.Ordered) {name : String} {v : Value} (hv : raw.prop name = some v) :
    v.Ordered := by
  cases raw with
  | obj fields => exact lookup_ordered h hv
  | _ => cases hv

theorem coalesce_or (v fallback : Option Value) : coalesce v fallback = v ∨ coalesce v fallback = fallback := by
  unfold coalesce
  split
  · exact .inr rfl
  · exact .inr rfl
  · exact .inl rfl

theorem normalizeOption_ordered {raw : Value} (h : raw.Ordered) {o : NormalizedOption}
    (ho : normalizeOption raw = some o) : o.Ordered := by
  have hprops : NormalizedOption.Ordered ⟨raw.prop "label", coalesce (raw.prop "selectedLabel") (raw.prop "label"),
      coalesce (raw.prop "value") (raw.prop "label")⟩ := by
    have hcoalesce : ∀ (name : String) (v : Value),
        coalesce (raw.prop name) (raw.prop "label") = some v → v.Ordered := by
      intro name v hv
      rcases coalesce_or (raw.prop name) (raw.prop "label") with heq | heq
      · exact prop_ordered h (heq.symm.trans hv)
      · exact prop_ordered h (heq.symm.trans hv)
    intro p hp v hv
    simp only [List.mem_cons, List.not_mem_nil, or_false] at hp
    rcases hp with rfl | rfl | rfl
    · exact prop_ordered h hv
    · exact hcoalesce _ v hv
    · exact hcoalesce _ v hv
  cases raw with
  | null => cases ho
  | str t =>
    obtain rfl := Option.some.inj ho
    intro p hp v hv
    simp only [List.mem_cons, List.not_mem_nil, or_false] at hp
    rcases hp with rfl | rfl | rfl <;>
    · obtain rfl := Option.some.inj hv
      trivial
  | _ =>
    obtain rfl := Option.some.inj ho
    exact hprops

theorem mem_of_mapM {α β : Type} {f : α → Option β} {l : List α} {l' : List β} (h : l.mapM f = some l') {b : β}
    (hb : b ∈ l') : ∃ a ∈ l, f a = some b := by
  induction l generalizing l' with
  | nil =>
    obtain rfl := Option.some.inj h
    cases hb
  | cons a l ih =>
    rw [List.mapM_cons] at h
    obtain ⟨first, hfirst, h⟩ := Option.bind_eq_some_iff.mp h
    obtain ⟨rest, hrest, h⟩ := Option.bind_eq_some_iff.mp h
    obtain rfl := Option.some.inj h
    rcases List.mem_cons.mp hb with rfl | hb
    · exact ⟨a, List.mem_cons_self, hfirst⟩
    · obtain ⟨a', ha', hb'⟩ := ih hrest hb
      exact ⟨a', List.mem_cons_of_mem a ha', hb'⟩

theorem optionsOf_ordered {content : JsonObject} {options : List NormalizedOption}
    (h : optionsOf content = some options) {o : NormalizedOption} (ho : o ∈ options) : o.Ordered := by
  unfold optionsOf at h
  split at h
  · rename_i raws hraws
    have hordered := field_ordered content.ordered hraws
    obtain ⟨raw, hraw, hnormal⟩ := mem_of_mapM h ho
    exact normalizeOption_ordered (allNamesList_mem hordered hraw) hnormal
  · cases h

theorem json_inOrder (o : NormalizedOption) : InOrder
    ([("label", o.label), ("selectedLabel", o.selectedLabel), ("value", o.value)].map fun p => ofString p.1) := by
  show InOrder (["label", "selectedLabel", "value"].map ofString)
  unfold InOrder
  decide

theorem json_prop_value {o : NormalizedOption} (h : o.Ordered) :
    truthyValue (some (rewritten o.json)) = true ∧ (rewritten o.json).prop "value" = o.value.map rewritten := by
  obtain ⟨fields, hfields, hfield⟩ := rewritten_objectOf (json_inOrder o) h
  rw [NormalizedOption.json, hfields]
  exact ⟨rfl, hfield ("value", o.value) (by simp)⟩

theorem render_stored {row : QuestionRow} {options : List NormalizedOption}
    (h : row.optionsJson = optionsJson options) :
    row.render = some ⟨row.title, options.map fun o => rewritten o.json⟩ := by
  rw [QuestionRow.render, h, optionsJson, parse_stringify_eq, rewritten_arr, List.map_map]
  rfl

/-- **The index of an option finds its value**, as it is after it was stored. -/
theorem resolve_stored {options : List NormalizedOption} {title : Text} {i : ℕ} {o : NormalizedOption}
    (ho : options[i]? = some o) (hordered : o.Ordered) {eventValue tail : Option Text}
    (hindex : eventValue.or tail = some (decimalText i)) :
    resolveSelectedOption (some ⟨title, options.map fun o => rewritten o.json⟩) eventValue tail =
      o.value.map rewritten := by
  obtain ⟨htruthy, hvalue⟩ := json_prop_value hordered
  simp only [resolveSelectedOption, hindex, Option.getD_some, isIndex_decimalText, numeral_decimalText, if_true,
    Option.bind_some, List.getElem?_map, ho, Option.map_some, htruthy, hvalue]

/-- A value survives being stored. -/
def Storable (v : Option Value) : Prop := ∀ u, v = some u → u.writable = true

theorem storable_iff {v : Option Value} (h : ∀ u, v = some u → u.Ordered) : v.map rewritten = v ↔ Storable v := by
  cases v with
  | none => exact iff_of_true rfl fun u hu => nomatch hu
  | some u =>
    rw [Option.map_some, Option.some.injEq, rewritten_eq_iff (h u rfl)]
    exact ⟨fun hu w hw => Option.some.inj hw ▸ hu, fun hu => hu u rfl⟩

/-! ### Decoding a button -/

theorem splitOn_button (questionId : Text) (i : ℕ) (o : NormalizedOption) :
    (button questionId i o).id.splitOn (unit ':') =
      ofString "ncq" :: (questionId.splitOn (unit ':') ++ [decimalText i]) := by
  have hid : (button questionId i o).id = ofString "ncq" ++ unit ':' :: (questionId ++ unit ':' :: decimalText i) := rfl
  have hfirst : (ofString "ncq").splitOn (unit ':') = [ofString "ncq"] := by decide
  rw [hid, List.splitOn_append_cons_self, List.splitOn_append_cons_self, hfirst,
    List.splitOn_eq_singleton (decimalText_noColon i)]
  rfl

theorem onAction_noColon {tables : Tables} {event : ActionEvent} {call : HostCall} (h : call ∈ onAction tables event) :
    unit ':' ∉ call.questionId := by
  unfold onAction at h
  split at h
  · split at h
    · rename_i first questionId second rest hparts
      have hmem : questionId ∈ event.actionId.splitOn (unit ':') := by simp [hparts]
      dsimp only at h
      split at h
      · obtain rfl := List.mem_singleton.mp h
        exact PosixPath.not_mem_splitOn hmem
      · cases h
    · cases h
  · cases h

theorem splitCustomId_noColon {customId questionId tail : Text} (h : splitCustomId customId = some (questionId, tail)) :
    unit ':' ∉ questionId := by
  unfold splitCustomId at h
  split at h
  · dsimp only at h
    split at h
    · obtain ⟨rfl, -⟩ := Prod.mk.inj (Option.some.inj h)
      intro hmem
      exact absurd (List.mem_takeWhile_imp hmem) (by simp)
    · cases h
  · cases h

theorem handleInteraction_noColon {tables : Tables} {customId userId : Text} {call : HostCall}
    (h : call ∈ handleInteraction tables customId userId) : unit ':' ∉ call.questionId := by
  unfold handleInteraction at h
  dsimp only at h
  split at h
  · cases h
  · rename_i questionId hparsed
    obtain ⟨hid, -⟩ := Option.filter_eq_some_iff.mp hparsed
    obtain ⟨⟨_, tail⟩, hsplit, rfl⟩ := Option.map_eq_some_iff.mp hid
    split at h
    · cases h
    · split at h
      · obtain rfl := List.mem_singleton.mp h
        exact splitCustomId_noColon hsplit
      · cases h

section
variable {tables : Tables} {questionId : Text} (hid : unit ':' ∉ questionId) (i : ℕ) (o : NormalizedOption)
  (userId : Text)
include hid

theorem onAction_button {render : Option Render} (hrender : getAskQuestionRender tables questionId = some render)
    (value : Option Text) : onAction tables ⟨(button questionId i o).id, value, userId⟩ =
      [⟨questionId, resolveSelectedOption render value (some (decimalText i)), userId⟩] := by
  have hparts := splitOn_button questionId i o
  rw [List.splitOn_eq_singleton hid] at hparts
  have hprefix : (ofString "ncq:").isPrefixOf (button questionId i o).id = true :=
    List.isPrefixOf_iff_prefix.mpr (List.prefix_append _ _)
  simp only [onAction, hprefix, if_true, hparts, List.singleton_append, hrender, List.intercalate_singleton]

theorem splitCustomId_button : splitCustomId (button questionId i o).id = some (questionId, decimalText i) := by
  have hprefix : (ofString "ncq:").isPrefixOf (button questionId i o).id = true :=
    List.isPrefixOf_iff_prefix.mpr (List.prefix_append _ _)
  have hrest : (button questionId i o).id.drop 4 = questionId ++ unit ':' :: decimalText i := rfl
  have hall : ∀ c ∈ questionId, decide (c ≠ unit ':') = true := fun c hc => by
    simp only [ne_eq, decide_eq_true_eq]
    rintro rfl
    exact hid hc
  have hmem : unit ':' ∈ questionId ++ unit ':' :: decimalText i := by simp
  simp only [splitCustomId, hprefix, if_true, hrest, hmem]
  rw [List.takeWhile_append_of_pos hall, List.dropWhile_append_of_pos hall]
  simp

theorem handleInteraction_button {render : Option Render} (hne : questionId ≠ [])
    (hrender : getAskQuestionRender tables questionId = some render) :
    handleInteraction tables (button questionId i o).id userId =
      if truthyValue (resolveSelectedOption render (some (decimalText i)) (some (decimalText i))) then
        [⟨questionId, resolveSelectedOption render (some (decimalText i)) (some (decimalText i)), userId⟩]
      else [] := by
  simp only [handleInteraction, splitCustomId_button hid, Option.map_some, Option.filter_some, hne, ne_eq,
    not_false_eq_true, decide_true, if_true, hrender]

end

/-! ### What was recorded and what was sent -/

theorem pendingRow_spec {content : JsonObject} {row : QuestionRow} (h : pendingRow content = some row) :
    field content.fields "questionId" = some (.str row.id) ∧ row.id ≠ [] ∧
      ∃ options, optionsOf content = some options ∧ row.optionsJson = optionsJson options := by
  unfold pendingRow at h
  split at h
  · rename_i hasks
    split at h
    · rename_i questionId title hquestionId htitle
      split at h
      · cases h
      · obtain ⟨options, hoptions, rfl⟩ := Option.map_eq_some_iff.mp h
        rcases OutboundFields.readString_ok hquestionId with ⟨hrequired, -⟩ | ⟨hfield, -⟩
        · cases hrequired
        · have htruthy := hasks.2
          rw [hfield] at htruthy
          exact ⟨hfield, of_decide_eq_true htruthy, options, hoptions, rfl⟩
    · cases h
  · cases h

theorem askCard_spec {content : JsonObject} {buttons : List Button} (h : askCard content = some buttons) :
    ∃ questionId options, (field content.fields "questionId").bind Json.toText = some questionId ∧
      optionsOf content = some options ∧ buttons = options.mapIdx fun idx opt => button questionId idx opt := by
  unfold askCard at h
  dsimp only at h
  split at h
  · cases h
  · split at h
    · cases h
    · split at h
      · split at h
        · obtain ⟨questionId, hid, h⟩ := Option.bind_eq_some_iff.mp h
          obtain ⟨options, hoptions, rfl⟩ := Option.map_eq_some_iff.mp h
          exact ⟨questionId, options, hid, hoptions, rfl⟩
        · cases h
      · cases h

/-- **A click returns the option it shows.** For a question that is recorded and a card that is built for it, and
while the row is there: the click on the card's button `i` makes the one call with the question's id and the value of
option `i` exactly when the id has no colon and the value survives being stored; through Discord the value must also
count as true. -/
theorem click_iff {content : JsonObject} {row : QuestionRow} (hrow : pendingRow content = some row)
    {buttons : List Button} (hcard : askCard content = some buttons) {tables : Tables}
    (hstored : findRow tables.pendingQuestions row.id = some row) {i : ℕ} {shown : Button}
    (hshown : buttons[i]? = some shown) (userId : Text) :
    ∃ options opt, optionsOf content = some options ∧ options[i]? = some opt ∧
      (∀ value, value = none ∨ value = some shown.value →
        (onAction tables ⟨shown.id, value, userId⟩ = [⟨row.id, opt.value, userId⟩] ↔
          unit ':' ∉ row.id ∧ Storable opt.value)) ∧
      (handleInteraction tables shown.id userId = [⟨row.id, opt.value, userId⟩] ↔
        unit ':' ∉ row.id ∧ Storable opt.value ∧ truthyValue opt.value = true) := by
  obtain ⟨hid, hne, options, hoptions, hjson⟩ := pendingRow_spec hrow
  obtain ⟨questionId, _, hquestionId, hoptions', rfl⟩ := askCard_spec hcard
  obtain rfl := Option.some.inj (hoptions.symm.trans hoptions')
  rw [hid] at hquestionId
  obtain rfl : row.id = questionId := Option.some.inj hquestionId
  rw [List.getElem?_mapIdx] at hshown
  obtain ⟨opt, hopt, rfl⟩ := Option.map_eq_some_iff.mp hshown
  have hordered := optionsOf_ordered hoptions (List.mem_of_getElem? hopt)
  have hvalues := storable_iff (hordered ("value", opt.value) (by simp))
  have hrender : getAskQuestionRender tables row.id =
      some (some ⟨row.title, options.map fun o => rewritten o.json⟩) := by
    simp only [getAskQuestionRender, hstored, Option.some_or, render_stored hjson, Option.map_some]
  refine ⟨options, opt, hoptions, hopt, fun value hvalue => ?_, ?_⟩
  · by_cases hcolon : unit ':' ∈ row.id
    · refine iff_of_false (fun heq => ?_) fun h => h.1 hcolon
      exact onAction_noColon (heq ▸ List.mem_singleton_self _) hcolon
    · have hindex : value.or (some (decimalText i)) = some (decimalText i) := by
        rcases hvalue with rfl | rfl <;> rfl
      rw [onAction_button hcolon i opt userId hrender value, resolve_stored hopt hordered hindex, ← hvalues]
      simp [hcolon]
  · by_cases hcolon : unit ':' ∈ row.id
    · refine iff_of_false (fun heq => ?_) fun h => h.1 hcolon
      exact handleInteraction_noColon (heq ▸ List.mem_singleton_self _) hcolon
    · rw [handleInteraction_button hcolon i opt userId hne hrender, resolve_stored hopt hordered rfl, ← hvalues]
      by_cases hsame : opt.value.map rewritten = opt.value
      · rw [hsame]
        by_cases htruthy : truthyValue opt.value = true
        · simp [hcolon, htruthy]
        · simp [htruthy]
      · refine iff_of_false (fun heq => hsame ?_) fun h => hsame h.2.1
        split at heq
        · exact congrArg HostCall.selectedOption (List.singleton_inj.mp heq)
        · cases heq

/-! ### A question with two options -/

def asked (questionId : Text) : JsonObject where
  fields := [(ofString "type", .str (ofString "ask_question")), (ofString "questionId", .str questionId),
    (ofString "title", .str (ofString "Go?")), (ofString "options", .arr [.str (ofString "x:y"), .str (ofString "0")])]
  ordered := by
    have hnames : InOrder (["type", "questionId", "title", "options"].map ofString) := by
      unfold InOrder
      decide
    exact ⟨hnames, trivial, trivial, trivial, ⟨trivial, trivial, trivial⟩, trivial⟩

def askedOption (text : Text) : NormalizedOption := ⟨some (.str text), some (.str text), some (.str text)⟩

def askedRow (questionId : Text) : QuestionRow where
  id := questionId
  title := ofString "Go?"
  optionsJson := optionsJson [askedOption (ofString "x:y"), askedOption (ofString "0")]

def askedTables (questionId : Text) : Tables := ⟨[askedRow questionId], [], none, none⟩

theorem click_iff_second :
    onAction (askedTables (ofString "q1")) ⟨ofString "ncq:q1:1", some (ofString "1"), ofString "u1"⟩ =
      [⟨ofString "q1", some (.str (ofString "0")), ofString "u1"⟩] := by
  have hrow : pendingRow (asked (ofString "q1")) = some (askedRow (ofString "q1")) := rfl
  have hcard : askCard (asked (ofString "q1")) = some [button (ofString "q1") 0 (askedOption (ofString "x:y")),
      button (ofString "q1") 1 (askedOption (ofString "0"))] := rfl
  have hstored : findRow (askedTables (ofString "q1")).pendingQuestions (ofString "q1") =
      some (askedRow (ofString "q1")) := by simp [findRow, askedTables, askedRow]
  obtain ⟨options, opt, hoptions, hopt, hclick, -⟩ := click_iff hrow hcard hstored (i := 1) rfl (ofString "u1")
  obtain rfl : [askedOption (ofString "x:y"), askedOption (ofString "0")] = options := Option.some.inj hoptions
  obtain rfl : askedOption (ofString "0") = opt := Option.some.inj hopt
  have hstorable : Storable (askedOption (ofString "0")).value := by
    intro u hu
    obtain rfl := Option.some.inj hu
    rfl
  exact (hclick (some (ofString "1")) (.inr rfl)).mpr ⟨by decide, hstorable⟩

/-- **An id with a colon**: the click is taken for one on another question. -/
theorem colon_id_misread : ∃ content row buttons tables shown options opt,
    pendingRow content = some row ∧ askCard content = some buttons ∧ findRow tables.pendingQuestions row.id = some row ∧
      buttons[0]? = some shown ∧ optionsOf content = some options ∧ options[0]? = some opt ∧
      onAction tables ⟨shown.id, some shown.value, ofString "u1"⟩ ≠ [⟨row.id, opt.value, ofString "u1"⟩] := by
  refine ⟨asked (ofString "a:b"), askedRow (ofString "a:b"), _, askedTables (ofString "a:b"), _, _, _, rfl, rfl,
    by simp [findRow, askedTables, askedRow], rfl, rfl, rfl, fun heq => ?_⟩
  have hcolon : unit ':' ∉ ofString "a:b" := onAction_noColon (heq ▸ List.mem_singleton_self _)
  exact absurd hcolon (by decide)

end AgentDesk.BridgeClicks
