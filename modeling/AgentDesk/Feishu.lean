/-
# The Feishu adapter's messages

`adapter.deliver` of `src/channels/feishu.ts`, with the card builders of
`feishu/primitives.ts`: the content of an outbound row becomes the messages the
adapter creates or patches. What is rendered is chosen by the content alone: a
reaction, an edit (with a card of its own, or as markdown), a question with
buttons, a roster invitation whose button carries `content.optIn`, a display
card, or text with images.

* `feishu_optIn_iff`: a button that `parseRosterOptIn` accepts is rendered for
  two shapes of content only: an edit with a raw card that has one, and a roster
  invitation with an acceptable `optIn`.

What the API answers, how a long text is cut into chunks and the host's locale
are the call's `FeishuEnv`.
-/
import AgentDesk.Delivery

namespace AgentDesk

open Js

/-! ### Reading a content -/

/-- `readString`: a string that is not blank, trimmed. -/
def readString : Option Json → Option String
  | some (.str s) => if trim s = "" then none else some (trim s)
  | _ => none

/-- What a click on an opt-in card carries. -/
structure RosterOptInPayload where
  scopeId : String
  slotLabel : String
  agentGroupId : String
  expectedUserId : Option String
  expiresAt : Option String
  maxSends : Option ℤ
  deriving DecidableEq, Repr

/-- `roster-consent.ts`. -/
def parseRosterOptIn : Json → Option RosterOptInPayload
  | .obj value =>
    if Json.asString (fieldOf value "kind") ≠ some "roster.optin" then none
    else match readString (fieldOf value "scopeId"), readString (fieldOf value "slotLabel"),
        readString (fieldOf value "agentGroupId") with
      | some scopeId, some slotLabel, some agentGroupId => some
        { scopeId, slotLabel, agentGroupId, expectedUserId := readString (fieldOf value "expectedUserId")
          expiresAt := readString (fieldOf value "expiresAt")
          maxSends := match fieldOf value "maxSends" with
            | some (.num n) => if 0 < n then some n.floor else none
            | _ => none }
      | _, _, _ => none
  | _ => none

structure NormalizedQuestionOption where
  label : String
  value : String
  selectedLabel : String
  deriving DecidableEq, Repr

def normalizeOption : Json → Option NormalizedQuestionOption
  | .str entry => if trim entry = "" then none else some ⟨trim entry, trim entry, trim entry⟩
  | .obj entry =>
    let label := (readString (fieldOf entry "label")).or (readString (fieldOf entry "value"))
    let value := (readString (fieldOf entry "value")).or label
    let selectedLabel := (readString (fieldOf entry "selectedLabel")).or label
    match label, value with
    | some label, some value => some ⟨label, value, selectedLabel.getD label⟩
    | _, _ => none
  | _ => none

def normalizeOptions : Option Json → List NormalizedQuestionOption
  | some (.arr raw) => raw.filterMap normalizeOption
  | _ => []

/-! ### Cards -/

/-- Real line breaks for `\r\n` and `\r`. -/
def foldReturns : List Char → List Char
  | '\r' :: '\n' :: cs => '\n' :: foldReturns cs
  | '\r' :: cs => '\n' :: foldReturns cs
  | c :: cs => c :: foldReturns cs
  | [] => []

/-- Real line breaks for the escapes a model writes out. -/
def foldEscapes : List Char → List Char
  | '\\' :: 'r' :: '\\' :: 'n' :: cs => '\n' :: foldEscapes cs
  | '\\' :: 'n' :: cs => '\n' :: foldEscapes cs
  | '\\' :: 'r' :: cs => '\n' :: foldEscapes cs
  | c :: cs => c :: foldEscapes cs
  | [] => []

def normalizeCardText (text : String) : String := String.ofList (foldEscapes (foldReturns text.toList))

def plainText (text : String) : Json := .obj [("tag", .str "plain_text"), ("content", .str text)]

def markdownElement (text : String) : Json :=
  .obj [("tag", .str "markdown"), ("content", .str (normalizeCardText text))]

def cardHeader (title : String) : Json := .obj [("title", plainText title), ("template", .str "blue")]

def cardConfig : Json := .obj [("width_mode", .str "fill")]

def buildMarkdownCard (text : String) (title : Option String) : Json :=
  .obj ([("schema", .str "2.0"), ("config", cardConfig),
      ("body", .obj [("elements", .arr [markdownElement text])])] ++
    if truthy title then [("header", cardHeader (title.getD ""))] else [])

/-- A card of a text and a row of buttons. -/
def actionCard (title text : String) (actions : List Json) : Json :=
  .obj [("schema", .str "2.0"), ("config", cardConfig), ("header", cardHeader title),
    ("body", .obj [("elements", .arr [markdownElement text,
      .obj [("tag", .str "action"), ("actions", .arr actions)]])])]

def button (label type : String) (value : Json) : Json :=
  .obj [("tag", .str "button"), ("text", plainText label), ("type", .str type), ("value", value)]

/-- The value of a question's button. -/
def askValue (questionId : String) (expectedUserId : Option String) (expiresAt : ℕ)
    (option : NormalizedQuestionOption) : Json :=
  .obj ([("kind", .str "card.ask_question"), ("questionId", .str questionId),
    ("selectedOption", .str option.value), ("selectedLabel", .str option.selectedLabel)] ++
    (if truthy expectedUserId then [("expectedUserId", .str (expectedUserId.getD ""))] else []) ++
    if expiresAt ≠ 0 then [("expiresAt", .num expiresAt)] else [])

def buildFeishuAskQuestionCardWithPayloads (title questionId question : String)
    (options : List NormalizedQuestionOption) (expectedUserId : Option String) (expiresAt : ℕ) : Json :=
  actionCard title question (options.mapIdx fun index option =>
    button option.label (if index = 0 then "primary" else "default")
      (askValue questionId expectedUserId expiresAt option))

def buildFeishuRosterOptInCard (slotLabel : String) (optIn : Json) (prompt : Option String) : Json :=
  let body := match prompt with
    | some p => if trim p = "" then invitation else trim p
    | none => invitation
  actionCard "Direct message opt-in" body [button "Opt in" "primary" optIn]
where
  invitation : String :=
    s!"You've been invited to receive direct messages from this assistant for the **{slotLabel}** " ++
      "role in this conversation. Tap **Opt in** to allow it — only you can accept this invite, and you can opt out at any time."

/-- `content.fallbackText || '[Card]'`, which must be a string to be rendered. -/
def fallbackText (content : List (String × Json)) : Except String String :=
  match fieldOf content "fallbackText" with
  | some (.str s) => .ok (if s = "" then "[Card]" else s)
  | none | some .null | some (.bool false) => .ok "[Card]"
  | some (.num n) => if n = 0 then .ok "[Card]" else .error "TypeError: text.replace is not a function"
  | some _ => .error "TypeError: text.replace is not a function"

def displayChild : Json → Option String
  | .str child => if trim child = "" then none else some (trim child)
  | .obj child => readString (fieldOf child "text")
  | _ => none

def displayAction : Json → Option String
  | .obj action => match readString (fieldOf action "label"), readString (fieldOf action "url") with
    | some label, some url => some s!"- [{label}]({url})"
    | _, _ => none
  | _ => none

def listField (fields : List (String × Json)) (key : String) : List Json :=
  match fieldOf fields key with
  | some (.arr l) => l
  | _ => []

def buildDisplayCard (content : List (String × Json)) : Except String Json :=
  match fieldOf content "card" with
  | some (.obj card) =>
    let children := (readString (fieldOf card "description")).toList ++
      (listField card "children").filterMap displayChild ++ (listField card "actions").filterMap displayAction
    let title := readString (fieldOf card "title")
    let text := "\n\n".intercalate children
    if text ≠ "" then .ok (buildMarkdownCard text title)
    else (fallbackText content).map fun text => buildMarkdownCard text title
  | _ => (fallbackText content).map fun text => buildMarkdownCard text none

/-! ### The adapter -/

inductive ReceiveIdType where
  | chatId | openId | userId
  deriving DecidableEq, Repr

structure ReceiveTarget where
  receiveId : String
  receiveIdType : ReceiveIdType
  deriving DecidableEq, Repr

/-- `s.slice(s.indexOf(':') + 1).trim()`, or all of it without a colon. -/
def afterColon (s : String) : String :=
  let cs := s.toList
  trim (String.ofList (if cs.contains ':' then (cs.dropWhile (· ≠ ':')).drop 1 else cs))

def startsWith (s pre : String) : Bool := pre.toList.isPrefixOf s.toList

def stripChannelPrefix (platformId : String) : String :=
  if startsWith platformId "feishu:" then String.ofList (platformId.toList.drop 7) else platformId

def resolveReceiveTarget (platformId : String) : ReceiveTarget :=
  let raw := trim (stripChannelPrefix platformId)
  let byOpenId := fun id => if startsWith id "ou_" then ReceiveIdType.openId else .userId
  if startsWithIgnoringCase raw "p2p:" then ⟨afterColon raw, byOpenId (afterColon raw)⟩
  else if ["chat:", "group:", "channel:"].any (startsWithIgnoringCase raw) then ⟨afterColon raw, .chatId⟩
  else if startsWithIgnoringCase raw "open_id:" then ⟨afterColon raw, .openId⟩
  else if ["user:", "dm:"].any (startsWithIgnoringCase raw) then ⟨afterColon raw, byOpenId (afterColon raw)⟩
  else if startsWith raw "oc_" then ⟨raw, .chatId⟩
  else ⟨raw, byOpenId raw⟩

inductive MsgType where
  | text | interactive | image
  deriving DecidableEq, Repr

/-- A call of the message API. -/
inductive FeishuCall where
  | create (target : ReceiveTarget) (msgType : MsgType) (content : Json) (threadId : Option String)
  | patch (messageId : String) (content : Json)

/-- The message's content. -/
def FeishuCall.content : FeishuCall → Json
  | .create _ _ content _ => content
  | .patch _ content => content

/-- The outside of a delivery: is the adapter running, the clock, the locale, the cutting of a long
text, and what the API refuses. -/
structure FeishuEnv where
  started : Bool
  now : ℕ
  zh : Bool
  splitForLimit : String → List String
  cardRejected : Bool
  uploadImage : String → Option String
  imageRejected : String → Bool
  chunkRejected : ℕ → Bool

def resolveAskQuestionExpectedUserId (explicit : Option String) (target : ReceiveTarget) : Option String :=
  let explicit := trim (explicit.getD "")
  if startsWith explicit "ou_" then some explicit
  else if target.receiveIdType = .openId then some target.receiveId else none

def appendAttachmentSummary (text : String) (files : List String) : String :=
  if files = [] then text
  else
    let names := ", ".intercalate files
    let suffix := s!"Attachments: {names}"
    if trim text ≠ "" then s!"{text}\n\n{suffix}" else suffix

def buildAskQuestionFallbackText (title question : String) (options : List NormalizedQuestionOption)
    (replyHint : String) : String :=
  "\n".intercalate ([if trim question ≠ "" then trim question else trim title, ""] ++
    options.mapIdx (fun i o => s!"{i + 1}. " ++ o.label) ++ ["", replyHint])

def textContent (text : String) : Json := .obj [("text", .str text)]

def isImageFile (filename : String) : Bool :=
  [".jpg", ".jpeg", ".png", ".gif", ".webp", ".bmp"].any fun ext =>
    ext.toList.reverse.isPrefixOf (filename.toList.map Char.toLower).reverse

/-- Send the images; what is left over is named in the text. -/
def sendImages (env : FeishuEnv) (target : ReceiveTarget) (threadId : Option String) :
    List String → Bool → List FeishuCall × List String × Bool
  | [], sent => ([], [], sent)
  | file :: files, sent => match env.uploadImage file with
    | none =>
      let rest := sendImages env target threadId files sent
      (rest.1, file :: rest.2.1, rest.2.2)
    | some key =>
      let content : Json := .obj [("image_key", .str key)]
      let call := FeishuCall.create target .image content (if sent then none else threadId)
      if env.imageRejected file then
        let rest := sendImages env target threadId files sent
        (call :: rest.1, file :: rest.2.1, rest.2.2)
      else
        let rest := sendImages env target threadId files true
        (call :: rest.1, rest.2.1, rest.2.2)

/-- Send the chunks, the first into the thread if nothing was sent before; a refused one ends it. -/
def sendChunks (env : FeishuEnv) (target : ReceiveTarget) (threadId : Option String) :
    ℕ → List String → List FeishuCall
  | _, [] => []
  | i, chunk :: chunks =>
    .create target .text (textContent chunk) (if i = 0 then threadId else none) ::
      if env.chunkRejected i then [] else sendChunks env target none (i + 1) chunks

def nonEmptyString : Option Json → Option String
  | some (.str s) => if s = "" then none else some s
  | _ => none

/-- Images and text. -/
def sendText (env : FeishuEnv) (target : ReceiveTarget) (threadId : Option String)
    (content : List (String × Json)) (files : List String) : List FeishuCall :=
  let images := sendImages env target threadId (files.filter isImageFile) false
  let markdown := nonEmptyString (fieldOf content "markdown")
  let rawText := (markdown.or (nonEmptyString (fieldOf content "text"))).getD ""
  let text := appendAttachmentSummary rawText (files.filter (!isImageFile ·) ++ images.2.1)
  images.1 ++
    if trim text = "" then []
    else sendChunks env target (if images.2.2 then none else threadId) 0 (env.splitForLimit text)

/-- A question, as a card or, when Feishu refuses it, as text. -/
def sendQuestion (env : FeishuEnv) (target : ReceiveTarget) (threadId : Option String)
    (content : List (String × Json)) (questionId : String) : List FeishuCall :=
  let title := (readString (fieldOf content "title")).getD (if env.zh then "请选择" else "Question")
  let question := (Json.asString (fieldOf content "question")).getD ""
  let options := normalizeOptions (fieldOf content "options")
  if options = [] then []
  else
    let expectedUserId :=
      resolveAskQuestionExpectedUserId (Json.asString (fieldOf content "expectedUserId")) target
    let card := buildFeishuAskQuestionCardWithPayloads title questionId question options expectedUserId
      (env.now + 300000)
    let hint := if env.zh then "请回复选项编号或对应文字。" else "Reply with the option number or its text."
    .create target .interactive card threadId ::
      if env.cardRejected then
        [.create target .text (textContent (buildAskQuestionFallbackText title question options hint)) threadId]
      else []

/-- An edit of a message: the content's own card, or its text as markdown. -/
def sendEdit (messageId : String) (content : List (String × Json)) (files : List String) : List FeishuCall :=
  match fieldOf content "card" with
  | some (.obj card) => [.patch messageId (.obj card)]
  | _ =>
    let raw := match fieldOf content "markdown" with
      | some (.str markdown) => markdown
      | _ => (Json.asString (fieldOf content "text")).getD ""
    let text := appendAttachmentSummary (trim raw) files
    [.patch messageId (buildMarkdownCard (if text = "" then "[Updated]" else text) none)]

/-- What a content that is neither a reaction nor an edit creates. -/
def sendNew (env : FeishuEnv) (platformId : String) (threadId : Option String)
    (content : List (String × Json)) (files : List String) : List FeishuCall :=
  let target := resolveReceiveTarget platformId
  match Json.asString (fieldOf content "type"), fieldOf content "questionId", fieldOf content "optIn" with
  | some "ask_question", some (.str questionId), _ => sendQuestion env target threadId content questionId
  | some "roster_invite", _, some (.obj optIn) =>
    let card := buildFeishuRosterOptInCard ((readString (fieldOf content "slotLabel")).getD "contact") (.obj optIn)
      (readString (fieldOf content "prompt"))
    [.create target .interactive card threadId]
  | some "card", _, _ => match buildDisplayCard content with
    | .ok card => [.create target .interactive card threadId]
    | .error _ => []
  | _, _, _ => sendText env target threadId content files

/-- `adapter.deliver`: the messages it creates or patches. A reaction does neither. -/
def feishuDeliver (env : FeishuEnv) (platformId : String) (threadId : Option String)
    (content : List (String × Json)) (files : List String) : List FeishuCall :=
  if Json.asString (fieldOf content "operation") = some "reaction" then []
  else match Json.asString (fieldOf content "operation"), fieldOf content "messageId" with
    | some "edit", some (.str messageId) => sendEdit messageId content files
    | _, _ => sendNew env platformId threadId content files

/-! ### Buttons -/

/-- The values of a component's callbacks. -/
def callbackValues : Option Json → List Json
  | some (.arr behaviors) => behaviors.filterMap fun
    | .obj behavior =>
      if Json.asString (fieldOf behavior "type") = some "callback" then fieldOf behavior "value" else none
    | _ => none
  | _ => []

mutual

/-- The action values of a card's buttons, which Feishu gives back on a click. What stands under a `value`
is data of its component, not a part of the card. -/
def buttonValues : Json → List Json
  | .arr l => buttonValuesItems l
  | .obj fields =>
    (if Json.asString (fieldOf fields "tag") = some "button" then
      (fieldOf fields "value").toList ++ callbackValues (fieldOf fields "behaviors") else []) ++
      buttonValuesFields fields
  | _ => []

def buttonValuesItems : List Json → List Json
  | [] => []
  | j :: js => buttonValues j ++ buttonValuesItems js

def buttonValuesFields : List (String × Json) → List Json
  | [] => []
  | (key, v) :: fs => (if key = "value" then [] else buttonValues v) ++ buttonValuesFields fs

end

@[simp] theorem buttonValues_arr (l : List Json) : buttonValues (.arr l) = buttonValuesItems l := rfl

@[simp] theorem buttonValues_obj (fields : List (String × Json)) : buttonValues (.obj fields) =
    (if Json.asString (fieldOf fields "tag") = some "button" then
      (fieldOf fields "value").toList ++ callbackValues (fieldOf fields "behaviors") else []) ++
      buttonValuesFields fields := rfl

@[simp] theorem buttonValues_str (s : String) : buttonValues (.str s) = [] := rfl

@[simp] theorem buttonValues_bool (b : Bool) : buttonValues (.bool b) = [] := rfl

@[simp] theorem buttonValuesItems_nil : buttonValuesItems [] = [] := rfl

@[simp] theorem buttonValuesItems_cons (j : Json) (js : List Json) :
    buttonValuesItems (j :: js) = buttonValues j ++ buttonValuesItems js := rfl

@[simp] theorem buttonValuesFields_nil : buttonValuesFields [] = [] := rfl

@[simp] theorem buttonValuesFields_cons (key : String) (v : Json) (fs : List (String × Json)) :
    buttonValuesFields ((key, v) :: fs) = (if key = "value" then [] else buttonValues v) ++ buttonValuesFields fs := rfl

/-- The card has a button whose value is an opt-in. -/
def HasOptInButton (card : Json) : Prop := ∃ v ∈ buttonValues card, (parseRosterOptIn v).isSome = true

theorem plainText_buttons (text : String) : buttonValues (plainText text) = [] := by
  simp [plainText, fieldOf, Json.asString]

theorem markdownElement_buttons (text : String) : buttonValues (markdownElement text) = [] := by
  simp [markdownElement, fieldOf, Json.asString]

theorem cardHeader_buttons (title : String) : buttonValues (cardHeader title) = [] := by
  simp [cardHeader, fieldOf, Json.asString, plainText_buttons]

theorem textContent_buttons (text : String) : buttonValues (textContent text) = [] := by
  simp [textContent, fieldOf, Json.asString]

theorem markdownCard_buttons (text : String) (title : Option String) :
    buttonValues (buildMarkdownCard text title) = [] := by
  unfold buildMarkdownCard
  by_cases ht : truthy title = true
  · simp [ht, cardConfig, fieldOf, Json.asString,
      markdownElement_buttons, cardHeader_buttons]
  · simp [ht, cardConfig, fieldOf, Json.asString,
      markdownElement_buttons]

theorem actionCard_buttons (title text : String) (actions : List Json) :
    buttonValues (actionCard title text actions) = buttonValuesItems actions := by
  simp [actionCard, cardConfig, fieldOf, Json.asString,
    markdownElement_buttons, cardHeader_buttons]

theorem button_values (label type : String) (value : Json) : buttonValues (button label type value) = [value] := by
  simp [button, callbackValues, fieldOf, Json.asString, plainText_buttons]

theorem mem_buttonValuesItems {v : Json} {l : List Json} :
    v ∈ buttonValuesItems l ↔ ∃ j ∈ l, v ∈ buttonValues j := by
  induction l with
  | nil => simp
  | cons j js ih => simp [ih]

theorem askCard_buttons (title questionId question : String) (options : List NormalizedQuestionOption)
    (expectedUserId : Option String) (expiresAt : ℕ) :
    ¬ HasOptInButton (buildFeishuAskQuestionCardWithPayloads title questionId question options expectedUserId
      expiresAt) := by
  rintro ⟨v, hv, hacc⟩
  unfold buildFeishuAskQuestionCardWithPayloads at hv
  rw [actionCard_buttons] at hv
  obtain ⟨j, hj, hvj⟩ := mem_buttonValuesItems.mp hv
  obtain ⟨i, hi, rfl⟩ := List.mem_mapIdx.mp hj
  rw [button_values, List.mem_singleton] at hvj
  rw [hvj] at hacc
  simp [askValue, parseRosterOptIn, fieldOf, Json.asString] at hacc

theorem optInCard_buttons (slotLabel : String) (optIn : Json) (prompt : Option String) :
    buttonValues (buildFeishuRosterOptInCard slotLabel optIn prompt) = [optIn] := by
  unfold buildFeishuRosterOptInCard
  rw [actionCard_buttons]
  simp [button_values]

theorem displayCard_buttons {content : List (String × Json)} {card : Json}
    (h : buildDisplayCard content = .ok card) : buttonValues card = [] := by
  have hmap : ∀ {title : Option String},
      ((fallbackText content).map fun text => buildMarkdownCard text title) = .ok card →
        buttonValues card = [] := by
    intro title hm
    cases hf : fallbackText content with
    | error e => simp [hf, Except.map] at hm
    | ok text =>
      rw [hf] at hm
      rw [← Except.ok.inj hm]
      exact markdownCard_buttons text title
  unfold buildDisplayCard at h
  split at h
  · dsimp only at h
    split at h
    · rw [← Except.ok.inj h]
      exact markdownCard_buttons _ _
    · exact hmap h
  · exact hmap h

/-! ### What the adapter renders -/

theorem sendImages_buttons {env : FeishuEnv} {target : ReceiveTarget} {th : Option String} {c : FeishuCall} :
    ∀ {files : List String} {sent : Bool}, c ∈ (sendImages env target th files sent).1 →
      buttonValues c.content = []
  | file :: files, sent, h => by
    rw [sendImages] at h
    cases hkey : env.uploadImage file with
    | none =>
      rw [hkey] at h
      exact sendImages_buttons h
    | some key =>
      rw [hkey] at h
      have hcall : buttonValues (FeishuCall.create target .image (.obj [("image_key", .str key)])
          (if sent then none else th)).content = [] := by
        simp [FeishuCall.content, fieldOf, Json.asString]
      dsimp only at h
      split at h
      · rcases List.mem_cons.mp h with rfl | h
        · exact hcall
        · exact sendImages_buttons h
      · rcases List.mem_cons.mp h with rfl | h
        · exact hcall
        · exact sendImages_buttons h

theorem sendChunks_buttons {env : FeishuEnv} {target : ReceiveTarget} {c : FeishuCall} :
    ∀ {chunks : List String} {th : Option String} {i : ℕ}, c ∈ sendChunks env target th i chunks →
      buttonValues c.content = []
  | chunk :: chunks, th, i, h => by
    rw [sendChunks] at h
    rcases List.mem_cons.mp h with rfl | h
    · exact textContent_buttons chunk
    · split at h
      · exact absurd h List.not_mem_nil
      · exact sendChunks_buttons h

theorem sendText_buttons {env : FeishuEnv} {target : ReceiveTarget} {th : Option String}
    {content : List (String × Json)} {files : List String} {c : FeishuCall}
    (h : c ∈ sendText env target th content files) : buttonValues c.content = [] := by
  unfold sendText at h
  rcases List.mem_append.mp h with h | h
  · exact sendImages_buttons h
  · split at h
    · exact absurd h List.not_mem_nil
    · exact sendChunks_buttons h

theorem sendQuestion_buttons {env : FeishuEnv} {target : ReceiveTarget} {th : Option String}
    {content : List (String × Json)} {questionId : String} {c : FeishuCall}
    (h : c ∈ sendQuestion env target th content questionId) : ¬ HasOptInButton c.content := by
  unfold sendQuestion at h
  dsimp only at h
  split at h
  · exact absurd h List.not_mem_nil
  · rcases List.mem_cons.mp h with rfl | h
    · exact askCard_buttons _ _ _ _ _ _
    · split at h
      · rw [List.mem_singleton.mp h]
        rintro ⟨v, hv, -⟩
        rw [FeishuCall.content, textContent_buttons] at hv
        exact absurd hv List.not_mem_nil
      · exact absurd h List.not_mem_nil

/-- The content edits a message with a raw card that has an opt-in button. -/
def EditsOptIn (content : List (String × Json)) : Prop :=
  Json.asString (fieldOf content "operation") = some "edit" ∧
    (∃ messageId, fieldOf content "messageId" = some (.str messageId)) ∧
    ∃ card, fieldOf content "card" = some (.obj card) ∧ HasOptInButton (.obj card)

/-- The content is a roster invitation, and not a reaction or an edit, with an acceptable opt-in. -/
def InvitesOptIn (content : List (String × Json)) : Prop :=
  Json.asString (fieldOf content "operation") ≠ some "reaction" ∧
    ¬ (Json.asString (fieldOf content "operation") = some "edit" ∧
      ∃ messageId, fieldOf content "messageId" = some (.str messageId)) ∧
    Json.asString (fieldOf content "type") = some "roster_invite" ∧
    ∃ optIn, fieldOf content "optIn" = some (.obj optIn) ∧ (parseRosterOptIn (.obj optIn)).isSome = true

theorem not_hasOptInButton_of_nil {card : Json} (h : buttonValues card = []) : ¬ HasOptInButton card := by
  rintro ⟨v, hv, -⟩
  rw [h] at hv
  exact absurd hv List.not_mem_nil

theorem sendEdit_optIn_iff {messageId : String} {content : List (String × Json)} {files : List String} :
    (∃ c ∈ sendEdit messageId content files, HasOptInButton c.content) ↔
      ∃ card, fieldOf content "card" = some (.obj card) ∧ HasOptInButton (.obj card) := by
  unfold sendEdit
  split
  · rename_i card hcard
    constructor
    · rintro ⟨c, hc, h⟩
      rw [List.mem_singleton.mp hc] at h
      exact ⟨card, hcard, h⟩
    · rintro ⟨card', hcard', h⟩
      obtain rfl := Json.obj.inj (Option.some.inj (hcard.symm.trans hcard'))
      exact ⟨_, List.mem_singleton_self _, h⟩
  · rename_i hno
    constructor
    · rintro ⟨c, hc, h⟩
      rw [List.mem_singleton.mp hc] at h
      exact absurd h (not_hasOptInButton_of_nil (markdownCard_buttons _ _))
    · rintro ⟨card, hcard, -⟩
      exact absurd hcard (hno card)

theorem sendNew_optIn_iff {env : FeishuEnv} {platformId : String} {th : Option String}
    {content : List (String × Json)} {files : List String} :
    (∃ c ∈ sendNew env platformId th content files, HasOptInButton c.content) ↔
      Json.asString (fieldOf content "type") = some "roster_invite" ∧
        ∃ optIn, fieldOf content "optIn" = some (.obj optIn) ∧ (parseRosterOptIn (.obj optIn)).isSome = true := by
  unfold sendNew
  dsimp only
  split
  · rename_i questionId htype _
    refine ⟨fun ⟨c, hc, h⟩ => absurd h (sendQuestion_buttons hc), fun ⟨ht, _⟩ => ?_⟩
    rw [htype] at ht
    exact absurd (Option.some.inj ht) (by decide)
  · rename_i optIn htype hoptIn
    constructor
    · rintro ⟨c, hc, v, hv, hacc⟩
      rw [List.mem_singleton.mp hc, FeishuCall.content, optInCard_buttons, List.mem_singleton] at hv
      exact ⟨htype, optIn, hoptIn, hv ▸ hacc⟩
    · rintro ⟨-, optIn', hoptIn', hacc⟩
      obtain rfl := Json.obj.inj (Option.some.inj (hoptIn.symm.trans hoptIn'))
      refine ⟨_, List.mem_singleton_self _, .obj optIn, ?_, hacc⟩
      rw [FeishuCall.content, optInCard_buttons]
      exact List.mem_singleton_self _
  · rename_i htype
    refine ⟨fun ⟨c, hc, h⟩ => ?_, fun ⟨ht, _⟩ => ?_⟩
    · cases hcard : buildDisplayCard content with
      | error e =>
        rw [hcard] at hc
        exact absurd hc List.not_mem_nil
      | ok card =>
        rw [hcard] at hc
        rw [List.mem_singleton.mp hc] at h
        exact absurd h (not_hasOptInButton_of_nil (displayCard_buttons hcard))
    · rw [htype] at ht
      exact absurd (Option.some.inj ht) (by decide)
  · rename_i _ _ hinvite
    refine ⟨fun ⟨c, hc, h⟩ => absurd h (not_hasOptInButton_of_nil (sendText_buttons hc)), ?_⟩
    rintro ⟨ht, optIn, hoptIn, -⟩
    exact (hinvite optIn ht hoptIn).elim

/-- **Where an opt-in button comes from.** The adapter creates or patches a message with one exactly
for an edit whose raw card has one, and for a roster invitation with an acceptable `optIn`. -/
theorem feishu_optIn_iff {env : FeishuEnv} {platformId : String} {th : Option String}
    {content : List (String × Json)} {files : List String} :
    (∃ c ∈ feishuDeliver env platformId th content files, HasOptInButton c.content) ↔
      EditsOptIn content ∨ InvitesOptIn content := by
  unfold feishuDeliver EditsOptIn InvitesOptIn
  by_cases hreact : Json.asString (fieldOf content "operation") = some "reaction"
  · rw [if_pos hreact]
    simp [hreact]
  · rw [if_neg hreact]
    split
    · rename_i messageId hop hid
      rw [sendEdit_optIn_iff]
      constructor
      · exact fun h => .inl ⟨hop, ⟨messageId, hid⟩, h⟩
      · rintro (⟨-, -, h⟩ | ⟨-, hno, -⟩)
        · exact h
        · exact absurd ⟨hop, messageId, hid⟩ hno
    · rename_i hno
      rw [sendNew_optIn_iff]
      constructor
      · exact fun ⟨ht, h⟩ => .inr ⟨hreact, fun ⟨hop, messageId, hid⟩ => hno messageId hop hid, ht, h⟩
      · rintro (⟨hop, ⟨messageId, hid⟩, -⟩ | ⟨-, -, ht, h⟩)
        · exact absurd hid (hno messageId hop)
        · exact ⟨ht, h⟩

end AgentDesk
