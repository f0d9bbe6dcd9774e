/-
# Rows that make the runner throw

The rows of a batch pass through five functions that read their content: `splitBatchByTurn` and
`resolveBatchIdentity` of `request-identity.ts`, and `isClearCommand`, `categorizeMessage` and `formatMessages`
of the formatter. The loop calls the first three outside of its `try`, so that an exception there ends the
process, after the rows were claimed.

Content that is no JSON text never throws: it is taken as the text of the row. The identity is read inside a
`try`, with a check that the sender is a string. The formatter checks nothing. It throws at `null`, and where a
field that counts as true is not a string and is used as one.

* `splitBatchByTurn_returns`, `resolveBatchIdentity_returns`: the identity functions return.
* `runner_returns_iff`: **the five return** exactly when each row is typed as its kind is read.
* `numeric_text_throws`: a text that is a number ends the process.
-/
import AgentDesk.Formatter

namespace AgentDesk.Formatter

open JsonText

/-! ### Whose turn it is -/

/-- `RequestIdentity`. -/
structure Identity where
  userId : Option Text
  channelType : Option Text
  platformId : Option Text
  threadId : Option Text
  source : IdentitySource
  deriving DecidableEq

def noIdentity : Identity := ⟨none, none, none, none, .agentAsserted⟩

def isSystemSenderRow (row : MessageInRow) : Option Bool :=
  if row.content = [] then some false
  else
    (do
      let parsed ← (← parse row.content).notNull
      return match parsed.prop "sender" with
        | some (.str t) => t = ofString "system"
        | _ => false)
    -- catch
    <|> some false

/-- The sender that the content names, under its channel. -/
def contentUserId (row : MessageInRow) : Option (Option Text) :=
  (do
    let parsed ← (← parse row.content).notNull
    let rawSenderId := match parsed.prop "senderId" with
      | some (.str t) => trimText t
      | _ => []
    let channelType := row.channelType.getD []
    return if rawSenderId = [] then none
      else if rawSenderId.contains (unit ':') || channelType = [] then some rawSenderId
      else some (channelType ++ unit ':' :: rawSenderId))
  -- catch
  <|> some none

def rowIdentity (row : MessageInRow) : Option Identity := do
  let origin := trimText (row.originUserId.getD [])
  if origin ≠ [] then
    return { userId := some origin, channelType := row.channelType, platformId := row.platformId
             threadId := row.threadId, source := .session }
  let userId ← if row.channelType = some (ofString "agent") then some none else contentUserId row
  return { userId, channelType := row.channelType, platformId := row.platformId, threadId := row.threadId
           source := if userId.isSome then .session else .agentAsserted }

def resolveBatchIdentity (batch : List MessageInRow) : Option Identity := do
  let found ← batch.findM? fun m =>
    if m.trigger && m.kind.isChat then (isSystemSenderRow m).map fun system => !system else some false
  match found.or batch.head? with
  | none => return noIdentity
  | some trigger => if ← isSystemSenderRow trigger then return noIdentity else rowIdentity trigger

/-- Does the row ride with the anchor? Only two trusted identities can disagree. -/
def ridesWith (anchor : Identity) (row : MessageInRow) : Option Bool :=
  if !row.kind.isChat then some true
  else (rowIdentity row).map fun rowId =>
    anchor.source ≠ .session || rowId.source ≠ .session ||
      (anchor.userId = rowId.userId && anchor.channelType.getD [] = rowId.channelType.getD [] &&
        anchor.platformId.getD [] = rowId.platformId.getD [] && anchor.threadId = rowId.threadId)

/-- The rows of the anchor's turn, and the others. -/
def splitBatchByTurn (batch : List MessageInRow) : Option (List MessageInRow × List MessageInRow) := do
  if batch = [] then return ([], [])
  go (← resolveBatchIdentity batch) batch
where
  go (anchor : Identity) : List MessageInRow → Option (List MessageInRow × List MessageInRow)
    | [] => some ([], [])
    | row :: rows => do
      let rides ← ridesWith anchor row
      let (keep, defer) ← go anchor rows
      return if rides then (row :: keep, defer) else (keep, row :: defer)

theorem isSystemSenderRow_returns (row : MessageInRow) : (isSystemSenderRow row).isSome := by
  unfold isSystemSenderRow
  split
  · rfl
  · simp

theorem rowIdentity_returns (row : MessageInRow) : (rowIdentity row).isSome := by
  have hcontent : (contentUserId row).isSome := by simp [contentUserId]
  obtain ⟨userId, huserId⟩ := Option.isSome_iff_exists.mp hcontent
  unfold rowIdentity
  by_cases horigin : trimText (row.originUserId.getD []) = []
  · by_cases hagent : row.channelType = some (ofString "agent")
    · simp [horigin, hagent]
    · simp [horigin, hagent, huserId]
  · simp [horigin]

theorem findM?_returns {p : MessageInRow → Option Bool} (hp : ∀ m, (p m).isSome) :
    ∀ batch : List MessageInRow, (batch.findM? p).isSome
  | [] => rfl
  | m :: batch => by
    obtain ⟨b, hb⟩ := Option.isSome_iff_exists.mp (hp m)
    have ih := findM?_returns hp batch
    rw [List.findM?, hb]
    cases b with
    | true => rfl
    | false => exact ih

theorem resolveBatchIdentity_returns (batch : List MessageInRow) : (resolveBatchIdentity batch).isSome := by
  have hfind := findM?_returns (p := fun m =>
    if m.trigger && m.kind.isChat then (isSystemSenderRow m).map fun system => !system else some false) (fun m => by
      split
      · simpa using isSystemSenderRow_returns m
      · rfl) batch
  obtain ⟨found, hfound⟩ := Option.isSome_iff_exists.mp hfind
  unfold resolveBatchIdentity
  rw [hfound]
  cases hanchor : found.or batch.head? with
  | none => simp [hanchor]
  | some trigger =>
    obtain ⟨system, hsystem⟩ := Option.isSome_iff_exists.mp (isSystemSenderRow_returns trigger)
    cases system with
    | true => simp [hanchor, hsystem]
    | false => simpa [hanchor, hsystem] using rowIdentity_returns trigger

theorem ridesWith_returns (anchor : Identity) (row : MessageInRow) : (ridesWith anchor row).isSome := by
  unfold ridesWith
  split
  · rfl
  · simpa using rowIdentity_returns row

theorem splitBatchByTurn_returns (batch : List MessageInRow) : (splitBatchByTurn batch).isSome := by
  have hgo : ∀ anchor rows, (splitBatchByTurn.go anchor rows).isSome := by
    intro anchor rows
    induction rows with
    | nil => rfl
    | cons row rows ih =>
      obtain ⟨rides, hrides⟩ := Option.isSome_iff_exists.mp (ridesWith_returns anchor row)
      obtain ⟨split, hsplit⟩ := Option.isSome_iff_exists.mp ih
      simp [splitBatchByTurn.go, hrides, hsplit]
  obtain ⟨anchor, hanchor⟩ := Option.isSome_iff_exists.mp (resolveBatchIdentity_returns batch)
  unfold splitBatchByTurn
  by_cases hempty : batch = []
  · simp [hempty]
  · simpa [hempty, hanchor] using hgo anchor batch

/-! ### What the formatter needs -/

/-- The first of the values that counts as true, if there is one, is a string. -/
def FirstTextual : List (Option Value) → Prop
  | [] => True
  | v :: rest => if truthyValue v then ∃ t, v = some (.str t) else FirstTextual rest

/-- The value can be made a string. -/
def Converts (v : Option Value) : Prop := ∀ x, v = some x → x.Showable

/-- What the sender's id is made of: a text; or an array, which has `includes`, and which is converted where it
goes under the channel. -/
def SenderIdTyped (channelType : Option Text) (raw : Value) : Prop :=
  truthyValue (some raw) = false ∨ (∃ t, raw = .str t) ∨
    ∃ l, raw = .arr l ∧ (.str [unit ':'] ∈ l ∨ falsy channelType = true ∨ raw.Showable)

structure AttachmentTyped (a : Value) : Prop where
  notNull : a ≠ .null
  name : FirstTextual [a.prop "name", a.prop "filename"]
  type : Converts (a.prop "type")
  localPath : Converts (a.prop "localPath")
  url : truthyValue (a.prop "localPath") = false → FirstTextual [a.prop "url"]

structure ReplyTyped (replyTo : Value) : Prop where
  id : Converts (replyTo.prop "id")
  sender : truthyValue (replyTo.prop "text") = true → FirstTextual [replyTo.prop "sender"]
  text : truthyValue (replyTo.prop "sender") = true → FirstTextual [replyTo.prop "text"]

structure ChatTyped (includeAttachments : Bool) (channelType : Option Text) (content : Value) : Prop where
  text : FirstTextual [content.prop "text"]
  senderId : SenderIdTyped channelType (orFallback (content.prop "senderId")
    (orFallback ((content.prop "author").bind fun a => a.prop "userId") .null))
  sender : FirstTextual [content.prop "sender", (content.prop "author").bind fun a => a.prop "fullName",
    (content.prop "author").bind fun a => a.prop "userName"]
  reply : ∀ replyTo, content.prop "replyTo" = some replyTo → ReplyTyped replyTo
  attachments : includeAttachments = true → ∀ l, content.prop "attachments" = some (.arr l) → ∀ a ∈ l, AttachmentTyped a

/-- The content of the row is typed as its kind is read. -/
def Typed (includeAttachments : Bool) (msg : MessageInRow) : Prop :=
  let content := parseContent msg.content
  match msg.kind with
  | .chat | .chatSdk => content ≠ .null ∧ ChatTyped includeAttachments msg.channelType content
  | .task => content ≠ .null ∧ Converts (content.prop "prompt")
  | .webhook => content ≠ .null ∧ FirstTextual [content.prop "source"] ∧ FirstTextual [content.prop "event"]
  | .system => content ≠ .null ∧ FirstTextual [content.prop "action"] ∧ FirstTextual [content.prop "status"]
  | .other _ => True

/-- The functions return, each called on the rows that it is called on. -/
structure Returns (w : AgentRunner) (locale : Locale) (includeAttachments : Bool) (rows : List MessageInRow) :
    Prop where
  split : (splitBatchByTurn rows).isSome
  identity : (resolveBatchIdentity rows).isSome
  clear : ∀ m ∈ rows, m.kind.isChat = true → (isClearCommand m).isSome
  category : ∀ m ∈ rows, m.kind.isChat = true → (categorizeMessage m).isSome
  prompt : (formatMessages w locale includeAttachments rows).isSome

/-! ### Exceptions, part by part -/

variable {w : AgentRunner} {locale : Locale} {includeAttachments : Bool}

/-- A sequence returns when its parts do, and what the second part does depends on no result of the first. -/
theorem bind_isSome_iff {α β : Type} {x : Option α} {f : α → Option β} {P : Prop}
    (h : ∀ a, x = some a → ((f a).isSome ↔ P)) : (x >>= f).isSome ↔ x.isSome ∧ P := by
  cases x with
  | none => simp
  | some a => simpa using h a rfl

theorem mapM_isSome_iff {α β : Type} {f : α → Option β} : ∀ l : List α, (l.mapM f).isSome ↔ ∀ a ∈ l, (f a).isSome
  | [] => by simp
  | a :: l => by
    rw [List.mapM_cons, List.forall_mem_cons, ← mapM_isSome_iff l]
    refine bind_isSome_iff fun b _ => ?_
    cases l.mapM f <;> simp

theorem notNull_isSome_iff (v : Value) : v.notNull.isSome ↔ v ≠ .null := by
  cases v <;> simp [Json.notNull]

theorem notNull_eq {v x : Value} (h : v.notNull = some x) : x = v := by
  cases v <;> simp_all [Json.notNull]

theorem escapeValue_isSome_iff (v : Value) : (escapeValue v).isSome ↔ ∃ t, v = .str t := by
  cases v <;> simp [escapeValue]

theorem escape_orFallback (v : Option Value) (fallback : Value) :
    (escapeValue (orFallback v fallback)).isSome ↔
      if truthyValue v then ∃ t, v = some (.str t) else (escapeValue fallback).isSome := by
  unfold orFallback
  by_cases h : truthyValue v = true
  · rw [if_pos h, if_pos h, escapeValue_isSome_iff]
    cases v with
    | none => cases h
    | some x => simp
  · rw [if_neg h, if_neg h]

theorem escape_first (v : Option Value) (t : Text) :
    (escapeValue (orFallback v (.str t))).isSome ↔ FirstTextual [v] := by
  rw [escape_orFallback, escapeValue_isSome_iff, FirstTextual, FirstTextual]
  simp

theorem toText_orFallback (v : Option Value) (t : Text) : (orFallback v (.str t)).toText.isSome ↔ Converts v := by
  rw [toText_isSome_iff]
  unfold orFallback Converts
  cases v with
  | none => simp [truthyValue, Json.Showable]
  | some x =>
    by_cases h : truthyValue (some x) = true
    · simp [h]
    · have hshown : x.Showable := by
        cases x with
        | arr l => exact absurd rfl h
        | obj fields => exact absurd rfl h
        | null => trivial
        | bool b => trivial
        | num x => trivial
        | str t => trivial
      simp [h, hshown, Json.Showable]

theorem bind_toText (v : Option Value) (h : truthyValue v = true) : (v.bind Json.toText).isSome ↔ Converts v := by
  cases v with
  | none => cases h
  | some x => simpa [Converts] using toText_isSome_iff x

theorem bind_escapeValue (v : Option Value) (h : truthyValue v = true) :
    (v.bind escapeValue).isSome ↔ FirstTextual [v] := by
  cases v with
  | none => cases h
  | some x => simpa [FirstTextual, h] using escapeValue_isSome_iff x

theorem converts_of_falsy {v : Option Value} (h : truthyValue v = false) : Converts v := by
  rw [← toText_orFallback v [], toText_isSome_iff, orFallback, h]
  trivial

theorem formatAttachment_isSome_iff (a : Value) : (formatAttachment a).isSome ↔ AttachmentTyped a := by
  have hfields : (formatAttachment a).isSome ↔ a.notNull.isSome ∧
      FirstTextual [a.prop "name", a.prop "filename"] ∧ Converts (a.prop "type") ∧ Converts (a.prop "localPath") ∧
        (truthyValue (a.prop "localPath") = false → FirstTextual [a.prop "url"]) := by
    refine bind_isSome_iff fun b hb => ?_
    rw [notNull_eq hb]
    have hname : (escapeValue (orFallback (a.prop "name") (orFallback (a.prop "filename")
        (.str (ofString "attachment"))))).isSome ↔ FirstTextual [a.prop "name", a.prop "filename"] := by
      rw [escape_orFallback, escape_first]
      rfl
    have htype := toText_orFallback (a.prop "type") (ofString "file")
    by_cases hpath : truthyValue (a.prop "localPath") = true
    · have hconverts := bind_toText _ hpath
      rw [← hname, ← htype, ← hconverts, if_pos hpath]
      cases (a.prop "localPath").bind Json.toText <;>
        cases (orFallback (a.prop "type") (.str (ofString "file"))).toText <;>
        cases escapeValue (orFallback (a.prop "name")
          (orFallback (a.prop "filename") (.str (ofString "attachment")))) <;> simp [hpath]
    · have hnone : truthyValue (a.prop "localPath") = false := by simpa using hpath
      rw [← hname, ← htype, if_neg hpath, iff_true_intro (converts_of_falsy hnone), iff_true_intro hnone]
      by_cases hurl : truthyValue (a.prop "url") = true
      · rw [← bind_escapeValue _ hurl, if_pos hurl]
        cases (a.prop "url").bind escapeValue <;>
          cases (orFallback (a.prop "type") (.str (ofString "file"))).toText <;>
          cases escapeValue (orFallback (a.prop "name")
            (orFallback (a.prop "filename") (.str (ofString "attachment")))) <;> simp
      · have htextual : FirstTextual [a.prop "url"] := by simp [FirstTextual, hurl]
        rw [if_neg hurl, iff_true_intro htextual]
        cases (orFallback (a.prop "type") (.str (ofString "file"))).toText <;>
          cases escapeValue (orFallback (a.prop "name")
            (orFallback (a.prop "filename") (.str (ofString "attachment")))) <;> simp
  rw [hfields, notNull_isSome_iff]
  exact ⟨fun ⟨h1, h2, h3, h4, h5⟩ => ⟨h1, h2, h3, h4, h5⟩, fun ⟨h1, h2, h3, h4, h5⟩ => ⟨h1, h2, h3, h4, h5⟩⟩

theorem formatAttachments_isSome_iff (attachments : Option Value) :
    (formatAttachments attachments).isSome ↔ ∀ l, attachments = some (.arr l) → ∀ a ∈ l, AttachmentTyped a := by
  unfold formatAttachments
  split
  · rename_i a l
    rw [Option.isSome_map, mapM_isSome_iff]
    constructor
    · intro h m hm b hb
      obtain rfl := Json.arr.inj (Option.some.inj hm)
      exact (formatAttachment_isSome_iff b).mp (h b hb)
    · intro h b hb
      exact (formatAttachment_isSome_iff b).mpr (h _ rfl b hb)
  · rename_i hnot
    refine ⟨fun _ l hl a ha => ?_, fun _ => rfl⟩
    cases l with
    | nil => exact absurd ha List.not_mem_nil
    | cons b l => exact absurd hl (hnot b l)

theorem quotedMessage_isSome_iff (sender text : Option Value) : (quotedMessage sender text).isSome ↔
    (truthyValue text = true → FirstTextual [sender]) ∧ (truthyValue sender = true → FirstTextual [text]) := by
  unfold quotedMessage
  by_cases hsender : truthyValue sender = true
  · by_cases htext : truthyValue text = true
    · rw [← bind_escapeValue _ hsender, ← bind_escapeValue _ htext]
      cases sender.bind escapeValue <;> cases text.bind escapeValue <;> simp [hsender, htext]
    · simp [htext, FirstTextual]
  · simp [hsender, FirstTextual]

theorem formatReplyContext_isSome_iff (replyTo : Value) : (formatReplyContext (some replyTo)).isSome ↔
    (truthyValue (replyTo.prop "text") = true → FirstTextual [replyTo.prop "sender"]) ∧
      (truthyValue (replyTo.prop "sender") = true → FirstTextual [replyTo.prop "text"]) := by
  unfold formatReplyContext
  by_cases hreply : truthyValue (some replyTo) = true
  · simpa [hreply] using quotedMessage_isSome_iff (replyTo.prop "sender") (replyTo.prop "text")
  · have hnone : ∀ name, replyTo.prop name = none := by
      intro name
      cases replyTo with
      | obj fields => exact absurd rfl hreply
      | _ => rfl
    have hfalsy : truthyValue none = false := rfl
    simp [hreply, hnone, hfalsy]

theorem commandText_isSome_iff (content : Value) :
    (commandText content).isSome ↔ FirstTextual [content.prop "text"] := by
  rw [← escape_first _ []]
  unfold commandText
  cases orFallback (content.prop "text") (.str []) <;> simp [escapeValue]

theorem includesColon_arr (l : List Value) :
    ∃ b, includesColon (.arr l) = some b ∧ (b = true ↔ .str [unit ':'] ∈ l) := by
  refine ⟨_, rfl, ?_⟩
  rw [List.any_eq_true]
  constructor
  · rintro ⟨v, hv, hcolon⟩
    cases v with
    | str t => rwa [of_decide_eq_true hcolon] at hv
    | _ => cases hcolon
  · exact fun h => ⟨_, h, by simp⟩

theorem namespacedId_isSome_iff (channelType : Option Text) (raw : Value) :
    (namespacedId channelType raw).isSome ↔ SenderIdTyped channelType raw := by
  unfold namespacedId SenderIdTyped
  by_cases htruthy : truthyValue (some raw) = true
  · cases raw with
    | null => cases htruthy
    | bool b => simp [includesColon, htruthy]
    | num x => simp [includesColon, htruthy]
    | obj fields => simp [includesColon, htruthy]
    | str t =>
      by_cases hcolon : unit ':' ∈ t
      · simp [includesColon, htruthy, hcolon]
      · rcases channelType with _ | _ | ⟨c, channel⟩ <;> simp [includesColon, htruthy, hcolon, toText_str]
    | arr l =>
      obtain ⟨b, hincludes, hb⟩ := includesColon_arr l
      rw [← toText_isSome_iff]
      cases b with
      | true => simp [hincludes, htruthy, hb.mp rfl]
      | false =>
        have hno : .str [unit ':'] ∉ l := fun h => Bool.false_ne_true (hb.mpr h)
        rcases channelType with _ | _ | ⟨c, channel⟩
        · simp [hincludes, htruthy, falsy]
        · simp [hincludes, htruthy, falsy]
        · cases (Json.arr l : Value).toText <;> simp [hincludes, htruthy, hno, falsy]
  · simp [htruthy]

/-! ### Exceptions, function by function -/

theorem isClearCommand_isSome_iff (msg : MessageInRow) : (isClearCommand msg).isSome ↔
    parseContent msg.content ≠ .null ∧ FirstTextual [(parseContent msg.content).prop "text"] := by
  unfold isClearCommand
  rw [← notNull_isSome_iff]
  refine bind_isSome_iff fun content hcontent => ?_
  rw [notNull_eq hcontent, ← commandText_isSome_iff]
  cases commandText (parseContent msg.content) <;> simp

theorem categorizeMessage_isSome_iff (msg : MessageInRow) : (categorizeMessage msg).isSome ↔
    parseContent msg.content ≠ .null ∧ FirstTextual [(parseContent msg.content).prop "text"] ∧
      SenderIdTyped msg.channelType (orFallback ((parseContent msg.content).prop "senderId")
        (orFallback (((parseContent msg.content).prop "author").bind fun a => a.prop "userId") .null)) := by
  unfold categorizeMessage
  rw [← notNull_isSome_iff]
  refine bind_isSome_iff fun content hcontent => ?_
  rw [notNull_eq hcontent, ← commandText_isSome_iff]
  refine bind_isSome_iff fun text _ => ?_
  rw [← namespacedId_isSome_iff]
  change _ ↔ (extractSenderId msg (parseContent msg.content)).isSome
  cases extractSenderId msg (parseContent msg.content) with
  | none => simp
  | some senderId =>
    by_cases hslash : text.head? = some (unit '/') <;> simp [hslash]

theorem senderName_isSome_iff (content : Value) : (escapeValue (senderName content)).isSome ↔
    FirstTextual [content.prop "sender", (content.prop "author").bind fun a => a.prop "fullName",
      (content.prop "author").bind fun a => a.prop "userName"] := by
  unfold senderName
  rw [escape_orFallback, escape_orFallback, escape_first]
  rfl

theorem replyAttr_isSome_iff (replyTo : Value) : (replyAttr (some replyTo)).isSome ↔ Converts (replyTo.prop "id") := by
  unfold replyAttr
  change (if truthyValue (replyTo.prop "id") then ((replyTo.prop "id").bind Json.toText).map _ else _).isSome ↔ _
  by_cases htruthy : truthyValue (replyTo.prop "id") = true
  · rw [if_pos htruthy, Option.isSome_map, bind_toText _ htruthy]
  · rw [if_neg htruthy, iff_true_intro (converts_of_falsy (by simpa using htruthy))]
    simp

theorem reply_isSome_iff (replyTo : Option Value) :
    (replyAttr replyTo).isSome ∧ (formatReplyContext replyTo).isSome ↔ ∀ r, replyTo = some r → ReplyTyped r := by
  cases replyTo with
  | none => simp [truthyValue, replyAttr, formatReplyContext]
  | some replyTo =>
    rw [replyAttr_isSome_iff, formatReplyContext_isSome_iff]
    constructor
    · rintro ⟨hid, hsender, htext⟩ r hr
      obtain rfl := Option.some.inj hr
      exact ⟨hid, hsender, htext⟩
    · intro h
      obtain ⟨hid, hsender, htext⟩ := h replyTo rfl
      exact ⟨hid, hsender, htext⟩

theorem attachmentsSuffix_isSome_iff (attachments : Option Value) :
    (attachmentsSuffix includeAttachments attachments).isSome ↔
      (includeAttachments = true → ∀ l, attachments = some (.arr l) → ∀ a ∈ l, AttachmentTyped a) := by
  rw [← formatAttachments_isSome_iff]
  cases includeAttachments <;> simp [attachmentsSuffix]

/-- What the prompt needs of a chat row. -/
theorem formatSingleChat_isSome_iff (msg : MessageInRow) :
    (formatSingleChat w locale includeAttachments msg).isSome ↔ parseContent msg.content ≠ .null ∧
      ((∀ r, (parseContent msg.content).prop "replyTo" = some r → ReplyTyped r) ∧
      (includeAttachments = true → ∀ l, (parseContent msg.content).prop "attachments" = some (.arr l) →
        ∀ a ∈ l, AttachmentTyped a) ∧
      FirstTextual [(parseContent msg.content).prop "sender",
        ((parseContent msg.content).prop "author").bind fun a => a.prop "fullName",
        ((parseContent msg.content).prop "author").bind fun a => a.prop "userName"] ∧
      FirstTextual [(parseContent msg.content).prop "text"]) := by
  unfold formatSingleChat
  rw [← notNull_isSome_iff]
  refine bind_isSome_iff fun content hcontent => ?_
  rw [notNull_eq hcontent, ← reply_isSome_iff, ← attachmentsSuffix_isSome_iff, ← senderName_isSome_iff,
    ← escape_first _ [], and_assoc]
  refine bind_isSome_iff fun _ _ => bind_isSome_iff fun _ _ => bind_isSome_iff fun _ _ => bind_isSome_iff fun _ _ => ?_
  cases escapeValue (orFallback ((parseContent msg.content).prop "text") (.str [])) <;> simp

theorem formatTaskMessage_isSome_iff (msg : MessageInRow) : (formatTaskMessage w locale msg).isSome ↔
    parseContent msg.content ≠ .null ∧ Converts ((parseContent msg.content).prop "prompt") := by
  unfold formatTaskMessage
  rw [← notNull_isSome_iff]
  refine bind_isSome_iff fun content hcontent => ?_
  rw [notNull_eq hcontent, ← toText_orFallback _ []]
  cases (orFallback ((parseContent msg.content).prop "prompt") (.str [])).toText <;> simp

theorem formatWebhookMessage_isSome_iff (msg : MessageInRow) : (formatWebhookMessage w msg).isSome ↔
    parseContent msg.content ≠ .null ∧ FirstTextual [(parseContent msg.content).prop "source"] ∧
      FirstTextual [(parseContent msg.content).prop "event"] := by
  unfold formatWebhookMessage
  rw [← notNull_isSome_iff]
  refine bind_isSome_iff fun content hcontent => ?_
  rw [notNull_eq hcontent, ← escape_first _ (ofString "unknown"), ← escape_first _ (ofString "unknown")]
  refine bind_isSome_iff fun _ _ => ?_
  cases escapeValue (orFallback ((parseContent msg.content).prop "event") (.str (ofString "unknown"))) <;> simp

theorem formatSystemMessage_isSome_iff (msg : MessageInRow) : (formatSystemMessage w msg).isSome ↔
    parseContent msg.content ≠ .null ∧ FirstTextual [(parseContent msg.content).prop "action"] ∧
      FirstTextual [(parseContent msg.content).prop "status"] := by
  unfold formatSystemMessage
  rw [← notNull_isSome_iff]
  refine bind_isSome_iff fun content hcontent => ?_
  rw [notNull_eq hcontent, ← escape_first _ (ofString "unknown"), ← escape_first _ (ofString "unknown")]
  refine bind_isSome_iff fun _ _ => ?_
  cases escapeValue (orFallback ((parseContent msg.content).prop "status") (.str (ofString "unknown"))) <;> simp

theorem formatChatMessages_isSome_iff (messages : List MessageInRow) :
    (formatChatMessages w locale includeAttachments messages).isSome ↔
      ∀ m ∈ messages, (formatSingleChat w locale includeAttachments m).isSome := by
  unfold formatChatMessages
  split
  · simp
  · rw [Option.isSome_map, mapM_isSome_iff]

theorem chatParts_isSome_iff (messages : List MessageInRow) : (chatParts w locale includeAttachments messages).isSome ↔
    ∀ m ∈ messages, (formatSingleChat w locale includeAttachments m).isSome := by
  unfold chatParts
  by_cases hempty : messages = []
  · simp [hempty]
  · rw [if_neg hempty, Option.isSome_map, formatChatMessages_isSome_iff]

theorem formatMessages_isSome_iff (messages : List MessageInRow) :
    (formatMessages w locale includeAttachments messages).isSome ↔
      (∀ m ∈ messages.filter (fun m => m.kind.isChat), (formatSingleChat w locale includeAttachments m).isSome) ∧
      (∀ m ∈ messages.filter (fun m => m.kind = .task), (formatTaskMessage w locale m).isSome) ∧
      (∀ m ∈ messages.filter (fun m => m.kind = .webhook), (formatWebhookMessage w m).isSome) ∧
      ∀ m ∈ messages.filter (fun m => m.kind = .system), (formatSystemMessage w m).isSome := by
  unfold formatMessages
  by_cases hempty : messages = []
  · simp [hempty]
  · rw [if_neg hempty, ← chatParts_isSome_iff, ← mapM_isSome_iff, ← mapM_isSome_iff, ← mapM_isSome_iff]
    refine bind_isSome_iff fun _ _ => bind_isSome_iff fun _ _ => bind_isSome_iff fun _ _ => ?_
    cases (messages.filter fun m => m.kind = .system).mapM (formatSystemMessage w) <;> simp

/-- **The five return** exactly when each row is typed as its kind is read. -/
theorem runner_returns_iff (w : AgentRunner) (locale : Locale) (includeAttachments : Bool) (rows : List MessageInRow) :
    Returns w locale includeAttachments rows ↔ ∀ m ∈ rows, Typed includeAttachments m := by
  constructor
  · intro h m hm
    have hprompt := formatMessages_isSome_iff rows |>.mp h.prompt
    obtain ⟨hchats, htasks, hwebhooks, hsystems⟩ := hprompt
    have hchat : m.kind.isChat = true → parseContent m.content ≠ .null ∧
        ChatTyped includeAttachments m.channelType (parseContent m.content) := by
      intro hkind
      obtain ⟨hnull, hreply, hattachments, hsender, htext⟩ :=
        (formatSingleChat_isSome_iff m).mp (hchats m (List.mem_filter.mpr ⟨hm, hkind⟩))
      obtain ⟨-, -, hid⟩ := (categorizeMessage_isSome_iff m).mp (h.category m hm hkind)
      exact ⟨hnull, htext, hid, hsender, hreply, hattachments⟩
    unfold Typed
    cases hkind : m.kind with
    | chat => exact hchat (by rw [hkind]; rfl)
    | chatSdk => exact hchat (by rw [hkind]; rfl)
    | task => exact (formatTaskMessage_isSome_iff m).mp (htasks m (List.mem_filter.mpr ⟨hm, by simp [hkind]⟩))
    | webhook => exact (formatWebhookMessage_isSome_iff m).mp (hwebhooks m (List.mem_filter.mpr ⟨hm, by simp [hkind]⟩))
    | system => exact (formatSystemMessage_isSome_iff m).mp (hsystems m (List.mem_filter.mpr ⟨hm, by simp [hkind]⟩))
    | other text => trivial
  · intro h
    have hchat : ∀ m ∈ rows, m.kind.isChat = true → parseContent m.content ≠ .null ∧
        ChatTyped includeAttachments m.channelType (parseContent m.content) := by
      intro m hm hkind
      have htyped := h m hm
      unfold Typed at htyped
      cases hk : m.kind with
      | chat => simpa only [hk] using htyped
      | chatSdk => simpa only [hk] using htyped
      | _ => rw [hk] at hkind; cases hkind
    refine ⟨splitBatchByTurn_returns rows, resolveBatchIdentity_returns rows, fun m hm hkind => ?_,
      fun m hm hkind => ?_, (formatMessages_isSome_iff rows).mpr
        ⟨fun m hm => ?_, fun m hm => ?_, fun m hm => ?_, fun m hm => ?_⟩⟩
    · obtain ⟨hnull, hcontent⟩ := hchat m hm hkind
      exact (isClearCommand_isSome_iff m).mpr ⟨hnull, hcontent.text⟩
    · obtain ⟨hnull, hcontent⟩ := hchat m hm hkind
      exact (categorizeMessage_isSome_iff m).mpr ⟨hnull, hcontent.text, hcontent.senderId⟩
    · obtain ⟨hmem, hkind⟩ := List.mem_filter.mp hm
      obtain ⟨hnull, hcontent⟩ := hchat m hmem hkind
      exact (formatSingleChat_isSome_iff m).mpr
        ⟨hnull, hcontent.reply, hcontent.attachments, hcontent.sender, hcontent.text⟩
    · obtain ⟨hmem, hkind⟩ := List.mem_filter.mp hm
      have htyped := h m hmem
      rw [Typed, of_decide_eq_true hkind] at htyped
      exact (formatTaskMessage_isSome_iff m).mpr htyped
    · obtain ⟨hmem, hkind⟩ := List.mem_filter.mp hm
      have htyped := h m hmem
      rw [Typed, of_decide_eq_true hkind] at htyped
      exact (formatWebhookMessage_isSome_iff m).mpr htyped
    · obtain ⟨hmem, hkind⟩ := List.mem_filter.mp hm
      have htyped := h m hmem
      rw [Typed, of_decide_eq_true hkind] at htyped
      exact (formatSystemMessage_isSome_iff m).mpr htyped

/-- A row whose text is a number. -/
def numericRow : MessageInRow where
  seq := some 2
  kind := .chat
  timestamp := []
  trigger := true
  platformId := some (ofString "ag-peer")
  channelType := some (ofString "agent")
  threadId := none
  content := ofString "\x7b\"text\":5\x7d"
  originUserId := none

/-- A runner that has no destinations. -/
def idleRunner : AgentRunner where
  loop := Loop.fresh [] [] 0
  turnRouting := { toSurface := nowhere, inReplyTo := none }
  gateRow := none
  messagesOut := []
  destinations := []
  sessionRouting := none
  pending := []
  installed := none
  inherited := false

/-- A peer's text that is a number ends the process, outside of the `try`. -/
theorem numeric_text_throws : isClearCommand numericRow = none ∧
    ¬∀ (w : AgentRunner) (locale : Locale) (includeAttachments : Bool) (rows : List MessageInRow),
      Returns w locale includeAttachments rows := by
  have hnone : isClearCommand numericRow = none := by decide +kernel
  refine ⟨hnone, fun h => ?_⟩
  have hclear := (h idleRunner ⟨ofString "UTC", fun t _ => t⟩ true [numericRow]).clear numericRow (.head _) rfl
  rw [hnone] at hclear
  cases hclear

end AgentDesk.Formatter
