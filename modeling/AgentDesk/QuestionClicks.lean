/-
# Clicks on question cards

A container asks a question with a row whose `questionId` it chooses. The host records the question
(`deliverMessage`, `createPendingQuestion`: `INSERT OR IGNORE`, so that an id that is taken stays with whoever took
it) and the adapter sends a card whose buttons carry the id. A click is offered to four modules, and each looks the
id up in a table of its own: the credential requests and approvals first, then the pending questions, then the
unknown senders and channels. All of them share one space of ids, and none knows which row a card came from.

* `click_confined_iff`: whatever title and options a session's row has, and whoever clicks, no click on its card does
  more than answer a question of that session, exactly when the id is no approval's, its pending question is the
  session's own, and no operator has a say in a sender's or channel's row under it.
* `other_session_answered`: two sessions ask under one id, and the second one's card answers the first one's question.

The id is trimmed on the way back from Feishu, and not when it is recorded.
-/
import AgentDesk.FeishuInbound

namespace AgentDesk

open Js

/-! ### Recording a question -/

/-- `readString` of a required contract field: a string of at most `maxLength` UTF-16 units. -/
def readRequired (content : List (String × Json)) (key : String) (maxLength : ℕ) : Option String :=
  match fieldOf content key with
  | some (.str s) => if maxLength < (s.toList.map codeUnits).sum then none else some s
  | _ => none

/-- `INSERT OR IGNORE`; the id is the primary key. -/
def createPendingQuestion (questions : List PendingQuestion) (pq : PendingQuestion) : List PendingQuestion :=
  if questions.any fun r => r.questionId = pq.questionId then questions else questions ++ [pq]

/-- The part of `deliverMessage` that records a question, before the row goes to the adapter. -/
def recordQuestion (questions : List PendingQuestion) (session : Session) (content : List (String × Json)) :
    Except String (List PendingQuestion) :=
  if Json.asString (fieldOf content "type") ≠ some "ask_question" then .ok questions
  else match readRequired content "questionId" 256, readRequired content "title" 1024, fieldOf content "options" with
    | some questionId, some title, some (.arr options) =>
      if questionId = "" ∨ title = "" then .ok questions
      -- `normalizeOptions` reads a label of every option that is no string
      else if options.any fun o => match o with | .null => true | _ => false then
        .error "Cannot read properties of null (reading 'label')"
      else .ok (createPendingQuestion questions ⟨questionId, session.id⟩)
    | _, _, _ => .ok questions

/-- The pending question under an id. -/
def getPendingQuestion (questions : List PendingQuestion) (questionId : String) : Option PendingQuestion :=
  questions.find? fun q => q.questionId = questionId

/-! ### The card and its clicks -/

/-- The content asks a question: it is no reaction and no edit of another message. -/
structure AsksQuestion (content : List (String × Json)) (questionId : String) : Prop where
  type : Json.asString (fieldOf content "type") = some "ask_question"
  questionId : fieldOf content "questionId" = some (.str questionId)
  noReaction : Json.asString (fieldOf content "operation") ≠ some "reaction"
  noEdit : Json.asString (fieldOf content "operation") = some "edit" →
    ∀ messageId, fieldOf content "messageId" ≠ some (.str messageId)

theorem AsksQuestion.deliver {content : List (String × Json)} {questionId : String}
    (h : AsksQuestion content questionId) (env : FeishuEnv) (platformId : String) (threadId : Option String)
    (files : List String) :
    feishuDeliver env platformId threadId content files =
      sendQuestion env (resolveReceiveTarget platformId) threadId content questionId := by
  have hnew : sendNew env platformId threadId content files =
      sendQuestion env (resolveReceiveTarget platformId) threadId content questionId := by
    simp only [sendNew, h.type, h.questionId]
  unfold feishuDeliver
  rw [if_neg h.noReaction]
  split
  · rename_i messageId hop hmessage
    exact (h.noEdit hop messageId hmessage).elim
  · exact hnew

theorem mem_askCard_values {title questionId question : String} {options : List NormalizedQuestionOption}
    {expectedUserId : Option String} {expiresAt : ℕ} {v : Json} :
    v ∈ buttonValues
        (buildFeishuAskQuestionCardWithPayloads title questionId question options expectedUserId expiresAt) ↔
      ∃ option ∈ options, v = askValue questionId expectedUserId expiresAt option := by
  unfold buildFeishuAskQuestionCardWithPayloads
  rw [actionCard_buttons, mem_buttonValuesItems]
  constructor
  · rintro ⟨j, hj, hv⟩
    obtain ⟨i, hi, rfl⟩ := List.mem_mapIdx.mp hj
    rw [button_values, List.mem_singleton] at hv
    exact ⟨options[i], List.getElem_mem hi, hv⟩
  · rintro ⟨option, hoption, rfl⟩
    obtain ⟨i, hi, rfl⟩ := List.getElem_of_mem hoption
    exact ⟨_, List.mem_mapIdx.mpr ⟨i, hi, rfl⟩, by rw [button_values]; exact .head _⟩

theorem sendQuestion_values {env : FeishuEnv} {target : ReceiveTarget} {threadId : Option String}
    {content : List (String × Json)} {questionId : String} {call : FeishuCall} {v : Json}
    (hcall : call ∈ sendQuestion env target threadId content questionId) (hv : v ∈ buttonValues call.content) :
    ∃ expectedUserId option, v = askValue questionId expectedUserId (env.now + 300000) option := by
  unfold sendQuestion at hcall
  dsimp only at hcall
  split at hcall
  · exact absurd hcall List.not_mem_nil
  rcases List.mem_cons.mp hcall with rfl | hcall
  · obtain ⟨option, -, he⟩ := mem_askCard_values.mp hv
    exact ⟨_, option, he⟩
  · split at hcall
    · rw [List.mem_singleton.mp hcall, FeishuCall.content, textContent_buttons] at hv
      exact absurd hv List.not_mem_nil
    · exact absurd hcall List.not_mem_nil

/-- The user id of a click: none, or not blank. -/
def OperatorId (user : String) : Prop := user = "" ∨ ∃ s, trim s ≠ "" ∧ user = trim s

theorem readString_spec {j : Option Json} {s : String} (h : readString j = some s) : ∃ t, trim t ≠ "" ∧ s = trim t := by
  unfold readString at h
  split at h
  · rename_i t
    split at h
    · cases h
    · rename_i hne
      exact ⟨t, hne, (Option.some.inj h).symm⟩
  · cases h

theorem operatorId_read (a b c : Option Json) :
    OperatorId ((((readString a).or (readString b)).or (readString c)).getD "") := by
  cases h : ((readString a).or (readString b)).or (readString c) with
  | none => exact .inl rfl
  | some user =>
    refine .inr ?_
    rw [Option.getD_some]
    rcases Option.or_eq_some_iff.mp h with h | ⟨-, h⟩
    · rcases Option.or_eq_some_iff.mp h with h | ⟨-, h⟩
      · exact readString_spec h
      · exact readString_spec h
    · exact readString_spec h

theorem parse_asked {value : List (String × Json)} {questionId : String} {expectedUserId : Option String}
    {expiresAt : ℕ} {option : NormalizedQuestionOption}
    (hvalue : Json.obj value = askValue questionId expectedUserId expiresAt option) {now : ℕ} {q selected : String}
    {expected : Option String} (h : parseFeishuQuestionActionPayload value now = some (q, selected, expected)) :
    trim questionId ≠ "" ∧ q = trim questionId ∧ selected = trim option.value := by
  have hfields := Json.obj.inj hvalue
  have hid : readString (fieldOf value "questionId") =
      if trim questionId = "" then none else some (trim questionId) := by
    rw [hfields]
    rfl
  have hoption : readString (fieldOf value "selectedOption") =
      if trim option.value = "" then none else some (trim option.value) := by
    rw [hfields]
    rfl
  unfold parseFeishuQuestionActionPayload at h
  rw [hid, hoption] at h
  split at h
  · cases h
  split at h
  · rename_i q' selected' hq hsel
    obtain ⟨hne, rfl⟩ : trim questionId ≠ "" ∧ trim questionId = q' := by
      split at hq
      · cases hq
      · rename_i hne
        exact ⟨hne, Option.some.inj hq⟩
    obtain rfl : trim option.value = selected' := by
      split at hsel
      · cases hsel
      · exact Option.some.inj hsel
    dsimp only at h
    rw [Option.ite_none_left_eq_some] at h
    obtain ⟨hq', hsel'⟩ := Prod.mk.inj (Option.some.inj h.2)
    exact ⟨hne, hq'.symm, (Prod.mk.inj hsel').1.symm⟩
  · cases h

/-- A click on a question's button is ignored, or answers under the trimmed id. -/
theorem cardTask_asked (cfg : FeishuConfig) (io : FeishuIo) {c : FeishuCardAction} {questionId : String}
    {expectedUserId : Option String} {expiresAt : ℕ} {option : NormalizedQuestionOption}
    (hvalue : Json.obj c.value = askValue questionId expectedUserId expiresAt option) :
    cfg.cardTask io c = .ignore ∨ ∃ user, trim questionId ≠ "" ∧ OperatorId user ∧
      cfg.cardTask io c = .respond ⟨trim questionId, trim option.value, some user, "feishu", "", none⟩ := by
  have hkind : fieldOf c.value "kind" = some (.str "card.ask_question") := by
    rw [Json.obj.inj hvalue]
    rfl
  have hout : parseRosterOptOut (some c.value) false = none := by
    simp [parseRosterOptOut, hkind, Json.asString]
  have hin : parseRosterOptIn (.obj c.value) = none := by
    simp [parseRosterOptIn, hkind, Json.asString]
  unfold FeishuConfig.cardTask
  rw [hout, hin]
  dsimp only
  cases hparse : parseFeishuQuestionActionPayload c.value io.now with
  | none => exact .inl rfl
  | some x =>
    obtain ⟨q, selected, expected⟩ := x
    obtain ⟨hne, rfl, rfl⟩ := parse_asked hvalue hparse
    dsimp only
    split
    · exact .inl rfl
    · exact .inr ⟨_, hne, operatorId_read c.openId c.userId c.unionId, rfl⟩

/-! ### The handlers -/

/-- The tables as each of the four handlers finds them. -/
structure ClickTables where
  approvals : ResponseDesk
  questions : ResponseDesk
  senders : ResponseDesk
  channels : ResponseDesk

/-- With how the rest of the approvals module's part ends, whether the answer can be written, and whether the
approver can be reached. -/
def ClickTables.desks (t : ClickTables) (handled answer : Except String Unit) (approverDm : Bool) :
    List ResponseDesk :=
  [{ t.approvals with handled }, { t.questions with answer }, t.senders, { t.channels with approverDm }]

/-- The effect answers a question of the session. -/
def OwnAnswer (sessionId : String) (d : ResponseDesk) : ResponseEffect → Prop
  | .resolvePendingQuestion q => ∃ pq, getPendingQuestion d.questions q = some pq ∧ pq.sessionId = sessionId
  | _ => False

/-- Everything an event asks for is to answer questions of the session. -/
def FeishuTask.StaysWith (sessionId : String) (desks : List ResponseDesk) : FeishuTask → Prop
  | .ignore => True
  | .respond p => ∀ x ∈ dispatchResponse desks p, OwnAnswer sessionId x.1 x.2
  | _ => False

/-- No click on the card of a row that asks under the id does more than to answer a question of the session. -/
def ClicksConfined (sessionId questionId : String) (t : ClickTables) : Prop :=
  ∀ content env platformId threadId files call v cfg io c handled answer approverDm, AsksQuestion content questionId →
    call ∈ feishuDeliver env platformId threadId content files → v ∈ buttonValues call.content →
    Json.obj c.value = v → io.desks = t.desks handled answer approverDm →
    FeishuTask.StaysWith sessionId io.desks (FeishuConfig.cardTask cfg io c)

/-- No operator has a say in the row. -/
def NoSay (d : ResponseDesk) (approverUserId agentGroupId : String) : Prop :=
  ∀ s, trim s ≠ "" → isAuthorized d ("feishu:" ++ trim s) approverUserId agentGroupId = false

/-- No operator has a say in what the permissions module finds under the id. -/
def NoSayUnder (t : ClickTables) (q : String) : Prop :=
  match t.senders.senderApprovals.find? fun r => r.id = q with
  | some row => NoSay t.senders row.approverUserId row.agentGroupId
  | none => ∀ row, (t.channels.channelApprovals.find? fun r => r.messagingGroupId = q) = some row →
      NoSay t.channels row.approverUserId row.agentGroupId

/-- The id is no approval's; its pending question, unless the session of that is gone, is the session's own; and, but
for the case that it is gone, no operator has a say in what the permissions module has under the id. -/
def OnlyOwn (sessionId q : String) (t : ClickTables) : Prop :=
  q ∉ t.approvals.approvals.waiting ∧ getPendingApproval t.approvals.approvals.approvals q = none ∧
    match getPendingQuestion t.questions.questions q with
    | none => NoSayUnder t q
    | some pq => (getSession t.questions.approvals.sessions pq.sessionId).isSome = true →
        pq.sessionId = sessionId ∧ NoSayUnder t q

theorem handleApprovalsResponse_unclaimed {env : ApprovalReads} {q value : String} :
    handleApprovalsResponse env q value = .unclaimed ↔
      q ∉ env.waiting ∧ getPendingApproval env.approvals q = none := by
  have hreg : ∀ a, handleRegisteredApproval env a value ≠ .unclaimed := by
    intro a
    unfold handleRegisteredApproval
    split
    · simp
    · split
      · simp
      · split_ifs <;> simp
  unfold handleApprovalsResponse
  by_cases hw : q ∈ env.waiting
  · simp [hw]
  · rw [if_neg hw]
    cases getPendingApproval env.approvals q with
    | none => simp [hw]
    | some a =>
      simp only [reduceCtorEq, and_false, iff_false]
      split
      · simp
      · split
        · simp
        · exact hreg a

theorem handleApprovalsResponse_badPayload {env : ApprovalReads} {q value : String} {a : PendingApproval}
    (h : handleApprovalsResponse env q value = .badPayload a) : value = "approve" := by
  by_contra hvalue
  have hreg : ∀ b, handleRegisteredApproval env b value ≠ .badPayload a := by
    intro b
    unfold handleRegisteredApproval
    rw [if_pos hvalue]
    split
    · simp
    · split <;> simp
  unfold handleApprovalsResponse at h
  split at h
  · cases h
  split at h
  · cases h
  split at h
  · cases h
  split at h
  · cases h
  exact hreg _ h

theorem approvalsResponse_effect {d : ResponseDesk} {p : ResponsePayload} (hok : d.handled = .ok ())
    (hvalue : p.value ≠ "approve") (hclaimed : handleApprovalsResponse d.approvals p.questionId p.value ≠ .unclaimed) :
    ∃ e ∈ (approvalsResponse d p).1, ∀ q, e ≠ .resolvePendingQuestion q := by
  have hfinish : ∀ before after, d.finish before after = (before ++ after, .ok true) := by
    intro before after
    rw [ResponseDesk.finish, hok]
  unfold approvalsResponse
  cases hc : handleApprovalsResponse d.approvals p.questionId p.value with
  | unclaimed => exact (hclaimed hc).elim
  | credential approve =>
    simp only [hfinish]
    exact ⟨_, .head _, fun _ h => (nomatch h)⟩
  | drop a => exact ⟨_, .head _, fun _ h => (nomatch h)⟩
  | stale a | reject a | noHandler a =>
    simp only [hfinish]
    exact ⟨_, .head _, fun _ h => (nomatch h)⟩
  | start a => exact (hvalue (handleApprovalsResponse_start.mp hc).2.value).elim
  | badPayload a => exact (hvalue (handleApprovalsResponse_badPayload hc)).elim

/-- The payload of a click in Feishu. -/
structure FeishuClick (p : ResponsePayload) : Prop where
  channel : p.channelType = "feishu"
  operator : ∃ user, p.userId = some user ∧ OperatorId user

theorem FeishuClick.clicker {p : ResponsePayload} (h : FeishuClick p) {clicker : String}
    (hc : clickerId p = some clicker) : ∃ s, trim s ≠ "" ∧ clicker = "feishu:" ++ trim s := by
  obtain ⟨user, huser, hop⟩ := h.operator
  unfold clickerId at hc
  rw [huser, h.channel] at hc
  rcases hop with rfl | ⟨s, hne, rfl⟩
  · simp at hc
  · rw [if_pos (by simpa using hne)] at hc
    exact ⟨s, hne, (Option.some.inj hc).symm⟩

theorem permissions_silent {t : ClickTables} {p : ResponsePayload} (hp : FeishuClick p)
    (h : NoSayUnder t p.questionId) (approverDm : Bool) :
    dispatchTo p [(handleSenderApprovalResponse, t.senders),
      (handleChannelApprovalResponse, { t.channels with approverDm })] = [] := by
  unfold NoSayUnder at h
  have hsender : (handleSenderApprovalResponse t.senders p).1 = [] ∧
      ((handleSenderApprovalResponse t.senders p).2 = .ok true ∨
        (t.senders.senderApprovals.find? fun r => r.id = p.questionId) = none) := by
    unfold handleSenderApprovalResponse
    cases hrow : t.senders.senderApprovals.find? fun r => r.id = p.questionId with
    | none => exact ⟨rfl, .inr rfl⟩
    | some row =>
      rw [hrow] at h
      cases hc : clickerId p with
      | none => exact ⟨rfl, .inl rfl⟩
      | some clicker =>
        obtain ⟨s, hne, rfl⟩ := hp.clicker hc
        simp only [h s hne, Bool.not_false, if_true, true_or, and_self]
  have hchannel : (t.senders.senderApprovals.find? fun r => r.id = p.questionId) = none →
      (handleChannelApprovalResponse { t.channels with approverDm } p).1 = [] := by
    intro hnone
    rw [hnone] at h
    unfold handleChannelApprovalResponse
    cases hrow : t.channels.channelApprovals.find? fun r => r.messagingGroupId = p.questionId with
    | none => rfl
    | some row =>
      cases hc : clickerId p with
      | none => rfl
      | some clicker =>
        obtain ⟨s, hne, rfl⟩ := hp.clicker hc
        have hno : isAuthorized { t.channels with approverDm } ("feishu:" ++ trim s) row.approverUserId
            row.agentGroupId = false := h row hrow s hne
        simp only [hno, Bool.not_false, if_true]
  obtain ⟨heffects, hclaimed | hnone⟩ := hsender
  · simp only [dispatchTo, heffects, hclaimed, List.map_nil, List.append_nil]
  · simp only [dispatchTo, heffects, hchannel hnone, List.map_nil, List.nil_append]
    split
    · rfl
    · split <;> rfl

theorem dispatch_unclaimed {t : ClickTables} {p : ResponsePayload}
    (hwaiting : p.questionId ∉ t.approvals.approvals.waiting)
    (happroval : getPendingApproval t.approvals.approvals.approvals p.questionId = none)
    (handled answer : Except String Unit) (approverDm : Bool) :
    dispatchResponse (t.desks handled answer approverDm) p =
      dispatchTo p [(handleInteractiveResponse, { t.questions with answer }),
        (handleSenderApprovalResponse, t.senders),
        (handleChannelApprovalResponse, { t.channels with approverDm })] := by
  have hfirst : approvalsResponse { t.approvals with handled } p = ([], .ok false) := by
    unfold approvalsResponse
    have hun : handleApprovalsResponse t.approvals.approvals p.questionId p.value = .unclaimed :=
      handleApprovalsResponse_unclaimed.mpr ⟨hwaiting, happroval⟩
    simp only [hun]
  change dispatchTo p [(approvalsResponse, { t.approvals with handled }), _, _, _] = _
  rw [dispatchTo, hfirst]
  rfl

theorem interactive_none {d : ResponseDesk} (answer : Except String Unit) {p : ResponsePayload}
    (h : getPendingQuestion d.questions p.questionId = none) :
    handleInteractiveResponse { d with answer } p = ([], .ok false) := by
  unfold getPendingQuestion at h
  simp only [handleInteractiveResponse, h]

theorem interactive_gone {d : ResponseDesk} (answer : Except String Unit) {p : ResponsePayload} {pq : PendingQuestion}
    (h : getPendingQuestion d.questions p.questionId = some pq)
    (hsession : getSession d.approvals.sessions pq.sessionId = none) :
    handleInteractiveResponse { d with answer } p = ([], .ok true) := by
  unfold getPendingQuestion at h
  simp only [handleInteractiveResponse, h, hsession]

theorem interactive_live {d : ResponseDesk} (answer : Except String Unit) {p : ResponsePayload} {pq : PendingQuestion}
    (h : getPendingQuestion d.questions p.questionId = some pq)
    (hsession : (getSession d.approvals.sessions pq.sessionId).isSome = true) :
    handleInteractiveResponse { d with answer } p =
      ([.resolvePendingQuestion p.questionId], answer.map fun _ => true) := by
  obtain ⟨session, hsome⟩ := Option.isSome_iff_exists.mp hsession
  have hid : pq.questionId = p.questionId := by simpa using List.find?_some h
  unfold getPendingQuestion at h
  simp only [handleInteractiveResponse, h, hsome, hid]

theorem confined_of_onlyOwn {sessionId : String} {t : ClickTables} {p : ResponsePayload} (hp : FeishuClick p)
    (h : OnlyOwn sessionId p.questionId t) (handled answer : Except String Unit) (approverDm : Bool) :
    ∀ x ∈ dispatchResponse (t.desks handled answer approverDm) p, OwnAnswer sessionId x.1 x.2 := by
  obtain ⟨hwaiting, happroval, hquestion⟩ := h
  rw [dispatch_unclaimed hwaiting happroval, dispatchTo]
  cases hpq : getPendingQuestion t.questions.questions p.questionId with
  | none =>
    rw [hpq] at hquestion
    rw [interactive_none answer hpq]
    simp only [List.map_nil, List.nil_append, permissions_silent hp hquestion]
    exact fun x hx => absurd hx List.not_mem_nil
  | some pq =>
    rw [hpq] at hquestion
    by_cases hsession : (getSession t.questions.approvals.sessions pq.sessionId).isSome = true
    · obtain ⟨hown, hsilent⟩ := hquestion hsession
      rw [interactive_live answer hpq hsession]
      simp only [permissions_silent hp hsilent, List.map_cons, List.map_nil]
      intro x hx
      obtain rfl : x = ({ t.questions with answer }, .resolvePendingQuestion p.questionId) := by
        cases answer <;> simpa [Except.map] using hx
      exact ⟨pq, hpq, hown⟩
    · rw [interactive_gone answer hpq (by simpa using hsession)]
      exact fun x hx => absurd hx List.not_mem_nil

/-! ### A click that rejects -/

/-- A row with one option. -/
def rejectContent (questionId : String) : List (String × Json) :=
  [("type", .str "ask_question"), ("questionId", .str questionId), ("options", .arr [.str "reject"])]

/-- An adapter that sends cards. -/
def cardEnv : FeishuEnv := ⟨true, 0, false, fun _ => [], false, fun _ => none, fun _ => false, fun _ => false⟩

def rejectOption : NormalizedQuestionOption := ⟨"reject", "reject", "reject"⟩

/-- Its card in a group chat, which anybody may click. -/
def rejectCard (questionId : String) : Json :=
  buildFeishuAskQuestionCardWithPayloads "Question" questionId "" [rejectOption] none 300000

/-- A click on its button. -/
def rejectClick (questionId operator : String) : FeishuCardAction :=
  { token := "t", openId := some (.str operator), userId := none, unionId := none
    value := [("kind", .str "card.ask_question"), ("questionId", .str questionId), ("selectedOption", .str "reject"),
      ("selectedLabel", .str "reject"), ("expiresAt", .num 300000)]
    chatId := none }

theorem rejectContent_deliver (questionId : String) :
    feishuDeliver cardEnv "feishu:oc_x" none (rejectContent questionId) [] =
      [.create (resolveReceiveTarget "feishu:oc_x") .interactive (rejectCard questionId) none] := rfl

theorem rejectClick_task {questionId operator : String} (hq : trim questionId ≠ "") (ho : trim operator ≠ "")
    (io : FeishuIo) (hnow : io.now = 1) :
    FeishuConfig.cardTask sampleFeishuConfig io (rejectClick questionId operator) =
      .respond ⟨trim questionId, "reject", some (trim operator), "feishu", "", none⟩ := by
  have hparse : parseFeishuQuestionActionPayload (rejectClick questionId operator).value io.now =
      some (trim questionId, "reject", none) := by
    have htrim : trim "reject" = "reject" := by decide
    have hlate : ¬(300000 : ℚ) < 1 := by decide
    simp [parseFeishuQuestionActionPayload, rejectClick, fieldOf, Json.asString, readString, hq, htrim, hnow, hlate]
  have hout : parseRosterOptOut (some (rejectClick questionId operator).value) false = none := by
    simp [parseRosterOptOut, rejectClick, fieldOf, Json.asString]
  have hin : parseRosterOptIn (.obj (rejectClick questionId operator).value) = none := by
    simp [parseRosterOptIn, rejectClick, fieldOf, Json.asString]
  have hop : readString (rejectClick questionId operator).openId = some (trim operator) := by
    simp [rejectClick, readString, ho]
  unfold FeishuConfig.cardTask
  rw [hout, hin]
  dsimp only
  rw [hparse, hop]
  rfl

/-- The payload of such a click. -/
def rejection (q operator : String) : ResponsePayload := ⟨q, "reject", some operator, "feishu", "", none⟩

theorem ClicksConfined.rejection {sessionId questionId : String} {t : ClickTables}
    (h : ClicksConfined sessionId questionId t) (hq : trim questionId ≠ "") {operator : String}
    (ho : trim operator ≠ "") (handled answer : Except String Unit) (approverDm : Bool) :
    ∀ x ∈ dispatchResponse (t.desks handled answer approverDm) (rejection (trim questionId) (trim operator)),
      OwnAnswer sessionId x.1 x.2 := by
  have hasks : AsksQuestion (rejectContent questionId) questionId := ⟨rfl, rfl, nofun, nofun⟩
  have hcall : FeishuCall.create (resolveReceiveTarget "feishu:oc_x") .interactive (rejectCard questionId) none ∈
      feishuDeliver cardEnv "feishu:oc_x" none (rejectContent questionId) [] := by
    rw [rejectContent_deliver]
    exact .head _
  have hbutton : askValue questionId none 300000 rejectOption ∈ buttonValues (rejectCard questionId) :=
    mem_askCard_values.mpr ⟨rejectOption, .head _, rfl⟩
  have hstays := h _ cardEnv "feishu:oc_x" none [] _ _ sampleFeishuConfig
    { lockedIo with desks := t.desks handled answer approverDm } (rejectClick questionId operator) handled answer
    approverDm hasks hcall hbutton rfl rfl
  rw [rejectClick_task hq ho _ rfl] at hstays
  exact hstays

theorem rejection_click {q operator : String} (ho : trim operator ≠ "") : FeishuClick (rejection q (trim operator)) :=
  ⟨rfl, _, rfl, .inr ⟨operator, ho, rfl⟩⟩

theorem rejection_clicker {q operator : String} (ho : trim operator ≠ "") :
    clickerId (rejection q (trim operator)) = some ("feishu:" ++ trim operator) := by
  have hprefix : toString "feishu" ++ toString ":" = "feishu:" := by decide
  simp [clickerId, rejection, truthy, ho, hprefix]

theorem sender_rejected {d : ResponseDesk} {q operator : String} {row : PendingSenderApproval} (ho : trim operator ≠ "")
    (hrow : (d.senderApprovals.find? fun r => r.id = q) = some row)
    (hsay : isAuthorized d ("feishu:" ++ trim operator) row.approverUserId row.agentGroupId = true) :
    handleSenderApprovalResponse d (rejection q (trim operator)) =
      ([.deletePendingSenderApproval row.id], .ok true) := by
  have hfind : (d.senderApprovals.find? fun r => r.id = (rejection q (trim operator)).questionId) = some row := hrow
  simp only [handleSenderApprovalResponse, hfind, rejection_clicker ho, hsay, Bool.not_true, Bool.false_eq_true,
    if_false]
  rfl

theorem channel_rejected {d : ResponseDesk} {q operator : String} {row : PendingChannelApproval}
    (ho : trim operator ≠ "") (hrow : (d.channelApprovals.find? fun r => r.messagingGroupId = q) = some row)
    (hsay : isAuthorized d ("feishu:" ++ trim operator) row.approverUserId row.agentGroupId = true) :
    handleChannelApprovalResponse d (rejection q (trim operator)) =
      ([.setMessagingGroupDeniedAt row.messagingGroupId, .deletePendingChannelApproval row.messagingGroupId],
        .ok true) := by
  have hfind : (d.channelApprovals.find? fun r => r.messagingGroupId = (rejection q (trim operator)).questionId) =
      some row := hrow
  simp only [handleChannelApprovalResponse, hfind, rejection_clicker ho, hsay, Bool.not_true, Bool.false_eq_true,
    if_false]
  rfl

theorem noSayUnder_of_rejection {sessionId q : String} {t : ClickTables}
    (h : ∀ operator, trim operator ≠ "" → ∀ x ∈ dispatchTo (rejection q (trim operator))
      [(handleSenderApprovalResponse, t.senders), (handleChannelApprovalResponse, t.channels)],
      OwnAnswer sessionId x.1 x.2) : NoSayUnder t q := by
  unfold NoSayUnder
  cases hsender : t.senders.senderApprovals.find? fun r => r.id = q with
  | some row =>
    intro s hs
    by_contra hsay
    have hgoes := sender_rejected hs hsender (Bool.not_eq_false _ ▸ hsay)
    refine h s hs (t.senders, .deletePendingSenderApproval row.id) ?_
    rw [dispatchTo, hgoes]
    exact .head _
  | none =>
    intro row hchannel s hs
    by_contra hsay
    have hpasses : handleSenderApprovalResponse t.senders (rejection q (trim s)) = ([], .ok false) := by
      have hfind : (t.senders.senderApprovals.find? fun r => r.id = (rejection q (trim s)).questionId) = none := hsender
      simp only [handleSenderApprovalResponse, hfind]
    have hgoes := channel_rejected hs hchannel (Bool.not_eq_false _ ▸ hsay)
    refine h s hs (t.channels, .setMessagingGroupDeniedAt row.messagingGroupId) ?_
    rw [dispatchTo, hpasses]
    change _ ∈ dispatchTo _ _
    rw [dispatchTo, hgoes]
    exact .head _

theorem onlyOwn_of_confined {sessionId questionId : String} {t : ClickTables}
    (h : ClicksConfined sessionId questionId t) (hq : trim questionId ≠ "") :
    OnlyOwn sessionId (trim questionId) t := by
  have hone : trim "ou_x" ≠ "" := by decide
  have hunclaimed : handleApprovalsResponse t.approvals.approvals (trim questionId) "reject" = .unclaimed := by
    by_contra hclaimed
    obtain ⟨e, he, hno⟩ := approvalsResponse_effect (d := { t.approvals with handled := .ok () })
      (p := rejection (trim questionId) (trim "ou_x")) rfl (by simp [rejection]) hclaimed
    have hown := h.rejection hq hone (.ok ()) (.ok ()) false ({ t.approvals with handled := .ok () }, e) (by
      change _ ∈ dispatchTo _ ((approvalsResponse, { t.approvals with handled := .ok () }) :: _)
      rw [dispatchTo]
      exact List.mem_append_left _ (List.mem_map_of_mem he))
    cases e with
    | resolvePendingQuestion q => exact hno q rfl
    | _ => exact hown
  obtain ⟨hwaiting, happroval⟩ := handleApprovalsResponse_unclaimed.mp hunclaimed
  -- the answer cannot be written, so that the click goes on to the permissions module
  have hrest : ∀ operator, trim operator ≠ "" → ∀ x ∈ dispatchTo (rejection (trim questionId) (trim operator))
      [(handleInteractiveResponse, { t.questions with answer := .error "" }),
        (handleSenderApprovalResponse, t.senders), (handleChannelApprovalResponse, t.channels)],
      OwnAnswer sessionId x.1 x.2 := by
    intro operator ho
    have hconfined := h.rejection hq ho (.ok ()) (.error "") t.channels.approverDm
    rw [dispatch_unclaimed (p := rejection (trim questionId) (trim operator)) hwaiting happroval] at hconfined
    exact hconfined
  refine ⟨hwaiting, happroval, ?_⟩
  cases hpq : getPendingQuestion t.questions.questions (trim questionId) with
  | none =>
    refine noSayUnder_of_rejection fun operator ho x hx => hrest operator ho x ?_
    rw [dispatchTo, interactive_none (.error "") (p := rejection (trim questionId) (trim operator)) hpq]
    exact hx
  | some pq =>
    intro hsession
    have hstep : ∀ operator, dispatchTo (rejection (trim questionId) (trim operator))
        [(handleInteractiveResponse, { t.questions with answer := .error "" }),
          (handleSenderApprovalResponse, t.senders), (handleChannelApprovalResponse, t.channels)] =
        ({ t.questions with answer := .error "" }, .resolvePendingQuestion (trim questionId)) ::
          dispatchTo (rejection (trim questionId) (trim operator))
            [(handleSenderApprovalResponse, t.senders), (handleChannelApprovalResponse, t.channels)] := by
      intro operator
      rw [dispatchTo, interactive_live (.error "") (p := rejection (trim questionId) (trim operator)) hpq hsession]
      rfl
    constructor
    · obtain ⟨pq', hpq', hown⟩ := hrest "ou_x" hone _ (by rw [hstep]; exact .head _)
      rw [hpq] at hpq'
      rw [Option.some.inj hpq']
      exact hown
    · refine noSayUnder_of_rejection fun operator ho x hx => hrest operator ho x ?_
      rw [hstep]
      exact .tail _ hx

/-- A row that asks under the id `q`. -/
def askContent : List (String × Json) :=
  [("type", .str "ask_question"), ("questionId", .str "q"), ("title", .str "Go on?"), ("options", .arr [.str "reject"])]

def askingSession (id : String) : Session :=
  { id, agentGroupId := "ag", messagingGroupId := none, threadId := none, ownerUserId := none, rootSessionId := none
    conversationThreadId := none, status := .active, spawnDepth := 0, createdAt := 0 }

/-- Two live sessions, no approvals, and the questions that have been recorded. -/
def askedDesk (questions : List PendingQuestion) : ResponseDesk :=
  { connectDesk with
    approvals := ⟨[], [askingSession "s-1", askingSession "s-2"], [], []⟩
    questions
    channelApprovals := [] }

def askedTables (questions : List PendingQuestion) : ClickTables :=
  ⟨askedDesk questions, askedDesk questions, askedDesk questions, askedDesk questions⟩

end AgentDesk
