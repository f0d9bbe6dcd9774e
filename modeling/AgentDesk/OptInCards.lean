/-
# Opt-in cards of container-written rows

An opt-in card's button carries the consent a click mints (its scope, its
audience, its expiry), so only the host is to build one: `handleRosterInvite`,
from values of its own. A container writes rows, and the delivery of a row makes
the adapter create or patch messages; this module follows a row from
`drainSession` to the Feishu adapter.

The check of `deliverMessage` looks at `content.type` and `content.optIn`, and
only for rows that are not of kind `roster`. A raw card in an edit is not seen by
it, and a roster row never comes to it.

* `row_optIn_iff`: the cards of a row's delivery with an opt-in button are all
  `handleRosterInvite`'s exactly if the row is neither a channel row that edits a
  message with a raw opt-in card nor a roster row that does so or is an
  invitation itself.

Of the system actions, those that send a card are `requestApproval`'s callers and
`handleRosterInvite`; what they decide on is not followed, only what they send.
-/
import AgentDesk.Drain
import AgentDesk.Feishu

namespace AgentDesk

open Js

/-! ### The adapter calls of a row -/

/-- Who makes the content of an adapter call. -/
inductive Builder where
  /-- The container: it is the row's own content. -/
  | row
  /-- The notice of a failed delivery. -/
  | failureNotice
  | requestApproval
  | handleRosterInvite
  deriving DecidableEq, Repr

/-- What the handler of a system action sends. -/
inductive SystemCard where
  | approval (target : Target) (approvalId title question : String) (expectedUserId : Option String)
  | invite (target : Target) (slotLabel : String) (optIn : List (String × Json))

def approvalOptions : Json := .arr
  [.obj [("label", .str "Approve"), ("selectedLabel", .str "✅ Approved"), ("value", .str "approve")],
   .obj [("label", .str "Reject"), ("selectedLabel", .str "❌ Rejected"), ("value", .str "reject")]]

def SystemCard.builder : SystemCard → Builder
  | .approval .. => .requestApproval
  | .invite .. => .handleRosterInvite

def SystemCard.target : SystemCard → Target
  | .approval target _ _ _ _ => target
  | .invite target _ _ => target

def SystemCard.content : SystemCard → List (String × Json)
  | .approval _ approvalId title question expectedUserId =>
    [("type", .str "ask_question"), ("questionId", .str approvalId), ("title", .str title),
      ("question", .str question), ("options", approvalOptions)] ++
      (expectedUserId.map fun userId => ("expectedUserId", Json.str userId)).toList
  | .invite _ slotLabel optIn =>
    [("type", .str "roster_invite"), ("slotLabel", .str slotLabel), ("optIn", .obj optIn)]

/-- The outside of a row's delivery: the adapter, the scrubbing of the text, the files of the outbox,
what a system action sends, and the attempt of a failure. -/
structure Sending where
  feishu : FeishuEnv
  stripThinkTags : String → String
  files : List String
  system : List SystemCard
  attempts : ℕ

/-- The content with its text scrubbed. -/
def outboundContent (stripThinkTags : String → String) (content : List (String × Json)) : List (String × Json) :=
  match fieldOf content "text" with
  | some (.str text) =>
    if stripThinkTags text ≠ text then Json.set content "text" (.str (stripThinkTags text)) else content
  | _ => content

/-- The host's `deliveryAdapter`: the adapter of the channel type, if there is one. Only Feishu's is of
interest here. -/
def hostDeliver (send : Sending) (target : Target) (threadId : Option String) (content : List (String × Json))
    (files : List String) : List FeishuCall :=
  if target.channelType = "feishu" && send.feishu.started then
    feishuDeliver send.feishu target.platformId threadId content files
  else []

def failureNotice : List (String × Json) :=
  [("text", .str ("⚠️ I couldn't deliver my last reply — it kept failing, so I stopped retrying. " ++
    "Please ask again."))]

/-- The calls of `deliverMessage`. -/
def planCalls (send : Sending) (env : HostEnv) (session : Session) (msg : OutboundMessage) :
    List (Builder × FeishuCall) :=
  match deliverMessage env session msg, parseOutboundContent msg.content with
  | .send target threadId, .ok content =>
    (hostDeliver send target threadId (outboundContent send.stripThinkTags content)
      (if msg.kind = .roster then [] else send.files)).map (Builder.row, ·)
  | .system _, _ => send.system.flatMap fun card =>
    (hostDeliver send card.target none card.content []).map (card.builder, ·)
  | _, _ => []

/-- The calls of a row's turn in a drain, with those of the notice if the attempt fails. -/
def rowCalls (send : Sending) (env : HostEnv) (session : Session) (msg : OutboundMessage) :
    List (Builder × FeishuCall) :=
  if msg.kind = .llmUsage then []
  else planCalls send env session msg ++
    (noticeTarget env (deliverMessage env session msg).permanent send.attempts msg).toList.flatMap fun target =>
      (hostDeliver send target msg.threadId failureNotice []).map (Builder.failureNotice, ·)

/-- Every card of the row's delivery with an opt-in button is `handleRosterInvite`'s. -/
def HostBuilt (send : Sending) (env : HostEnv) (session : Session) (msg : OutboundMessage) : Prop :=
  ∀ c ∈ rowCalls send env session msg, HasOptInButton c.2.content → c.1 = .handleRosterInvite

/-! ### The rows that forge one -/

/-- The row passes, with a content that Feishu renders with an opt-in button. -/
def ForgesOptIn (env : HostEnv) (session : Session) (msg : OutboundMessage)
    (content : List (String × Json)) : Prop :=
  (ChannelPasses env session msg content ∧ msg.kind ≠ .llmUsage ∧ msg.channelType = some "feishu" ∧
      EditsOptIn content) ∨
    (msg.kind = .roster ∧ msg.channelType ≠ some "agent" ∧
      (∃ grant target, RosterPasses env session msg content grant target) ∧
      (EditsOptIn content ∨ InvitesOptIn content))

/-! ### Scrubbing the text changes no card -/

theorem outboundContent_field (strip : String → String) (content : List (String × Json)) {key : String}
    (hne : key ≠ "text") : fieldOf (outboundContent strip content) key = fieldOf content key := by
  unfold outboundContent
  split
  · split
    · exact fieldOf_set hne
    · rfl
  · rfl

theorem outboundContent_optIn (strip : String → String) (content : List (String × Json)) :
    EditsOptIn (outboundContent strip content) ∨ InvitesOptIn (outboundContent strip content) ↔
      EditsOptIn content ∨ InvitesOptIn content := by
  have hfield : ∀ key, key ≠ "text" → fieldOf (outboundContent strip content) key = fieldOf content key :=
    fun _ hne => outboundContent_field strip content hne
  unfold EditsOptIn InvitesOptIn
  rw [hfield "operation" (by decide), hfield "messageId" (by decide), hfield "card" (by decide),
    hfield "type" (by decide), hfield "optIn" (by decide)]

/-! ### The calls with an opt-in button -/

theorem hostDeliver_optIn {send : Sending} {target : Target} {th : Option String} {content : List (String × Json)}
    {files : List String} :
    (∃ c ∈ hostDeliver send target th content files, HasOptInButton c.content) ↔
      target.channelType = "feishu" ∧ send.feishu.started = true ∧
        (EditsOptIn content ∨ InvitesOptIn content) := by
  unfold hostDeliver
  by_cases hon : target.channelType = "feishu" ∧ send.feishu.started = true
  · rw [if_pos (by simpa using hon), feishu_optIn_iff]
    exact ⟨fun h => ⟨hon.1, hon.2, h⟩, fun h => h.2.2⟩
  · rw [if_neg (by simpa using hon)]
    exact ⟨fun ⟨c, hc, _⟩ => absurd hc List.not_mem_nil, fun h => absurd ⟨h.1, h.2.1⟩ hon⟩

theorem failureNotice_plain : ¬ (EditsOptIn failureNotice ∨ InvitesOptIn failureNotice) := by
  simp [failureNotice, EditsOptIn, InvitesOptIn, fieldOf, Json.asString]

theorem approval_plain (target : Target) (approvalId title question : String) (expectedUserId : Option String) :
    ¬ (EditsOptIn (SystemCard.approval target approvalId title question expectedUserId).content ∨
      InvitesOptIn (SystemCard.approval target approvalId title question expectedUserId).content) := by
  cases expectedUserId with
  | none => simp [SystemCard.content, EditsOptIn, InvitesOptIn, fieldOf, Json.asString]
  | some userId => simp [SystemCard.content, EditsOptIn, InvitesOptIn, fieldOf, Json.asString]

theorem systemCard_builder {send : Sending} {card : SystemCard} {c : FeishuCall}
    (hc : c ∈ hostDeliver send card.target none card.content []) (hb : HasOptInButton c.content) :
    card.builder = .handleRosterInvite := by
  obtain ⟨-, -, hoptIn⟩ := hostDeliver_optIn.mp ⟨c, hc, hb⟩
  cases card with
  | approval target approvalId title question expectedUserId =>
    exact absurd hoptIn (approval_plain target approvalId title question expectedUserId)
  | invite target slotLabel optIn => rfl

theorem not_invites_of_channelPasses {env : HostEnv} {session : Session} {msg : OutboundMessage}
    {content : List (String × Json)} (h : ChannelPasses env session msg content) : ¬ InvitesOptIn content := by
  rintro ⟨-, -, htype, -⟩
  have hforged := h.notForged
  simp [isForgedRosterOptInCard, htype] at hforged

theorem forges_iff (send : Sending) {env : HostEnv} {session : Session} {msg : OutboundMessage}
    (hkind : msg.kind ≠ .llmUsage) :
    (∃ target th content, deliverMessage env session msg = .send target th ∧
        parseOutboundContent msg.content = .ok content ∧ target.channelType = "feishu" ∧
        send.feishu.started = true ∧ (EditsOptIn content ∨ InvitesOptIn content)) ↔
      send.feishu.started = true ∧ env.adapter = true ∧
        ∃ content, parseOutboundContent msg.content = .ok content ∧ ForgesOptIn env session msg content := by
  constructor
  · rintro ⟨target, th, content, hsend, hcontent, hfeishu, hon, hoptIn⟩
    obtain ⟨hadapter, content', hcontent', hway⟩ := deliverMessage_eq_send.mp hsend
    obtain rfl := Except.ok.inj (hcontent.symm.trans hcontent')
    refine ⟨hon, hadapter, content, hcontent, ?_⟩
    rcases hway with ⟨hroster, hagent, hr, -⟩ | ⟨hp, rfl, -⟩
    · obtain ⟨grant, hp⟩ := deliverRosterMessage_ok.mp hr
      exact .inr ⟨hroster, hagent, ⟨grant, target, hp⟩, hoptIn⟩
    · obtain ⟨channelType, hct, -⟩ := truthy_iff.mp hp.routed.1
      rw [hct] at hfeishu
      refine .inl ⟨hp, hkind, by rw [hct]; exact congrArg some hfeishu, ?_⟩
      exact hoptIn.resolve_right (not_invites_of_channelPasses hp)
  · rintro ⟨hon, hadapter, content, hcontent, ⟨hp, -, hct, hedit⟩ |
      ⟨hroster, hagent, ⟨grant, target, hp⟩, hoptIn⟩⟩
    · refine ⟨_, _, content, deliverMessage_eq_send.mpr ⟨hadapter, content, hcontent, .inr ⟨hp, rfl, rfl⟩⟩,
        hcontent, ?_, hon, .inl hedit⟩
      rw [hct]
      rfl
    · have hr := deliverRosterMessage_ok.mpr ⟨grant, hp⟩
      exact ⟨target, none, content,
        deliverMessage_eq_send.mpr ⟨hadapter, content, hcontent, .inl ⟨hroster, hagent, hr, rfl⟩⟩,
        hcontent, hp.feishu, hon, hoptIn⟩

theorem planCalls_optIn {send : Sending} {env : HostEnv} {session : Session} {msg : OutboundMessage} :
    (∃ c ∈ planCalls send env session msg, HasOptInButton c.2.content ∧ c.1 ≠ .handleRosterInvite) ↔
      ∃ target th content, deliverMessage env session msg = .send target th ∧
        parseOutboundContent msg.content = .ok content ∧ target.channelType = "feishu" ∧
        send.feishu.started = true ∧ (EditsOptIn content ∨ InvitesOptIn content) := by
  unfold planCalls
  split
  · rename_i target th content hsend hcontent
    constructor
    · rintro ⟨c, hc, hb, -⟩
      obtain ⟨call, hcall, rfl⟩ := List.mem_map.mp hc
      obtain ⟨hfeishu, hon, hoptIn⟩ := hostDeliver_optIn.mp ⟨call, hcall, hb⟩
      exact ⟨target, th, content, hsend, hcontent, hfeishu, hon, (outboundContent_optIn _ _).mp hoptIn⟩
    · rintro ⟨target', th', content', hsend', hcontent', hfeishu, hon, hoptIn⟩
      obtain ⟨rfl, rfl⟩ := Plan.send.inj (hsend.symm.trans hsend')
      obtain rfl := Except.ok.inj (hcontent.symm.trans hcontent')
      obtain ⟨call, hcall, hb⟩ := hostDeliver_optIn.mpr ⟨hfeishu, hon, (outboundContent_optIn _ _).mpr hoptIn⟩
      exact ⟨(.row, call), List.mem_map.mpr ⟨call, hcall, rfl⟩, hb, Builder.noConfusion⟩
  · rename_i content' hsys
    constructor
    · rintro ⟨c, hc, hb, hne⟩
      obtain ⟨card, -, hcard⟩ := List.mem_flatMap.mp hc
      obtain ⟨call, hcall, rfl⟩ := List.mem_map.mp hcard
      exact absurd (systemCard_builder hcall hb) hne
    · rintro ⟨target, th, content, hsend, -⟩
      rw [hsys] at hsend
      cases hsend
  · rename_i hsys hsend
    refine ⟨fun ⟨c, hc, _⟩ => absurd hc List.not_mem_nil, ?_⟩
    rintro ⟨target, th, content, hsend', hcontent, -⟩
    exact (hsend target th content hsend' hcontent).elim

/-- **Opt-in cards of a row.** The cards of the row's delivery with an opt-in button are all built by
`handleRosterInvite` exactly if the row does not pass with such a card of its own. -/
theorem row_optIn_iff (send : Sending) (env : HostEnv) (session : Session) (msg : OutboundMessage) :
    HostBuilt send env session msg ↔
      ¬ (send.feishu.started = true ∧ env.adapter = true ∧
        ∃ content, parseOutboundContent msg.content = .ok content ∧ ForgesOptIn env session msg content) := by
  unfold HostBuilt rowCalls
  by_cases hkind : msg.kind = .llmUsage
  · rw [if_pos hkind]
    refine ⟨fun _ => ?_, fun _ c hc => absurd hc List.not_mem_nil⟩
    rintro ⟨-, -, content, -, ⟨-, hne, -⟩ | ⟨hroster, -⟩⟩
    · exact hne hkind
    · exact absurd (hkind.symm.trans hroster) (by decide)
  · rw [if_neg hkind, ← forges_iff send hkind, ← planCalls_optIn]
    constructor
    · rintro h ⟨c, hc, hb, hne⟩
      exact hne (h c (List.mem_append_left _ hc) hb)
    · intro h c hc hb
      rcases List.mem_append.mp hc with hc | hc
      · by_contra hne
        exact h ⟨c, hc, hb, hne⟩
      · obtain ⟨target, -, hcard⟩ := List.mem_flatMap.mp hc
        obtain ⟨call, hcall, rfl⟩ := List.mem_map.mp hcard
        exact absurd (hostDeliver_optIn.mp ⟨call, hcall, hb⟩).2.2 failureNotice_plain

/-- A consent of the container's choosing: another scope, another agent group. -/
def forgedOptIn : Json :=
  .obj [("kind", .str "roster.optin"), ("scopeId", .str "other"), ("slotLabel", .str "boss"),
    ("agentGroupId", .str "ag-other")]

/-- An edit with a raw card that carries it. -/
def forgedCard : Json := .obj [("body", .obj [("elements", .arr [button "OK" "primary" forgedOptIn])])]

def forgedEdit : List (String × Json) :=
  [("operation", .str "edit"), ("messageId", .str "om_x"), ("card", forgedCard)]

def sampleSending : Sending :=
  { feishu := ⟨true, 0, false, fun text => [text], false, fun _ => none, fun _ => false, fun _ => false⟩
    stripThinkTags := id, files := [], system := [], attempts := 1 }

def forgedRow : OutboundMessage := sampleRow "feishu:oc_a" ⟨200, .ok (.obj forgedEdit)⟩

/-- A chat row to the session's own chat patches a card with the forged consent. -/
theorem edit_forges_optIn : ¬ HostBuilt sampleSending sampleEnv sampleSession forgedRow := by
  intro h
  have hcalls : rowCalls sampleSending sampleEnv sampleSession forgedRow =
      [(.row, .patch "om_x" forgedCard)] := rfl
  have hb : HasOptInButton forgedCard := by
    refine ⟨forgedOptIn, ?_, by decide⟩
    simp [forgedCard, button_values, fieldOf, Json.asString]
  have hbuilder := h (.row, .patch "om_x" forgedCard) (by rw [hcalls]; exact List.mem_singleton_self _) hb
  exact absurd hbuilder (by decide)

end AgentDesk
