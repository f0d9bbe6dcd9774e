/-
# The group a session comes from

A chat has its platform id from the message that opened it: `feishu:` and the chat id. The table of the
messaging groups holds it as it is. Whoever wants the origin group of a session or of a grant afterwards
reads the row and puts the channel type before its platform id, so that the id has the prefix twice. The
adapter takes one prefix off. What is left is no chat id: the membership check cannot tell, a card is
addressed to a user of that name, and no leave event carries it.

A grant from a directed card keeps the id of the card's chat itself, and that one has one prefix.

* `isMember_iff`: which chat the membership check asks about.
* `namesChat_iff`: the ids that all three readers take for the same chat.
* `findGroup_stored`: what the router has stored for an event.
* `origin_round_trip_iff`: when the id that is read back names the chat.
* `origin_group_lost`: a group whose sessions have no origin.
-/
import AgentDesk.FeishuInbound

namespace AgentDesk

open Js

/-! ### The readers -/

/-- A page of a chat's members. -/
structure MembersPage where
  code : Option ℤ
  items : List (Option String)
  hasMore : Bool
  pageToken : Option String

/-- The members of a chat, page by page; `none` where the call throws. -/
abbrev MembersApi := String → Option String → Option MembersPage

/-- The pages of one chat, as many as are allowed; `none` is unknown. -/
def MembersApi.findMember (api : MembersApi) (chatId handle : String) : ℕ → Option String → Option Bool
  | 0, _ => some false
  | pages + 1, pageToken => match api chatId pageToken with
    | none => none
    | some res =>
      if res.code ≠ some 0 ∧ res.code ≠ none then none
      else if some handle ∈ res.items then some true
      else if !res.hasMore || !truthy res.pageToken then some false
      else api.findMember chatId handle pages res.pageToken

/-- The chat a group key names. -/
def groupKeyChat (platformId : String) : Option String :=
  let raw := stripChannelPrefix platformId
  if startsWith raw "p2p:" || !startsWith raw "oc_" then none else some raw

def MembersApi.isMember (api : MembersApi) (platformId userHandle : String) : Option Bool :=
  let handle := trim userHandle
  if !startsWith handle "ou_" then none
  else (groupKeyChat platformId).bind fun chatId => api.findMember chatId handle 20 none

/-- The calls of `revokeGrantsForLeaver` for members who left, or for a chat that is no more. -/
def handleChatMemberLeave (eventData : Json) (disbanded : Bool) : List Revocation :=
  match eventData with
  | .obj data => match readString (fieldOf data "chat_id") with
    | none => []
    | some chatId =>
      let originPlatformId := s!"feishu:{chatId}"
      if disbanded then [.leaver originPlatformId none]
      else
        let userId : Json → Option String
          | .obj u => match fieldOf u "user_id" with
            | some (.obj ids) => readString (fieldOf ids "open_id")
            | _ => none
          | _ => none
        (listField data "users").filterMap fun u => (userId u).map fun id => .leaver originPlatformId (some id)
  | _ => []

/-- The group whose members may be written to with the grant: the chat of the consent, or the one that the
scope's session is wired to. -/
def originGroupPlatformIdForGrant (env : HostEnv) (db : List Session) (grant : DmGrantRow) : Option String :=
  if truthy grant.originPlatformId then grant.originPlatformId
  else (getSession db grant.scopeId).bind fun session =>
    if !truthy session.messagingGroupId then none
    else (env.messagingGroups.find? fun mg => some mg.id = session.messagingGroupId).bind fun mg =>
      if !mg.isGroup then none else some s!"{mg.channelType}:{mg.platformId}"

/-! ### A platform id that all readers understand -/

/-- The membership check asks about chat `c`, a card is sent to it, and its leave events name `id`. -/
structure NamesChat (id c : String) : Prop where
  membership : ∀ (api : MembersApi) (userHandle : String), startsWith (trim userHandle) "ou_" = true →
    api.isMember id userHandle = api.findMember c (trim userHandle) 20 none
  card : resolveReceiveTarget id = ⟨c, .chatId⟩
  leave : ∀ data disbanded, readString (fieldOf data "chat_id") = some c →
    ∀ r ∈ handleChatMemberLeave (.obj data) disbanded, ∃ who, r = .leaver id who

theorem stripChannelPrefix_feishu (c : String) : stripChannelPrefix s!"feishu:{c}" = c := by
  simp [stripChannelPrefix, startsWith, toString]

theorem startsWith_iff {s pre : String} : startsWith s pre = true ↔ ∃ rest, s.toList = pre.toList ++ rest := by
  rw [startsWith, List.isPrefixOf_iff_prefix]
  exact ⟨fun ⟨rest, h⟩ => ⟨rest, h.symm⟩, fun ⟨rest, h⟩ => ⟨rest, h.symm⟩⟩

theorem startsWith_trim {c : String} (h : startsWith c "oc_" = true) : startsWith (trim c) "oc_" = true := by
  obtain ⟨rest, hrest⟩ := startsWith_iff.mp h
  refine startsWith_iff.mpr ⟨(rest.reverse.dropWhile isSpace).reverse, ?_⟩
  have hfront : c.toList.dropWhile isSpace = c.toList := by
    rw [hrest]
    rfl
  have hback : ("oc_".toList ++ rest).reverse.dropWhile isSpace =
      rest.reverse.dropWhile isSpace ++ "oc_".toList.reverse := by
    rw [List.reverse_append, List.dropWhile_append]
    by_cases hempty : (rest.reverse.dropWhile isSpace).isEmpty = true
    · rw [if_pos hempty, List.isEmpty_iff.mp hempty]
      rfl
    · rw [if_neg hempty]
  rw [trim, String.toList_ofList, hfront, hrest, hback, List.reverse_append, List.reverse_reverse]

theorem groupKeyChat_eq_some {id c : String} :
    groupKeyChat id = some c ↔ stripChannelPrefix id = c ∧ startsWith c "oc_" = true := by
  unfold groupKeyChat
  dsimp only
  constructor
  · intro h
    by_cases hbad : (startsWith (stripChannelPrefix id) "p2p:" || !startsWith (stripChannelPrefix id) "oc_") = true
    · rw [if_pos hbad] at h
      cases h
    · rw [if_neg hbad] at h
      obtain rfl := Option.some.inj h
      simp only [Bool.or_eq_true, Bool.not_eq_true', not_or, Bool.not_eq_false] at hbad
      exact ⟨rfl, hbad.2⟩
  · rintro ⟨rfl, hchat⟩
    obtain ⟨rest, hrest⟩ := startsWith_iff.mp hchat
    have hp2p : startsWith (stripChannelPrefix id) "p2p:" = false := by
      simp [startsWith, hrest, List.isPrefixOf]
    simp [hp2p, hchat]

/-- Which chat the membership check asks about. -/
theorem isMember_iff {id c : String} :
    (∀ (api : MembersApi) (userHandle : String), startsWith (trim userHandle) "ou_" = true →
      api.isMember id userHandle = api.findMember c (trim userHandle) 20 none) ↔ groupKeyChat id = some c := by
  constructor
  · intro h
    -- a service that knows `ou_` as the one member of `c`
    let api : MembersApi := fun chatId _ => some ⟨none, if chatId = c then [some "ou_"] else [], false, none⟩
    have hfound : api.findMember c "ou_" 20 none = some true := by simp [MembersApi.findMember, api]
    have hmember : (groupKeyChat id).bind (fun chatId => api.findMember chatId "ou_" 20 none) = some true := by
      rw [← hfound]
      exact h api "ou_" (by decide)
    obtain ⟨chatId, hchat, hsome⟩ := Option.bind_eq_some_iff.mp hmember
    by_cases hc : chatId = c
    · rwa [hc] at hchat
    · simp [MembersApi.findMember, api, hc] at hsome
  · intro h api userHandle hhandle
    simp [MembersApi.isMember, hhandle, h]

theorem resolveReceiveTarget_chat {id : String} (h : startsWith (stripChannelPrefix id) "oc_" = true) :
    resolveReceiveTarget id = ⟨trim (stripChannelPrefix id), .chatId⟩ := by
  have hraw := startsWith_trim h
  obtain ⟨rest, hrest⟩ := startsWith_iff.mp hraw
  have hother : ∀ pre ∈ ["p2p:", "chat:", "group:", "channel:", "open_id:", "user:", "dm:"],
      startsWithIgnoringCase (trim (stripChannelPrefix id)) pre = false := by
    simp [startsWithIgnoringCase, hrest, ← String.length_toList]
  simp only [List.mem_cons, forall_eq_or_imp, List.not_mem_nil, false_imp_iff, forall_const, and_true] at hother
  unfold resolveReceiveTarget
  simp [hother, hraw]

theorem handleChatMemberLeave_origin {data : List (String × Json)} {disbanded : Bool} {c : String}
    (h : readString (fieldOf data "chat_id") = some c) :
    ∀ r ∈ handleChatMemberLeave (.obj data) disbanded, ∃ who, r = .leaver s!"feishu:{c}" who := by
  intro r hr
  simp only [handleChatMemberLeave, h] at hr
  by_cases hdisbanded : disbanded = true
  · rw [if_pos hdisbanded, List.mem_singleton] at hr
    exact ⟨none, hr⟩
  · rw [if_neg hdisbanded] at hr
    obtain ⟨u, -, hu⟩ := List.mem_filterMap.mp hr
    obtain ⟨who, -, rfl⟩ := Option.map_eq_some_iff.mp hu
    exact ⟨some who, rfl⟩

/-- **The ids that name a chat**: the prefix once, and a chat id as Feishu gives them. -/
theorem namesChat_iff {id c : String} :
    NamesChat id c ↔ id = s!"feishu:{c}" ∧ startsWith c "oc_" = true ∧ trim c = c := by
  constructor
  · intro h
    obtain ⟨hstrip, hchat⟩ := groupKeyChat_eq_some.mp (isMember_iff.mp h.membership)
    have htrim : trim c = c := by
      have hcard := h.card
      rw [resolveReceiveTarget_chat (by rw [hstrip]; exact hchat), hstrip] at hcard
      exact congrArg ReceiveTarget.receiveId hcard
    have hne : c ≠ "" := by
      rintro rfl
      exact absurd hchat (by decide)
    have hread : readString (fieldOf [("chat_id", .str c)] "chat_id") = some c := by
      simp [fieldOf, readString, htrim, hne]
    obtain ⟨who, hwho⟩ := h.leave _ true hread (.leaver s!"feishu:{c}" none) (by
      simp only [handleChatMemberLeave, hread]
      exact List.mem_singleton.mpr rfl)
    exact ⟨(Revocation.leaver.inj hwho).1.symm, hchat, htrim⟩
  · rintro ⟨rfl, hchat, htrim⟩
    refine ⟨isMember_iff.mpr (groupKeyChat_eq_some.mpr ⟨stripChannelPrefix_feishu c, hchat⟩), ?_,
      fun _ _ h => handleChatMemberLeave_origin h⟩
    rw [resolveReceiveTarget_chat (by rw [stripChannelPrefix_feishu]; exact hchat), stripChannelPrefix_feishu, htrim]

theorem prefixed_twice {id c : String} (h : id = s!"feishu:{c}") : s!"feishu:{id}" ≠ s!"feishu:{c}" := by
  intro he
  have hlen := congrArg String.length he
  simp [h, toString] at hlen

/-! ### From the event to the reader -/

/-- The router hands on the row of the event's chat, be it an old one or a new one. -/
theorem findGroup_stored {env : RouteEnv} {event : InboundEvent} {h h' : Desk} {mg : MessagingGroup} {n : ℕ}
    (hfind : env.findGroup event h = (h', .ok (some (mg, n)))) :
    mg.channelType = event.channelType ∧ mg.platformId = event.platformId := by
  unfold RouteEnv.findGroup at hfind
  split at hfind
  · simp at hfind
  · split at hfind
    · rename_i found hfound
      obtain ⟨row, hrow, hpair⟩ := Option.map_eq_some_iff.mp hfound
      have hmg : found = (mg, n) := by simpa using (Prod.mk.inj hfind).2
      rw [hmg] at hpair
      obtain rfl := (Prod.mk.inj hpair).1
      simpa using List.find?_some hrow
    · by_cases hmention : event.isMention = true
      · simp only [hmention, Bool.not_true, Bool.false_eq_true, if_false] at hfind
        split at hfind
        · simp at hfind
        · split at hfind
          · simp at hfind
          · have hmg : env.newGroup event = mg := by
              have hpair := (Prod.mk.inj hfind).2
              simp only [Except.ok.injEq, Option.some.injEq, Prod.mk.injEq] at hpair
              exact hpair.1
            rw [← hmg]
            exact ⟨rfl, rfl⟩
      · simp [hmention] at hfind

/-- Who asks for an origin group: an invitation for its session, the send gate for a grant. -/
inductive OriginReader where
  | session (session : Session)
  | grant (grant : DmGrantRow)

def OriginReader.platformId (env : HostEnv) (db : List Session) : OriginReader → Option String
  | .session s => (originGroupForSession env s).map (·.platformId)
  | .grant g => originGroupPlatformIdForGrant env db g

/-- The session that is asked about, the one of the grant's scope for a grant, is wired to the chat. -/
def OriginReader.WiredTo (env : HostEnv) (db : List Session) (mg : MessagingGroup) : OriginReader → Prop
  | .session s => env.messagingGroups.find? (fun row => some row.id = s.messagingGroupId) = some mg
  | .grant g => ∃ s, getSession db g.scopeId = some s ∧
    env.messagingGroups.find? (fun row => some row.id = s.messagingGroupId) = some mg

theorem channel_added (id : String) : toString "feishu" ++ toString ":" ++ toString id = s!"feishu:{id}" := by
  refine String.toList_inj.mp ?_
  simp [toString]

theorem session_platformId {env : HostEnv} {db : List Session} {mg : MessagingGroup} {session : Session} {id : String}
    (hwired : (OriginReader.session session).WiredTo env db mg) (hchannel : mg.channelType = "feishu")
    (h : (OriginReader.session session).platformId env db = some id) : id = s!"feishu:{mg.platformId}" := by
  obtain ⟨t, ht, rfl⟩ := Option.map_eq_some_iff.mp h
  unfold originGroupForSession at ht
  rw [hwired] at ht
  by_cases htruthy : truthy session.messagingGroupId = true
  · by_cases hmg : mg.isGroup = true
    · simp [htruthy, hmg, hchannel] at ht
      rw [← ht]
      exact channel_added mg.platformId
    · simp [htruthy, hmg] at ht
  · simp [htruthy] at ht

theorem grant_platformId {env : HostEnv} {db : List Session} {mg : MessagingGroup} {grant : DmGrantRow} {id : String}
    (hwired : (OriginReader.grant grant).WiredTo env db mg) (hchannel : mg.channelType = "feishu")
    (h : (OriginReader.grant grant).platformId env db = some id) :
    grant.originPlatformId = some id ∨ id = s!"feishu:{mg.platformId}" := by
  obtain ⟨session, hsession, hmg⟩ := hwired
  change originGroupPlatformIdForGrant env db grant = some id at h
  unfold originGroupPlatformIdForGrant at h
  by_cases hown : truthy grant.originPlatformId = true
  · rw [if_pos hown] at h
    exact .inl h
  · rw [if_neg hown, hsession] at h
    by_cases htruthy : truthy session.messagingGroupId = true
    · by_cases hgroup : mg.isGroup = true
      · simp [htruthy, hmg, hgroup, hchannel] at h
        exact .inr (h.symm.trans (channel_added mg.platformId))
      · simp [htruthy, hmg, hgroup] at h
    · simp [htruthy] at h

/-- **When the origin of a group survives.** For no session; for a grant, where it holds the id itself. -/
theorem origin_round_trip_iff {cfg : FeishuConfig} {m : FeishuMessage} {platformId text : String} {route : RouteEnv}
    {h h' : Desk} {mg : MessagingGroup} {n : ℕ} {env : HostEnv} {db : List Session} {reader : OriginReader}
    (hgroup : m.chatType = "group") (hingress : m.platformId = some platformId)
    (hstored : route.findGroup (cfg.inboundEvent m platformId text) h = (h', .ok (some (mg, n))))
    (hwired : reader.WiredTo env db mg) :
    (∃ id, reader.platformId env db = some id ∧ NamesChat id m.chatId) ↔
      ∃ grant, reader = .grant grant ∧ grant.originPlatformId = some s!"feishu:{m.chatId}" ∧
        startsWith m.chatId "oc_" = true ∧ trim m.chatId = m.chatId := by
  obtain ⟨hchannel, hrow⟩ := findGroup_stored hstored
  have hid : platformId = s!"feishu:{m.chatId}" := by
    simp only [FeishuMessage.platformId, normalizeFeishuPlatformId, hgroup] at hingress
    exact (Option.some.inj hingress).symm
  have htwice : ¬ NamesChat s!"feishu:{mg.platformId}" m.chatId := by
    intro hnames
    exact prefixed_twice (hrow.trans hid) (namesChat_iff.mp hnames).1
  constructor
  · rintro ⟨id, hread, hnames⟩
    cases reader with
    | session session =>
      rw [session_platformId hwired hchannel hread] at hnames
      exact absurd hnames htwice
    | grant grant =>
      rcases grant_platformId hwired hchannel hread with hown | rfl
      · obtain ⟨rfl, hchat, htrim⟩ := namesChat_iff.mp hnames
        exact ⟨grant, rfl, hown, hchat, htrim⟩
      · exact absurd hnames htwice
  · rintro ⟨grant, rfl, hown, hchat, htrim⟩
    have htruthy : truthy grant.originPlatformId = true := by
      rw [hown]
      simp [truthy, toString]
    refine ⟨_, ?_, namesChat_iff.mpr ⟨rfl, hchat, htrim⟩⟩
    rw [OriginReader.platformId, originGroupPlatformIdForGrant, if_pos htruthy, hown]

/-! ### A group that is opened by a mention -/

def openingMessage : FeishuMessage :=
  { openId := some (.str "ou_u"), userId := none, unionId := none, messageId := "om_1", chatId := "oc_1"
    chatType := "group", messageType := "text", content := "", rootId := none, parentId := none, threadId := none
    mentions := [], timestamp := .ok () }

/-- The router makes the chat's row. -/
def openedGroup : MessagingGroup := ⟨"mg-0-dddddd", "feishu", "feishu:oc_1", true, none⟩

theorem openingMessage_stored : ∃ h', sampleRouteEnv.findGroup
    ({ sampleFeishuConfig with mentionsBot := fun _ => true }.inboundEvent openingMessage "feishu:oc_1" "hi")
    { sampleDesk with messagingGroups := [] } = (h', .ok (some (openedGroup, 0))) :=
  ⟨_, rfl⟩

def openedSession : Session := { inviteSession with messagingGroupId := some "mg-0-dddddd" }

def openedEnv : HostEnv := { inviteEnv with messagingGroups := [openedGroup] }

/-- A consent in the scope of the session, given in the chat `origin`. -/
def openedGrant (origin : Option String) : DmGrantRow :=
  { id := "g-1", scopeId := "s", agentGroupId := "ag", slotLabel := "buyer", participantOpenId := "ou_u"
    dmPlatformId := "feishu:p2p:ou_u", channelType := "feishu", consentSource := "directed-card"
    consentInboundMsgId := "action:1", consentOriginUserId := none, originPlatformId := origin, createdAt := 0
    expiresAt := none, revokedAt := none, maxSends := 0, sendsUsed := 0 }

/-- The consent on a card in the chat knows the chat. -/
theorem origin_round_trip_iff_sample :
    ∃ id, (OriginReader.grant (openedGrant (some "feishu:oc_1"))).platformId openedEnv [openedSession] = some id ∧
      NamesChat id "oc_1" := by
  obtain ⟨h', hstored⟩ := openingMessage_stored
  have hwired : (OriginReader.grant (openedGrant (some "feishu:oc_1"))).WiredTo openedEnv [openedSession] openedGroup :=
    ⟨openedSession, rfl, rfl⟩
  refine (origin_round_trip_iff rfl rfl hstored hwired).mpr ⟨_, rfl, rfl, ?_, ?_⟩
  · decide
  · decide

/-- The session's origin is asked about by nobody, its card goes to a user called `feishu:oc_1`, and the same
holds of a consent in private. -/
theorem origin_group_lost :
    (∃ h', sampleRouteEnv.findGroup
      ({ sampleFeishuConfig with mentionsBot := fun _ => true }.inboundEvent openingMessage "feishu:oc_1" "hi")
      { sampleDesk with messagingGroups := [] } = (h', .ok (some (openedGroup, 0)))) ∧
    ∀ reader ∈ [OriginReader.session openedSession, .grant (openedGrant none)],
      reader.platformId openedEnv [openedSession] = some "feishu:feishu:oc_1" ∧
        (∀ api : MembersApi, api.isMember "feishu:feishu:oc_1" "ou_u" = none) ∧
        resolveReceiveTarget "feishu:feishu:oc_1" = ⟨"feishu:oc_1", .userId⟩ ∧
        handleChatMemberLeave (.obj [("chat_id", .str "oc_1")]) true = [.leaver "feishu:oc_1" none] ∧
        ¬ NamesChat "feishu:feishu:oc_1" "oc_1" := by
  have hchat : groupKeyChat "feishu:feishu:oc_1" = none := by decide
  have hread : ∀ reader ∈ [OriginReader.session openedSession, .grant (openedGrant none)],
      reader.platformId openedEnv [openedSession] = some "feishu:feishu:oc_1" := by
    refine List.forall_mem_cons.mpr ⟨?_, List.forall_mem_singleton.mpr ?_⟩
    · decide
    · decide
  refine ⟨⟨_, rfl⟩, fun reader hreader => ⟨hread reader hreader, fun api => ?_, ?_, ?_, fun h => ?_⟩⟩
  · simp [MembersApi.isMember, hchat]
  · decide
  · rfl
  · rw [isMember_iff.mp h.membership] at hchat
    cases hchat

end AgentDesk
