/-
# Who sent a message

Three functions say who wrote a channel message. The host's sender resolver
(`extractAndUpsertUser`, `src/modules/permissions/index.ts`) reads the event and
is what access control and session ownership go by. The runner (`rowIdentity`)
and the router's legitimate origins (`namespacedOriginOf`) read the stored row,
and are what backend calls and delegations are attributed by.

The resolver takes `senderId`, else `sender`, else `author.userId`, as it is. The
two readers of the row take `senderId` alone and trim it, pass over a row of
channel type `agent`, and prefix the channel the reply goes to, which `replyTo`
may have changed. The origins also pass over a sender called `system`.

* `senders_agree_iff`: for the row a delivery stores, the three agree exactly when
  the event has no sender at all, or a trimmed `senderId` that all of them read
  and prefix alike.
* `nameless_sender`: the Feishu adapter's message without a sender id.

A handle with a colon is taken for an id that has its channel already, so that
an id is not the channel's own: `senderIds_eq_iff` says when two events have the
same one.
-/
import AgentDesk.OwnerIsolation
import AgentDesk.Router
import AgentDesk.RunnerRows

namespace AgentDesk

open Js

/-! ### The resolver -/

/-- The sender of a stored message: `senderId`, else `sender`, else the author's id. Content that
parses to `null` throws at the first read. -/
def extractAndUpsertUser (event : InboundEvent) : Except String (Option String) :=
  match event.content with
  | none => .ok none
  | some content => match content.get "senderId", content.get "sender", content.get "author" with
    | .ok senderId, .ok sender, .ok author =>
      let authorUserId := author.bind fun a => match a.get "userId" with
        | .ok v => Json.asString v
        | .error _ => none
      let rawHandle := (Json.asString senderId).or ((Json.asString sender).or authorUserId)
      .ok (if truthy rawHandle then
        let raw := rawHandle.getD ""
        some (if raw.toList.contains ':' then raw else s!"{event.channelType}:" ++ raw)
      else none)
    | _, _, _ => .error "TypeError: Cannot read properties of null"

/-- A property of a content that parsed; `none` for one that did not, or is `null`. -/
def contentField (content : Content) (key : String) : Option Json :=
  content.bind fun j => (j.get key).toOption.join

/-- `content.author`, if it is an object, and a string property of it. -/
def authorField (content : Content) (key : String) : Option String :=
  Json.asString ((contentField content "author").bind fun a => (a.get key).toOption.join)

/-- `senderId`, else `sender`, else `author.userId`. -/
def rawHandle (content : Content) : Option String :=
  ((Json.asString (contentField content "senderId")).or (Json.asString (contentField content "sender"))).or
    (authorField content "userId")

/-- A handle with a colon is an id already. -/
def namespacedHandle (channelType handle : String) : String :=
  if handle.toList.contains ':' then handle else s!"{channelType}:{handle}"

theorem extractAndUpsertUser_id {event : InboundEvent} {user : Option String}
    (h : extractAndUpsertUser event = .ok user) :
    user = ((rawHandle event.content).filter (· ≠ "")).map (namespacedHandle event.channelType) := by
  unfold extractAndUpsertUser at h
  split at h
  · rename_i hc
    rw [hc]
    cases h
    rfl
  · rename_i content hc
    split at h
    · rename_i senderId sender author hid hs ha
      have hraw : rawHandle event.content = (Json.asString senderId).or ((Json.asString sender).or
          (author.bind fun a => match a.get "userId" with
            | .ok v => Json.asString v
            | .error _ => none)) := by
        unfold rawHandle authorField contentField
        rw [hc]
        simp only [Option.bind_some, hid, hs, ha, Except.toOption, Option.join_some, Option.or_assoc]
        cases author with
        | none => rfl
        | some a =>
          cases hu : a.get "userId" <;> simp [hu, Json.asString]
      dsimp only at h
      rw [← hraw] at h
      cases h
      cases hr : rawHandle event.content with
      | none => rfl
      | some handle =>
        by_cases hempty : handle = ""
        · simp [hempty, truthy, Option.filter]
        · simp [hempty, truthy, Option.filter, namespacedHandle]
          rfl
    · cases h

/-! ### The stored row -/

def isSafeAttachmentName (name : String) : Bool :=
  name ≠ "" && name ≠ "." && name ≠ ".." && !name.toList.any fun ch => ch = '/' || ch = '\\' || ch = '\x00'

/-- What comes of an attachment's data: it stays, or goes to a file of this name, or that throws. -/
inductive AttachmentFate where
  | kept
  | stored (filename : String)
  | throws (error : String)

/-- One turn of the loop over the attachments. `fate` is what the file system and the names make of it. -/
def extractAttachment (messageId : String) (fate : List (String × Json) → AttachmentFate) :
    Json → Except String Json
  | .null => .error "TypeError: Cannot read properties of null (reading 'data')"
  | .obj att => match fieldOf att "data" with
    | some (.str _) => match fate att with
      | .kept => .ok (.obj att)
      | .throws e => .error e
      | .stored filename =>
        let named := Json.set att "name" (.str filename)
        let moved := Json.set named "localPath" (.str s!"inbox/{messageId}/{filename}")
        .ok (.obj (moved.filter fun f => f.1 ≠ "data"))
    | _ => .ok (.obj att)
  | att => .ok att

/-- Inline attachments are moved to the session's inbox; the rest of the content stays. -/
def extractAttachmentFiles (messageId : String) (fate : List (String × Json) → AttachmentFate) :
    Content → Except String Content
  | none => .ok none
  | some .null => .error "TypeError: Cannot read properties of null (reading 'attachments')"
  | some (.obj fields) => match fieldOf fields "attachments" with
    | some (.arr attachments) =>
      if !isSafeAttachmentName messageId then .ok (some (.obj fields))
      else (attachments.mapM (extractAttachment messageId fate)).map fun moved =>
        some (.obj (Json.set fields "attachments" (.arr moved)))
    | _ => .ok (some (.obj fields))
  | some content => .ok (some content)

theorem extractAttachmentFiles_field {messageId : String} {fate : List (String × Json) → AttachmentFate}
    {content content' : Content} (h : extractAttachmentFiles messageId fate content = .ok content') {key : String}
    (hkey : key ≠ "attachments") : contentField content' key = contentField content key := by
  unfold extractAttachmentFiles at h
  split at h
  · cases h
    rfl
  · cases h
  · rename_i fields
    split at h
    · rename_i attachments _
      split at h
      · cases h
        rfl
      · cases hm : attachments.mapM (extractAttachment messageId fate) with
        | error e =>
          rw [hm] at h
          cases h
        | ok moved =>
          rw [hm] at h
          cases h
          change fieldOf (Json.set fields "attachments" (.arr moved)) key = fieldOf fields key
          exact fieldOf_set hkey
    · cases h
      rfl
  · cases h
    rfl

/-- The row as the runner reads it; what its query filters by is not the delivery's. -/
def MessageIn.read (m : MessageIn) (raw : String) (pending : Bool) (processAfter : Option ℕ) : InboundRow :=
  { id := m.id, seq := m.seq, kind := m.kind, pending, processAfter, trigger := m.trigger
    platformId := m.platformId, channelType := m.channelType, threadId := m.threadId, raw
    content := m.content, originUserId := m.originUserId }

/-- The user the runner trusts a row to be from. -/
def RequestIdentity.trusted (i : RequestIdentity) : Option String := if i.source = .session then i.userId else none

/-! ### Handles and prefixes -/

theorem append_sep_inj {α : Type} {a : α} {l l' r r' : List α} (hr : a ∉ r) (hr' : a ∉ r')
    (h : l ++ a :: r = l' ++ a :: r') : l = l' ∧ r = r' := by
  rcases List.append_eq_append_iff.mp h with ⟨m, hl, hm⟩ | ⟨m, hl, hm⟩
  · cases m with
    | nil => exact ⟨by simpa using hl.symm, by simpa using hm⟩
    | cons b m =>
      obtain ⟨-, rfl⟩ := List.cons.inj hm
      exact absurd (List.mem_append_right _ (.head _)) hr
  · cases m with
    | nil => exact ⟨by simpa using hl, by simpa using hm.symm⟩
    | cons b m =>
      obtain ⟨-, rfl⟩ := List.cons.inj hm
      exact absurd (List.mem_append_right _ (.head _)) hr'

theorem toList_prefixed (channel handle : String) :
    (s!"{channel}:{handle}").toList = channel.toList ++ ':' :: handle.toList := by
  simp [toString]

theorem prefixed_inj {channel otherChannel handle otherHandle : String} (h : ':' ∉ handle.toList)
    (h' : ':' ∉ otherHandle.toList) :
    s!"{channel}:{handle}" = s!"{otherChannel}:{otherHandle}" ↔ channel = otherChannel ∧ handle = otherHandle := by
  constructor
  · intro heq
    have hlist := congrArg String.toList heq
    rw [toList_prefixed, toList_prefixed] at hlist
    obtain ⟨hc, hh⟩ := append_sep_inj h h' hlist
    exact ⟨String.toList_inj.mp hc, String.toList_inj.mp hh⟩
  · rintro ⟨rfl, rfl⟩
    rfl

theorem mem_prefixed (channel handle : String) : ':' ∈ (s!"{channel}:{handle}").toList := by
  rw [toList_prefixed]
  exact List.mem_append_right _ (.head _)

theorem mem_dropWhile_of_not {α : Type} {p : α → Bool} {x : α} (hp : p x = false) {l : List α} :
    x ∈ l.dropWhile p ↔ x ∈ l := by
  constructor
  · exact fun h => (List.dropWhile_sublist p).mem h
  · intro h
    rw [← List.takeWhile_append_dropWhile (p := p) (l := l)] at h
    rcases List.mem_append.mp h with h | h
    · rw [List.all_eq_true.mp List.all_takeWhile x h] at hp
      cases hp
    · exact h

theorem mem_trim {s : String} : ':' ∈ (trim s).toList ↔ ':' ∈ s.toList := by
  have hcolon : isSpace ':' = false := by decide
  unfold trim
  rw [String.toList_ofList, List.mem_reverse, mem_dropWhile_of_not hcolon, List.mem_reverse,
    mem_dropWhile_of_not hcolon]

/-! ### The readers of the row -/

/-- What both readers of the row make of its `senderId`. -/
def readSenderId (channel : String) (senderId : Option String) : Option String :=
  let raw := trim (senderId.getD "")
  if channel = "agent" || raw = "" then none
  else if raw.toList.contains ':' || channel = "" then some raw
  else some s!"{channel}:{raw}"

theorem readSenderId_ne_empty {channel : String} {senderId : Option String} :
    readSenderId channel senderId ≠ some "" := by
  unfold readSenderId
  dsimp only
  split
  · simp
  · rename_i hraw
    split
    · intro h
      simp [Option.some.inj h] at hraw
    · intro h
      have hmem := mem_prefixed channel (trim (senderId.getD ""))
      rw [Option.some.inj h] at hmem
      cases hmem

theorem rowIdentity_trusted (row : InboundRow) : (rowIdentity row).trusted = (rowIdentity row).userId := by
  unfold rowIdentity
  dsimp only
  split
  · rfl
  · unfold RequestIdentity.trusted
    dsimp only
    split
    · rfl
    · split <;> rfl

variable {m : MessageIn} {channel : String}

theorem rowIdentity_read (horigin : m.originUserId = none) (hchannel : m.channelType = some channel) (raw : String)
    (pending : Bool) (processAfter : Option ℕ) :
    (rowIdentity (m.read raw pending processAfter)).userId =
      readSenderId channel (Json.asString (contentField m.content "senderId")) := by
  have horigin' : trim (m.originUserId.getD "") = "" := by
    rw [horigin]
    decide
  have hagent : decide (some channel = some "agent") = decide (channel = "agent") := by simp
  unfold rowIdentity
  simp only [MessageIn.read, horigin', hchannel, hagent, ne_eq, not_true_eq_false, if_false, Option.getD_some]
  rfl

theorem namespacedOriginOf_read (horigin : m.originUserId = none) (hchannel : m.channelType = some channel) :
    namespacedOriginOf m =
      if Json.asString (contentField m.content "sender") = some "system" then none
      else readSenderId channel (Json.asString (contentField m.content "senderId")) := by
  have htrim : trim "" = "" := by decide
  unfold namespacedOriginOf readSenderId contentField
  simp only [horigin, truthy_none, hchannel, Bool.false_eq_true, if_false, Option.some.injEq]
  cases hc : m.content with
  | none => simp [Json.asString, htrim]
  | some parsed =>
    cases hs : parsed.get "sender" with
    | error => 
      cases parsed with
      | null => simp [Json.get, Json.asString, Except.toOption, htrim]
      | _ => cases hs
    | ok sender =>
      cases hi : parsed.get "senderId" with
      | error =>
        cases parsed with
        | null => cases hs
        | _ => cases hi
      | ok senderId =>
        simp only [hs, hi, Option.bind_some, Except.toOption, Option.join_some]
        generalize trim ((Json.asString senderId).getD "") = raw
        by_cases hagent : channel = "agent"
        · simp [hagent]
        · by_cases hsys : Json.asString sender = some "system"
          · simp [hagent, hsys]
          · by_cases hempty : raw = ""
            · simp [hagent, hsys, hempty]
            · simp [hagent, hsys, hempty]

/-! ### Agreement -/

/-- The runner and the legitimate origins read the row to be from `user`. -/
def SendersAgree (user : Option String) (m : MessageIn) (row : InboundRow) : Prop :=
  (rowIdentity row).trusted = user ∧ collectLegitimateOrigins [m] = user.toList

/-- The channel the reply goes to. -/
def InboundEvent.replyChannel (event : InboundEvent) : String :=
  (event.replyTo.map (·.channelType)).getD event.channelType

/-- The event has no sender, or a `senderId` that is trimmed, next to no `sender` called `system`, on a
channel that is not `agent`, and namespaced already or prefixed with one and the same channel. -/
def ReadAlike (event : InboundEvent) : Prop :=
  (∀ handle, rawHandle event.content = some handle → handle = "") ∨
    ∃ senderId, Json.asString (contentField event.content "senderId") = some senderId ∧ trim senderId = senderId ∧
      Json.asString (contentField event.content "sender") ≠ some "system" ∧ event.replyChannel ≠ "agent" ∧
      (':' ∈ senderId.toList ∨ (event.replyChannel = event.channelType ∧ event.replyChannel ≠ ""))

theorem World.deliverToAgent_row {w : World} {d : Draw} {io : Io} {x : Delivery} {m : MessageIn}
    (h : m ∈ (w.deliverToAgent d io x).1.inbound) (hnew : m ∉ w.inbound) :
    ∃ s seq content, io.extractAttachmentFiles x.content = .ok content ∧ m = (x.message s).row s.id seq content := by
  rw [World.deliverToAgent_eq] at h
  rcases hres : x.resolve d w.sessions with ⟨db, e | ⟨s, c⟩⟩
  · rw [hres] at h
    exact absurd h hnew
  · rw [hres] at h
    simp only at h
    split at h
    · exact absurd h hnew
    · simp only [World.writeSessionMessage] at h
      split at h
      · exact absurd h hnew
      · exact absurd h hnew
      · rename_i content _ hc _
        split at h
        · exact absurd h hnew
        · simp only [World.withSessions_inbound, List.mem_append, List.mem_singleton] at h
          rcases h with h | h
          · exact absurd h hnew
          · exact ⟨s, _, content, hc, h⟩

theorem collectLegitimateOrigins_single (hkind : m.kind.isChat = true) (hne : namespacedOriginOf m ≠ some "") :
    collectLegitimateOrigins [m] = (namespacedOriginOf m).toList := by
  unfold collectLegitimateOrigins
  rw [List.filter_cons_of_pos (by simpa using hkind), List.filter_nil, List.filterMap_cons, List.filterMap_nil]
  cases hu : namespacedOriginOf m with
  | none => rfl
  | some u =>
    have hu' : u ≠ "" := fun he => hne (hu.trans (congrArg some he))
    simp [hu']

theorem readSenderId_eq_iff {channel channel' senderId : String} (hne : senderId ≠ "") :
    readSenderId channel' (some senderId) = some (namespacedHandle channel senderId) ↔
      trim senderId = senderId ∧ channel' ≠ "agent" ∧
        (':' ∈ senderId.toList ∨ (channel' = channel ∧ channel' ≠ "")) := by
  unfold readSenderId namespacedHandle
  simp only [Option.getD_some, Bool.or_eq_true, decide_eq_true_eq, List.contains_iff_mem, mem_trim]
  by_cases hcolon : ':' ∈ senderId.toList
  · have htrim : trim senderId ≠ "" := by
      intro h
      have hmem := mem_trim.mpr hcolon
      rw [h] at hmem
      cases hmem
    by_cases hagent : channel' = "agent"
    · simp [hagent]
    · simp [hagent, htrim, hcolon]
  · by_cases hagent : channel' = "agent"
    · simp [hagent]
    · by_cases htrim : trim senderId = ""
      · have hne' : trim senderId ≠ senderId := fun h => hne (h.symm.trans htrim)
        simp [htrim, hagent, hne.symm]
      · by_cases hch : channel' = ""
        · -- a bare id never equals a prefixed one
          simp only [hagent, htrim, or_self, if_false, hcolon]
          simp only [hch, or_true, if_true, Option.some.injEq]
          constructor
          · intro h
            have hmem := mem_prefixed channel senderId
            rw [← h] at hmem
            exact absurd (mem_trim.mp hmem) hcolon
          · rintro ⟨-, -, h⟩
            simp at h
        · simp only [hagent, htrim, or_self, if_false, hcolon, hch, Option.some.injEq]
          rw [prefixed_inj (fun h => hcolon (mem_trim.mp h)) hcolon]
          constructor
          · rintro ⟨hchannel, hsame⟩
            exact ⟨hsame, hagent, .inr ⟨hchannel, hch⟩⟩
          · rintro ⟨hsame, -, hfalse | ⟨hchannel, -⟩⟩
            · cases hfalse
            · exact ⟨hchannel, hsame⟩

theorem readers_agree_iff (event : InboundEvent) :
    let user := ((rawHandle event.content).filter (· ≠ "")).map (namespacedHandle event.channelType)
    let senderId := Json.asString (contentField event.content "senderId")
    let system := Json.asString (contentField event.content "sender") = some "system"
    (readSenderId event.replyChannel senderId = user ∧
      (if system then none else readSenderId event.replyChannel senderId) = user) ↔ ReadAlike event := by
  intro user senderId system
  cases hsid : senderId with
  | none =>
    have hread : readSenderId event.replyChannel none = none := by
      unfold readSenderId
      simp [show trim "" = "" by decide]
    rw [hread, ite_self, and_self]
    constructor
    · intro huser
      refine .inl fun handle hh => ?_
      by_contra hne
      simp [user, hh, Option.filter, hne] at huser
    · rintro (hnone | ⟨s, hs, -⟩)
      · cases hh : rawHandle event.content with
        | none => simp [user, hh]
        | some handle => simp [user, hh, hnone handle hh, Option.filter]
      · cases hsid.symm.trans hs
  | some s =>
    have hraw : rawHandle event.content = some s := by
      unfold rawHandle
      rw [show Json.asString (contentField event.content "senderId") = some s from hsid, Option.some_or,
        Option.some_or]
    by_cases hempty : s = ""
    · have hread : readSenderId event.replyChannel (some s) = none := by
        unfold readSenderId
        simp [hempty, show trim "" = "" by decide]
      have huser : user = none := by simp [user, hraw, hempty, Option.filter]
      rw [hread, ite_self, and_self, huser]
      refine ⟨fun _ => .inl fun handle hh => ?_, fun _ => rfl⟩
      rw [← Option.some.inj (hraw.symm.trans hh)]
      exact hempty
    · have huser : user = some (namespacedHandle event.channelType s) := by
        simp [user, hraw, hempty, Option.filter]
      have hfirst : ¬ ∀ handle, rawHandle event.content = some handle → handle = "" := fun h => hempty (h s hraw)
      rw [huser]
      unfold ReadAlike
      rw [or_iff_right hfirst]
      constructor
      · rintro ⟨hread, hsys⟩
        obtain ⟨htrim, hagent, hchannel⟩ := (readSenderId_eq_iff hempty).mp hread
        refine ⟨s, hsid, htrim, fun h => ?_, hagent, hchannel⟩
        rw [if_pos h] at hsys
        cases hsys
      · rintro ⟨s', hs', htrim, hsys, hagent, hchannel⟩
        obtain rfl : s = s' := Option.some.inj (hsid.symm.trans hs')
        rw [if_neg hsys]
        have hread : readSenderId event.replyChannel (some s) = some (namespacedHandle event.channelType s) :=
          (readSenderId_eq_iff hempty).mpr ⟨htrim, hagent, hchannel⟩
        exact ⟨hread, hread⟩

/-- **Who sent it, three times.** For every chat event and the row a delivery stores for it: the user the
resolver derived is the one the runner trusts the row to be from and the only one the legitimate origins
take from it, exactly when they read the event alike. -/
theorem senders_agree_iff {env : RouteEnv} {r : Route} {agent : MessagingGroupAgent}
    {wake : Bool} {w : World} {d : Draw} {io : Io} {fate : List (String × Json) → AttachmentFate} {m : MessageIn}
    (huser : extractAndUpsertUser r.event = .ok r.userId) (hkind : r.event.kind.isChat = true)
    (hio : io.extractAttachmentFiles = extractAttachmentFiles (env.delivery r agent wake).messageId fate)
    (hrow : m ∈ (w.deliverToAgent d io (env.delivery r agent wake)).1.inbound) (hnew : m ∉ w.inbound)
    (raw : String) (pending : Bool) (processAfter : Option ℕ) :
    SendersAgree r.userId m (m.read raw pending processAfter) ↔ ReadAlike r.event := by
  obtain ⟨s, seq, content, hcontent, rfl⟩ := World.deliverToAgent_row hrow hnew
  rw [hio] at hcontent
  have hfield : ∀ key, key ≠ "attachments" → contentField content key = contentField r.event.content key :=
    fun key hkey => extractAttachmentFiles_field hcontent hkey
  have hchannel : (env.delivery r agent wake).channelType = some r.event.replyChannel := by
    simp only [RouteEnv.delivery, InboundEvent.replyChannel]
    cases r.event.replyTo <;> rfl
  unfold SendersAgree
  rw [rowIdentity_trusted, rowIdentity_read rfl hchannel]
  have horigin := namespacedOriginOf_read (m := ((env.delivery r agent wake).message s).row s.id seq content)
    rfl hchannel
  have hne : namespacedOriginOf (((env.delivery r agent wake).message s).row s.id seq content) ≠ some "" := by
    rw [horigin]
    split
    · simp
    · exact readSenderId_ne_empty
  rw [collectLegitimateOrigins_single hkind hne, horigin]
  change _ ∧ (if Json.asString (contentField content "sender") = some "system" then none
    else readSenderId r.event.replyChannel (Json.asString (contentField content "senderId"))).toList = _ ↔ _
  have hinj : ∀ a b : Option String, a.toList = b.toList ↔ a = b := by
    intro a b
    cases a <;> cases b <;> simp
  rw [extractAndUpsertUser_id huser, hinj]
  change readSenderId r.event.replyChannel (Json.asString (contentField content "senderId")) = _ ∧ _ ↔ _
  rw [hfield _ (by decide), hfield _ (by decide)]
  exact readers_agree_iff r.event

/-! ### Two messages of a Feishu chat -/

/-- Every gate is open, and the resolver is installed. -/
def openRouteEnv : RouteEnv :=
  { supportsThreads := some false, interceptors := [], maybeAutowire := fun _ _ h => (h, .ok false)
    senderResolver := some extractAndUpsertUser, accessGate := none, senderScopeGate := none
    regExpTest := fun _ _ => none, roles := ⟨none, false⟩, now := 0, rand := "dddddd", readGroup := .ok ()
    readAgents := .ok (), recordDrop := .ok ()
    turn := fun _ => { reads := .ok (), draw := sampleDraw 1, io := Io.idle, now := 1, rand := "cccccc"
                       auditDenial := .ok (), afterWrite := .ok () } }

def feishuEvent (content : Json) : InboundEvent :=
  { channelType := "feishu", platformId := "oc_1", threadId := none, id := "om_1", kind := .chat
    raw := "", content := some content, isMention := true, isGroup := true, replyTo := none }

def feishuRoute (content : Json) (userId : String) : Route :=
  { event := feishuEvent content, mg := ⟨"mg-1", "feishu", "oc_1", true, none⟩, userId := some userId
    agents := [], messageText := .str "hi" }

def frontWiring : MessagingGroupAgent := ⟨"mg-1", "ag-front", some .pattern, some ".", true, .shared, 0⟩

/-- The session's inbox holds no file of this message. -/
def attachmentIo (env : RouteEnv) (r : Route) : Io :=
  { Io.idle with extractAttachmentFiles :=
      extractAttachmentFiles (env.delivery r frontWiring true).messageId fun _ => .kept }

/-- The row that a delivery to an empty world stores. -/
def firstRow (r : Route) : Option MessageIn :=
  (World.empty.deliverToAgent (sampleDraw 1) (attachmentIo openRouteEnv r)
    (openRouteEnv.delivery r frontWiring true)).1.inbound.head?

theorem mem_firstRow {r : Route} {m : MessageIn} (h : firstRow r = some m) :
    m ∈ (World.empty.deliverToAgent (sampleDraw 1) (attachmentIo openRouteEnv r)
      (openRouteEnv.delivery r frontWiring true)).1.inbound :=
  List.mem_of_mem_head? h

def namedContent : Json := .obj [("text", .str "hi"), ("sender", .str "Ann"), ("senderId", .str "ou_ann")]

/-- What the Feishu adapter writes for a message whose sender has no open id. -/
def namelessContent : Json := .obj [("text", .str "hi"), ("sender", .str "feishu-user")]

theorem senders_agree_iff_sample :
    ∃ m, firstRow (feishuRoute namedContent "feishu:ou_ann") = some m ∧
      SendersAgree (some "feishu:ou_ann") m (m.read "" true none) := by
  have halike : ReadAlike (feishuRoute namedContent "feishu:ou_ann").event :=
    .inr ⟨"ou_ann", rfl, by decide, by decide, by decide, .inr ⟨rfl, by decide⟩⟩
  obtain ⟨m, hm⟩ : ∃ m, firstRow (feishuRoute namedContent "feishu:ou_ann") = some m := ⟨_, rfl⟩
  exact ⟨m, hm, (senders_agree_iff rfl rfl rfl (mem_firstRow hm) (by simp [World.empty]) "" true none).mpr halike⟩

/-- The resolver makes a user of the placeholder the adapter shows for the sender; the runner and the
origins find nobody. -/
theorem nameless_sender :
    extractAndUpsertUser (feishuEvent namelessContent) = .ok (some "feishu:feishu-user") ∧
      ∃ m, firstRow (feishuRoute namelessContent "feishu:feishu-user") = some m ∧
        (rowIdentity (m.read "" true none)).trusted = none ∧ collectLegitimateOrigins [m] = [] ∧
        ¬ SendersAgree (some "feishu:feishu-user") m (m.read "" true none) := by
  refine ⟨by rfl, _, rfl, by rfl, by rfl, fun h => ?_⟩
  have hnone : (none : Option String) = some "feishu:feishu-user" := h.1
  cases hnone

/-! ### Whose id -/

/-- Two handles make one id: the same handle on the same channel, the same namespaced handle on any two, or
a namespaced handle that spells the other's channel and handle. -/
def SameSender (channel handle otherChannel otherHandle : String) : Prop :=
  (':' ∉ handle.toList ∧ ':' ∉ otherHandle.toList ∧ channel = otherChannel ∧ handle = otherHandle) ∨
    (':' ∈ handle.toList ∧ ':' ∈ otherHandle.toList ∧ handle = otherHandle) ∨
    (':' ∈ handle.toList ∧ ':' ∉ otherHandle.toList ∧ handle = s!"{otherChannel}:{otherHandle}") ∨
    (':' ∉ handle.toList ∧ ':' ∈ otherHandle.toList ∧ otherHandle = s!"{channel}:{handle}")

theorem namespacedHandle_eq_iff {channel otherChannel handle otherHandle : String} :
    namespacedHandle channel handle = namespacedHandle otherChannel otherHandle ↔
      SameSender channel handle otherChannel otherHandle := by
  unfold namespacedHandle SameSender
  simp only [List.contains_iff_mem]
  by_cases h : ':' ∈ handle.toList
  · by_cases h' : ':' ∈ otherHandle.toList
    · simp [h, h']
    · simp [h, h']
  · by_cases h' : ':' ∈ otherHandle.toList
    · simp only [h, h', if_true, if_false]
      simp [eq_comm]
    · rw [if_neg h, if_neg h', prefixed_inj h h']
      simp [h, h']

/-- **One id, one sender.** Two events with a sender have the same user id exactly if their handles make one:
without a namespaced handle among them, a different channel or a different handle is a different user. -/
theorem senderIds_eq_iff {event event' : InboundEvent} {user user' : String}
    (h : extractAndUpsertUser event = .ok (some user)) (h' : extractAndUpsertUser event' = .ok (some user')) :
    user = user' ↔ ∃ handle handle', rawHandle event.content = some handle ∧
      rawHandle event'.content = some handle' ∧
      SameSender event.channelType handle event'.channelType handle' := by
  have handle_of : ∀ {e : InboundEvent} {u : String}, extractAndUpsertUser e = .ok (some u) →
      ∃ handle, rawHandle e.content = some handle ∧ u = namespacedHandle e.channelType handle := by
    intro e u he
    have hid := extractAndUpsertUser_id he
    obtain ⟨handle, hf, hu⟩ := Option.map_eq_some_iff.mp hid.symm
    exact ⟨handle, (Option.filter_eq_some_iff.mp hf).1, hu.symm⟩
  obtain ⟨handle, hraw, rfl⟩ := handle_of h
  obtain ⟨handle', hraw', rfl⟩ := handle_of h'
  rw [namespacedHandle_eq_iff]
  constructor
  · intro hsame
    exact ⟨handle, handle', hraw, hraw', hsame⟩
  · rintro ⟨a, a', ha, ha', hsame⟩
    obtain rfl : handle = a := Option.some.inj (hraw.symm.trans ha)
    obtain rfl : handle' = a' := Option.some.inj (hraw'.symm.trans ha')
    exact hsame

def slackEvent (senderId : String) : InboundEvent :=
  { channelType := "slack", platformId := "C1", threadId := none, id := "1", kind := .chat, raw := ""
    content := some (.obj [("text", .str "hi"), ("senderId", .str senderId)]), isMention := true
    isGroup := true, replyTo := none }

theorem senderIds_eq_iff_sample :
    extractAndUpsertUser (feishuEvent namedContent) ≠ extractAndUpsertUser (slackEvent "ou_ann") := by
  have hfeishu : extractAndUpsertUser (feishuEvent namedContent) = .ok (some "feishu:ou_ann") := by rfl
  have hslack : extractAndUpsertUser (slackEvent "ou_ann") = .ok (some "slack:ou_ann") := by rfl
  rw [hfeishu, hslack]
  intro heq
  have huser : "feishu:ou_ann" = "slack:ou_ann" := Option.some.inj (Except.ok.inj heq)
  obtain ⟨handle, handle', hh, hh', hsame⟩ := (senderIds_eq_iff hfeishu hslack).mp huser
  obtain rfl : "ou_ann" = handle := Option.some.inj hh
  obtain rfl : "ou_ann" = handle' := Option.some.inj hh'
  revert hsame
  unfold SameSender
  decide

/-- A namespaced handle on one channel is a user of another. -/
theorem namespaced_sender_crosses :
    (slackEvent "feishu:ou_ann").channelType ≠ (feishuEvent namedContent).channelType ∧
      extractAndUpsertUser (slackEvent "feishu:ou_ann") = .ok (some "feishu:ou_ann") ∧
      extractAndUpsertUser (feishuEvent namedContent) = .ok (some "feishu:ou_ann") :=
  ⟨by decide, by rfl, by rfl⟩

end AgentDesk
