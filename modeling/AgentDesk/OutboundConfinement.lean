/-
# Where the host sends for a session

A delivery checks its target (`deliverMessage_send`): the session's own chat, a
destination of its agent group, or what a live roster grant resolves to. The
notice that a row could not be delivered does not. It goes to the chat the row
itself names, and a row is dead-lettered just because its content breaks the
contract, which is decided before the destination is looked at, or because
every attempt was refused the destination. So a container reaches any chat the
adapter knows with a row that is malformed or not allowed there, as the fixed
text of the notice.

* `notice_unconfined`: one malformed row, one drain.
* `outbound_confined_iff`: over every run, every `deliver` of the adapter is
  confined to its session exactly when every row that is dead-lettered with a
  notice names a chat its session may reach.
-/
import AgentDesk.Drain

namespace AgentDesk

open Js

/-- Every `deliver` so far went where its session's rows may go. -/
def CallsConfined (h : Host) : Prop := ∀ c ∈ h.calls, Confined c.env c.session c.target

/-- A row dead-lettered by this step that the user waits for and that names a chat names one its
session may reach. -/
def NoticeAllowed (h : Host) : HostEvent → Prop
  | .record i env => ∀ session m queue attempts permanent,
    h.drains i = some ⟨session, m :: queue, .failing attempts permanent⟩ →
    deadLetters permanent attempts = true → m.userFacing = true → env.adapter = true →
    ∀ channelType platformId, m.channelType = some channelType → channelType ≠ "" →
      m.platformId = some platformId → platformId ≠ "" → Confined env session ⟨channelType, platformId⟩
  | _ => True

theorem noticeTarget_eq_some {env : HostEnv} {permanent : Bool} {attempts : ℕ} {m : OutboundMessage}
    {target : Target} :
    noticeTarget env permanent attempts m = some target ↔
      deadLetters permanent attempts = true ∧ m.userFacing = true ∧ env.adapter = true ∧
        ∃ channelType platformId, m.channelType = some channelType ∧ channelType ≠ "" ∧
          m.platformId = some platformId ∧ platformId ≠ "" ∧ target = ⟨channelType, platformId⟩ := by
  unfold noticeTarget
  constructor
  · intro h
    split at h
    · rename_i hc
      simp only [Bool.and_eq_true] at hc
      obtain ⟨⟨⟨⟨hdead, huser⟩, hadapter⟩, hct⟩, hpid⟩ := hc
      obtain ⟨ct, hct, hct'⟩ := truthy_iff.mp hct
      obtain ⟨pid, hpid, hpid'⟩ := truthy_iff.mp hpid
      refine ⟨hdead, huser, hadapter, ct, pid, hct, hct', hpid, hpid', ?_⟩
      simpa [hct, hpid] using (Option.some.inj h).symm
    · cases h
  · rintro ⟨hdead, huser, hadapter, ct, pid, hct, hct', hpid, hpid', rfl⟩
    simp [hdead, huser, hadapter, hct, hct', hpid, hpid']

theorem callsConfined_record {h : Host} {i : ℕ} {session : Session} {m : OutboundMessage}
    {queue : List OutboundMessage} {attempts : ℕ} {permanent : Bool} {env : HostEnv} (hc : CallsConfined h)
    (hd : h.drains i = some ⟨session, m :: queue, .failing attempts permanent⟩) :
    CallsConfined (h.record i session m queue env attempts permanent) ↔ NoticeAllowed h (.record i env) := by
  constructor
  · intro hc' s m' q n p hd' hdead huser hadapter ct pid hct hct' hpid hpid'
    rw [hd] at hd'
    cases hd'
    have hn := noticeTarget_eq_some.mpr ⟨hdead, huser, hadapter, ct, pid, hct, hct', hpid, hpid', rfl⟩
    refine hc' ⟨env, session, ⟨ct, pid⟩⟩ (List.mem_append_right _ ?_)
    simp [hn]
  · intro hallow c hmem
    rcases List.mem_append.mp hmem with hmem | hmem
    · exact hc c hmem
    · obtain ⟨target, htarget, rfl⟩ := Option.map_eq_some_iff.mp (Option.mem_toList.mp hmem)
      obtain ⟨hdead, huser, hadapter, ct, pid, hct, hct', hpid, hpid', rfl⟩ := noticeTarget_eq_some.mp htarget
      exact hallow session m queue attempts permanent hd hdead huser hadapter ct pid hct hct' hpid hpid'

theorem callsConfined_step (h : Host) (e : HostEvent) (h' : Host) (hc : CallsConfined h)
    (hs : hostStep h e = some h') : CallsConfined h' ↔ NoticeAllowed h e := by
  cases e with
  | tick n =>
    obtain rfl := Option.some.inj hs
    exact ⟨fun _ => trivial, fun _ => hc⟩
  | poll i session t =>
    rcases hostStep_poll hs with ⟨-, rfl⟩ | ⟨-, -, rfl⟩ <;> exact ⟨fun _ => trivial, fun _ => hc⟩
  | «begin» i env =>
    obtain ⟨session, m, queue, -, ⟨-, rfl⟩ | ⟨-, rfl⟩⟩ := hostStep_begin hs
    · exact ⟨fun _ => trivial, fun _ => hc⟩
    · refine ⟨fun _ => trivial, fun _ c hmem => ?_⟩
      rcases List.mem_append.mp hmem with hmem | hmem
      · exact hc c hmem
      · cases hp : deliverMessage env session m with
        | send target th =>
          rw [hp] at hmem
          obtain rfl := List.mem_singleton.mp hmem
          exact deliverMessage_send hp
        | _ =>
          rw [hp] at hmem
          cases hmem
  | resolve i pid =>
    obtain ⟨session, m, queue, plan, -, -, rfl⟩ := hostStep_resolve hs
    exact ⟨fun _ => trivial, fun _ => hc⟩
  | advance i =>
    obtain ⟨session, m, queue, -, rfl⟩ := hostStep_advance hs
    exact ⟨fun _ => trivial, fun _ => hc⟩
  | reject i =>
    obtain ⟨session, m, queue, permanent, rfl, -⟩ := hostStep_reject hs
    exact ⟨fun _ => trivial, fun _ => hc⟩
  | record i env =>
    obtain ⟨session, m, queue, attempts, permanent, hd, rfl⟩ := hostStep_record hs
    exact callsConfined_record hc hd
  | finish i =>
    obtain ⟨d, -, -, rfl⟩ := hostStep_finish hs
    exact ⟨fun _ => trivial, fun _ => hc⟩
  | requeue sid id =>
    obtain rfl := Option.some.inj hs
    exact ⟨fun _ => trivial, fun _ => hc⟩

/-- **When the host's sends are confined.** Over every run, whatever the containers wrote and
whatever failed, each `deliver` of the adapter for a row goes to the session's own chat, to a channel
destination of its agent group or to what a live roster grant resolves to, in every state of the run,
exactly when every row dead-lettered with a notice names such a chat itself. -/
theorem outbound_confined_iff {es : List HostEvent} {h : Host}
    (hrun : Trans.run hostStep Host.empty es = some h) :
    Trans.Always hostStep CallsConfined Host.empty es ↔
      Trans.Along hostStep NoticeAllowed Host.empty es :=
  Trans.always_iff_along (I := fun _ => True) (fun _ _ _ _ _ => trivial)
    (fun h e h' _ hc hs => callsConfined_step h e h' hc hs) trivial (fun _ hc => by cases hc) hrun

theorem outbound_confined_iff_sample :
    ∃ h, Trans.run hostStep Host.empty
        [.poll 0 sampleSession (sampleOut sampleReply), .begin 0 sampleEnv, .resolve 0 none] = some h ∧
      h.calls ≠ [] ∧
      (Trans.Always hostStep CallsConfined Host.empty
          [.poll 0 sampleSession (sampleOut sampleReply), .begin 0 sampleEnv, .resolve 0 none] ↔
        Trans.Along hostStep NoticeAllowed Host.empty
          [.poll 0 sampleSession (sampleOut sampleReply), .begin 0 sampleEnv, .resolve 0 none]) := by
  have hrun : Trans.run hostStep Host.empty
      [.poll 0 sampleSession (sampleOut sampleReply), .begin 0 sampleEnv, .resolve 0 none] = some _ := rfl
  exact ⟨_, hrun, List.cons_ne_nil _ _, outbound_confined_iff hrun⟩

/-- A row that is not JSON and names the chat `oc_b`. -/
def sampleMalformed : OutboundMessage := sampleRow "feishu:oc_b" ⟨1, .error "Unexpected token"⟩

/-- The malformed row is dead-lettered at its first attempt and the notice goes to `oc_b`, which is
neither the session's chat nor a destination, and no grant exists. -/
theorem notice_unconfined :
    ∃ h, Trans.run hostStep Host.empty
        [.poll 0 sampleSession (sampleOut sampleMalformed), .begin 0 sampleEnv, .reject 0,
         .record 0 sampleEnv] = some h ∧
      ∃ c ∈ h.calls, c.target = ⟨"feishu", "feishu:oc_b"⟩ ∧ ¬ Confined c.env c.session c.target := by
  have hrun : Trans.run hostStep Host.empty
      [.poll 0 sampleSession (sampleOut sampleMalformed), .begin 0 sampleEnv, .reject 0,
       .record 0 sampleEnv] =
    some _ := rfl
  refine ⟨_, hrun, ⟨sampleEnv, sampleSession, ⟨"feishu", "feishu:oc_b"⟩⟩, List.mem_singleton.mpr rfl, rfl, ?_⟩
  rintro (⟨mg, hmg, hown⟩ | ⟨slot, grant, hlive, -⟩)
  · obtain rfl : (⟨"mg-b", "feishu", "feishu:oc_b", true, none⟩ : MessagingGroup) = mg :=
      Option.some.inj (by simpa [getMessagingGroupByPlatform, sampleEnv] using hmg)
    rcases hown with hown | hown
    · simp [sampleSession] at hown
    · simp [hasDestination, sampleEnv] at hown
  · simp [checkGrantLive, getBySlot, sampleEnv] at hlive

end AgentDesk
