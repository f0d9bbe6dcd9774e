/-
# The slots an agent is shown

`src/db/dm-grants.ts`. `listLiveGrantsForScope` gives an agent the slots of its scope, `checkGrantLive` decides
at the gate whether one can be delivered to, and the first is documented to show exactly what the second accepts.
Each has the conditions of a live grant written out for itself, and they are not the same conditions: the list
does not look at the source of the consent, an expiry that cannot be read hides a grant from the list and is no
expiry to the gate, and so it is with a limit below zero.

* `mem_listLiveGrantsForScope`, `checkGrantLive_ok_iff`: the two conditions.
* `shows_accepted_iff`: **when the list is exact**, for any table and at any time.
-/
import Mathlib.Data.List.Sort
import AgentDesk.GrantTable

namespace AgentDesk

/-- The rows of `dm_grants`: a slot of a scope is there once. -/
structure SlotTable where
  rows : List DmGrantRow
  slots : (rows.map fun g => (g.scopeId, g.slotLabel)).Nodup

/-! ### The list and the gate -/

def listGrantsForScope (table : SlotTable) (scopeId : String) : List DmGrantRow :=
  (table.rows.filter fun g => g.scopeId = scopeId).insertionSort fun a b => a.createdAt ≤ b.createdAt

/-- The filter of the list. A text that parses to NaN is later than no time. -/
def DmGrantRow.listed (g : DmGrantRow) (now : ℤ) : Bool :=
  g.revokedAt.isNone && (g.expiresAt.all fun e => e.text = "" || e.ms.any fun ms => now < ms) &&
    (g.maxSends = 0 || g.sendsUsed < g.maxSends)

def listLiveGrantsForScope (table : SlotTable) (scopeId : String) (now : ℤ) : List DmGrantRow :=
  (listGrantsForScope table scopeId).filter (·.listed now)

/-- Past its time; a text that parses to NaN is never past. -/
def DmGrantRow.past (g : DmGrantRow) (now : ℤ) : Bool :=
  g.expiresAt.any fun e => e.text ≠ "" && e.ms.any (· ≤ now)

/-- Is the slot's grant deliverable at `now`, which may be before 1970? -/
def GrantSlots.checkGrantLive (table : SlotTable) (scopeId slotLabel : String) (now : ℤ) :
    Except GrantReason DmGrantRow :=
  match getBySlot table.rows scopeId slotLabel with
  | none => .error .noGrant
  | some grant =>
    if grant.consentSource ∉ allowedConsentSources then .error .badConsentSource
    else if grant.scopeId ≠ scopeId then .error .scopeMismatch
    else if grant.revokedAt.isSome then .error .revoked
    else if grant.past now then .error .expired
    else if 0 < grant.maxSends ∧ grant.maxSends ≤ grant.sendsUsed then .error .maxSends
    else .ok grant

theorem checkGrantLive_natCast (table : SlotTable) (scopeId slotLabel : String) (now : ℕ) :
    GrantSlots.checkGrantLive table scopeId slotLabel now = checkGrantLive table.rows scopeId slotLabel now := rfl

/-! ### The two conditions -/

/-- Neither revoked, nor past its time, nor used up. -/
structure DmGrantRow.Standing (g : DmGrantRow) (now : ℤ) : Prop where
  unrevoked : g.revokedAt = none
  intime : g.past now = false
  unspent : ¬ (0 < g.maxSends ∧ g.maxSends ≤ g.sendsUsed)

/-- Its expiry is a time, and its limit is no less than zero or has room. -/
structure DmGrantRow.Readable (g : DmGrantRow) : Prop where
  expiry : ∀ e ∈ g.expiresAt, e.text ≠ "" → e.ms ≠ none
  limit : 0 ≤ g.maxSends ∨ g.sendsUsed < g.maxSends

variable {table : SlotTable} {scopeId : String} {now : ℤ} {g : DmGrantRow}

theorem listed_expiry_iff : (g.expiresAt.all fun e => e.text = "" || e.ms.any fun ms => now < ms) = true ↔
    g.past now = false ∧ ∀ e ∈ g.expiresAt, e.text ≠ "" → e.ms ≠ none := by
  unfold DmGrantRow.past
  cases g.expiresAt with
  | none => simp
  | some e =>
    by_cases hempty : e.text = ""
    · simp [hempty]
    · cases hms : e.ms with
      | none => simp [hempty, hms]
      | some ms => simp [hempty, hms]

theorem listed_limit_iff : (g.maxSends = 0 ∨ g.sendsUsed < g.maxSends) ↔
    ¬ (0 < g.maxSends ∧ g.maxSends ≤ g.sendsUsed) ∧ (0 ≤ g.maxSends ∨ g.sendsUsed < g.maxSends) := by
  omega

theorem listed_iff : g.listed now = true ↔ g.Standing now ∧ g.Readable := by
  have hsplit : g.listed now = true ↔ g.revokedAt = none ∧
      (g.expiresAt.all fun e => e.text = "" || e.ms.any fun ms => now < ms) = true ∧
        (g.maxSends = 0 ∨ g.sendsUsed < g.maxSends) := by
    simp [DmGrantRow.listed, and_assoc]
  rw [hsplit, listed_expiry_iff, listed_limit_iff]
  constructor
  · intro ⟨hrev, ⟨htime, hexp⟩, hspent, hlimit⟩
    exact ⟨⟨hrev, htime, hspent⟩, ⟨hexp, hlimit⟩⟩
  · intro ⟨hstand, hread⟩
    exact ⟨hstand.unrevoked, ⟨hstand.intime, hread.expiry⟩, hstand.unspent, hread.limit⟩

theorem mem_listLiveGrantsForScope : g ∈ listLiveGrantsForScope table scopeId now ↔
    g ∈ table.rows ∧ g.scopeId = scopeId ∧ g.Standing now ∧ g.Readable := by
  have hsorted : g ∈ listGrantsForScope table scopeId ↔ g ∈ table.rows ∧ g.scopeId = scopeId := by
    rw [listGrantsForScope, List.mem_insertionSort, List.mem_filter, decide_eq_true_eq]
  rw [listLiveGrantsForScope, List.mem_filter, hsorted, listed_iff, and_assoc]

theorem getBySlot_iff {slotLabel : String} : getBySlot table.rows scopeId slotLabel = some g ↔
    g ∈ table.rows ∧ g.scopeId = scopeId ∧ g.slotLabel = slotLabel := by
  constructor
  · exact getBySlot_spec
  · intro ⟨hg, hscope, hslot⟩
    cases hfound : getBySlot table.rows scopeId slotLabel with
    | none => exact absurd ⟨hscope, hslot⟩ (getBySlot_none hfound g hg)
    | some g' =>
      obtain ⟨hg', hscope', hslot'⟩ := getBySlot_spec hfound
      have hkey : (g'.scopeId, g'.slotLabel) = (g.scopeId, g.slotLabel) := by
        rw [hscope', hslot', hscope, hslot]
      rw [List.inj_on_of_nodup_map table.slots hg' hg hkey]

theorem checkGrantLive_ok_iff {slotLabel : String} :
    GrantSlots.checkGrantLive table scopeId slotLabel now = .ok g ↔
      getBySlot table.rows scopeId slotLabel = some g ∧ g.consentSource ∈ allowedConsentSources ∧ g.Standing now := by
  unfold GrantSlots.checkGrantLive
  cases hslot : getBySlot table.rows scopeId slotLabel with
  | none => simp
  | some g' =>
    have hscope : g'.scopeId = scopeId := (getBySlot_spec hslot).2.1
    dsimp only
    rw [Option.some.injEq]
    constructor
    · intro h
      by_cases hsource : g'.consentSource ∈ allowedConsentSources
      · rw [if_neg (not_not.mpr hsource), if_neg (not_not.mpr hscope)] at h
        by_cases hrev : g'.revokedAt.isSome = true
        · rw [if_pos hrev] at h
          cases h
        · rw [if_neg hrev] at h
          by_cases hpast : g'.past now = true
          · rw [if_pos hpast] at h
            cases h
          · rw [if_neg hpast] at h
            by_cases hspent : 0 < g'.maxSends ∧ g'.maxSends ≤ g'.sendsUsed
            · rw [if_pos hspent] at h
              cases h
            · rw [if_neg hspent] at h
              obtain rfl := Except.ok.inj h
              exact ⟨rfl, hsource, by simpa using hrev, by simpa using hpast, hspent⟩
      · rw [if_pos hsource] at h
        cases h
    · intro ⟨heq, hsource, hstand⟩
      subst heq
      rw [if_neg (not_not.mpr hsource), if_neg (not_not.mpr hscope), if_neg (by simp [hstand.unrevoked]),
        if_neg (by simp [hstand.intime]), if_neg hstand.unspent]

theorem accepted_iff : (∃ slotLabel, GrantSlots.checkGrantLive table scopeId slotLabel now = .ok g) ↔
    g ∈ table.rows ∧ g.scopeId = scopeId ∧ g.Standing now ∧ g.consentSource ∈ allowedConsentSources := by
  constructor
  · intro ⟨slotLabel, h⟩
    obtain ⟨hslot, hsource, hstand⟩ := checkGrantLive_ok_iff.mp h
    obtain ⟨hg, hscope, -⟩ := getBySlot_iff.mp hslot
    exact ⟨hg, hscope, hstand, hsource⟩
  · intro ⟨hg, hscope, hstand, hsource⟩
    exact ⟨g.slotLabel, checkGrantLive_ok_iff.mpr ⟨getBySlot_iff.mpr ⟨hg, hscope, rfl⟩, hsource, hstand⟩⟩

/-! ### When they agree -/

/-- The list has exactly the grants whose slot the gate accepts. -/
def ShowsAccepted (table : SlotTable) (scopeId : String) (now : ℤ) : Prop :=
  ∀ g, g ∈ listLiveGrantsForScope table scopeId now ↔
    ∃ slotLabel, GrantSlots.checkGrantLive table scopeId slotLabel now = .ok g

theorem readable_iff_of_showsAccepted {table : SlotTable} {scopeId : String} {now : ℤ}
    (h : ShowsAccepted table scopeId now) {g : DmGrantRow} (hg : g ∈ table.rows) (hscope : g.scopeId = scopeId)
    (hstand : g.Standing now) : g.Readable ↔ g.consentSource ∈ allowedConsentSources := by
  have hboth := h g
  rw [mem_listLiveGrantsForScope, accepted_iff] at hboth
  constructor
  · intro hread
    exact (hboth.mp ⟨hg, hscope, hstand, hread⟩).2.2.2
  · intro hsource
    exact (hboth.mpr ⟨hg, hscope, hstand, hsource⟩).2.2.2

/-- **When the list is exact.** Every grant of the scope that stands can be read and has a consent from a known
source, or neither. -/
theorem shows_accepted_iff (table : SlotTable) (scopeId : String) (now : ℤ) :
    ShowsAccepted table scopeId now ↔
      ∀ g ∈ table.rows, g.scopeId = scopeId → g.Standing now →
        (g.Readable ↔ g.consentSource ∈ allowedConsentSources) := by
  constructor
  · intro h g hg hscope hstand
    exact readable_iff_of_showsAccepted h hg hscope hstand
  · intro h g
    rw [mem_listLiveGrantsForScope, accepted_iff]
    constructor
    · intro ⟨hg, hscope, hstand, hread⟩
      exact ⟨hg, hscope, hstand, (h g hg hscope hstand).mp hread⟩
    · intro ⟨hg, hscope, hstand, hsource⟩
      exact ⟨hg, hscope, hstand, (h g hg hscope hstand).mpr hsource⟩

/-- A consent until a day that is none. -/
def unreadableConsent : InsertDmGrantArgs :=
  { id := "g1", scopeId := "s1", agentGroupId := "ag1", slotLabel := "lead", participantOpenId := "ou_1",
    dmPlatformId := "feishu:oc_1", channelType := none, consentSource := "p2p-ingress",
    consentInboundMsgId := "om_1", consentOriginUserId := none, originPlatformId := none, maxSends := some 3,
    expiresAt := some ⟨"2026-13-01T00:00:00.000Z", none⟩, now := 0 }

/-- The table with that consent alone. -/
def unreadableTable : SlotTable := ⟨(insertDmGrant [] unreadableConsent).1, by decide⟩

/-- The grant that the consent minted is delivered to and not shown. -/
theorem unreadable_expiry_hidden : ¬ ShowsAccepted unreadableTable "s1" 0 := by
  intro h
  have hread : unreadableConsent.row.Readable :=
    (readable_iff_of_showsAccepted h (.head _) rfl ⟨rfl, rfl, by decide⟩).mpr (by decide)
  exact hread.expiry _ rfl (by decide) rfl

end AgentDesk
