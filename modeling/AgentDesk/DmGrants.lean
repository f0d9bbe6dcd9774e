/-
# Roster grants and their budgets

`src/db/dm-grants.ts`: a participant's consent to be written to is a row of
`dm_grants`; what was sent under it is counted in `sends_used` and, per key and
time window, in `dm_rate_ledger`. `reserveRosterSend` charges every budget of a
message in one transaction before the send and leaves a marker row under the
message's id; `rollbackRosterReservation` undoes it after an explicit failure.
Three functions revoke grants, `insertDmGrant` records a consent and renews one.

A transaction that throws leaves the tables as they were: the functions here
give the new tables or an error, never both. Times are milliseconds, and the
ledger's window starts are kept as such (the text `toISOString` makes of one
is not read back by anything here). Audit rows and metrics are left out.

* `LedgerKey.text_injective`: no two budgets share a ledger row.
* `reserveRosterSend_cases`, `rollbackRosterReservation_cases`: everything the
  two transactions can do.
-/
import AgentDesk.Binary64Arithmetic
import AgentDesk.Js
import AgentDesk.Table

namespace AgentDesk

open Js

/-- A time as text, with what `parseSqliteUtc` makes of it (`none` is NaN). -/
structure UtcText where
  text : String
  ms : Option ℤ

/-- A row of `dm_grants`. -/
structure DmGrantRow where
  id : String
  scopeId : String
  agentGroupId : String
  slotLabel : String
  participantOpenId : String
  dmPlatformId : String
  channelType : String
  consentSource : String
  consentInboundMsgId : String
  consentOriginUserId : Option String
  originPlatformId : Option String
  createdAt : ℕ
  expiresAt : Option UtcText
  revokedAt : Option ℕ
  maxSends : ℤ
  sendsUsed : ℤ

/-- The key column of `dm_rate_ledger`. -/
inductive LedgerKey where
  | grant (id : String) | participant (id : String) | scope (id : String) | deploy (id : String)
  | deployDaily (key : String)
  | inviteScope (id : String)
  | reserve (messageOutId : String)
  deriving DecidableEq, Repr

namespace LedgerKey

/-- The key as the table stores it. -/
def text : LedgerKey → String
  | grant id => "grant:" ++ id
  | participant id => "participant:" ++ id
  | scope id => "scope:" ++ id
  | deploy id => "deploy:" ++ id
  | deployDaily key => "deploy-daily:" ++ key
  | inviteScope id => "invite-scope:" ++ id
  | reserve messageOutId => "reserve:" ++ messageOutId

/-- No two budgets, and no budget and a marker, share a ledger row. -/
theorem text_injective : Function.Injective text := by
  intro a b h
  cases a <;> cases b <;> simp_all [text, String.ext_iff]

/-- A rate window or daily bucket, not a reservation marker. -/
def isRate : LedgerKey → Bool
  | reserve _ => false
  | _ => true

end LedgerKey

/-- A row of `dm_rate_ledger`. -/
structure LedgerRow where
  key : LedgerKey
  windowStart : ℕ
  count : ℕ
  deriving DecidableEq, Repr

/-- The ledger's primary key. -/
def LedgerRow.pk (r : LedgerRow) : LedgerKey × ℕ := (r.key, r.windowStart)

/-- The two tables. -/
structure Roster where
  grants : List DmGrantRow
  ledger : List LedgerRow

/-! ### Consent -/

/-- `InsertDmGrantArgs`, with the id and the time the call draws; `maxSends` as a finite number. -/
structure InsertDmGrantArgs where
  id : String
  scopeId : String
  agentGroupId : String
  slotLabel : String
  participantOpenId : String
  dmPlatformId : String
  channelType : Option String
  consentSource : String
  consentInboundMsgId : String
  consentOriginUserId : Option String
  originPlatformId : Option String
  maxSends : Option ℚ
  expiresAt : Option UtcText
  now : ℕ

def getBySlot (grants : List DmGrantRow) (scopeId slotLabel : String) : Option DmGrantRow :=
  grants.find? fun g => g.scopeId = scopeId && g.slotLabel = slotLabel

def InsertDmGrantArgs.row (a : InsertDmGrantArgs) : DmGrantRow :=
  { id := a.id, scopeId := a.scopeId, agentGroupId := a.agentGroupId, slotLabel := a.slotLabel,
    participantOpenId := a.participantOpenId, dmPlatformId := a.dmPlatformId,
    channelType := a.channelType.getD "feishu", consentSource := a.consentSource,
    consentInboundMsgId := a.consentInboundMsgId, consentOriginUserId := a.consentOriginUserId,
    originPlatformId := a.originPlatformId, createdAt := a.now, expiresAt := a.expiresAt,
    revokedAt := none,
    maxSends := match a.maxSends with
      | some q => if 0 < q then q.floor else 0
      | none => 0,
    sendsUsed := 0 }

/-- The `DO UPDATE SET` of a renewed consent: the counters stay. -/
def InsertDmGrantArgs.renew (a : InsertDmGrantArgs) (g : DmGrantRow) : DmGrantRow :=
  { g with participantOpenId := a.participantOpenId, dmPlatformId := a.dmPlatformId,
           channelType := a.channelType.getD "feishu", consentSource := a.consentSource,
           consentInboundMsgId := a.consentInboundMsgId, consentOriginUserId := a.consentOriginUserId,
           originPlatformId := a.originPlatformId, expiresAt := a.expiresAt, revokedAt := none }

/-- The table after a consent, and the grant's id, or `none` when a constraint refused it. -/
def insertDmGrant (grants : List DmGrantRow) (a : InsertDmGrantArgs) : List DmGrantRow × Option String :=
  if grants.any fun g => g.id = a.id then (grants, none)
  else match getBySlot grants a.scopeId a.slotLabel with
    | some g =>
      -- the slot is taken: a renewal, or someone else's and left alone
      if g.participantOpenId = a.participantOpenId then
        (Table.update (·.id) grants g.id a.renew, some g.id)
      else (grants, none)
    | none =>
      -- UNIQUE(scope_id, participant_open_id)
      if grants.any fun g => g.scopeId = a.scopeId && g.participantOpenId = a.participantOpenId then
        (grants, none)
      else (grants ++ [a.row], some a.id)

theorem insertDmGrant_cases (grants : List DmGrantRow) (a : InsertDmGrantArgs) :
    insertDmGrant grants a = (grants, none) ∨
    (∃ g ∈ grants, insertDmGrant grants a = (Table.update (·.id) grants g.id a.renew, some g.id)) ∨
    ((∀ g ∈ grants, g.id ≠ a.id) ∧ insertDmGrant grants a = (grants ++ [a.row], some a.id)) := by
  unfold insertDmGrant
  split
  · exact .inl rfl
  · rename_i hnew
    split
    · rename_i g hslot
      split
      · exact .inr (.inl ⟨g, List.mem_of_find?_eq_some hslot, rfl⟩)
      · exact .inl rfl
    · split
      · exact .inl rfl
      · refine .inr (.inr ⟨fun g hg he => hnew ?_, rfl⟩)
        exact List.any_eq_true.mpr ⟨g, hg, by simp [he]⟩

/-! ### Liveness and revocation -/

inductive GrantReason where
  | noGrant | badConsentSource | scopeMismatch | revoked | expired | maxSends
  deriving DecidableEq, Repr

def allowedConsentSources : List String := ["p2p-ingress", "directed-card"]

/-- Is the slot's grant deliverable at `now`? -/
def checkGrantLive (grants : List DmGrantRow) (scopeId slotLabel : String) (now : ℕ) :
    Except GrantReason DmGrantRow :=
  match getBySlot grants scopeId slotLabel with
  | none => .error .noGrant
  | some grant =>
    if grant.consentSource ∉ allowedConsentSources then .error .badConsentSource
    else if grant.scopeId ≠ scopeId then .error .scopeMismatch
    else if grant.revokedAt.isSome then .error .revoked
    -- a text that parses to NaN compares false
    else if (grant.expiresAt.any fun e => e.text ≠ "" && e.ms.any (· ≤ (now : ℤ))) then .error .expired
    else if 0 < grant.maxSends ∧ grant.maxSends ≤ grant.sendsUsed then .error .maxSends
    else .ok grant

/-- Past its time; a text that parses to NaN is never past. -/
def DmGrantRow.expired (now : ℕ) (g : DmGrantRow) : Bool :=
  g.expiresAt.any fun e => e.text ≠ "" && e.ms.any (· ≤ (now : ℤ))

theorem checkGrantLive_ok {grants : List DmGrantRow} {scopeId slotLabel : String} {now : ℕ} {g : DmGrantRow} :
    checkGrantLive grants scopeId slotLabel now = .ok g ↔
      getBySlot grants scopeId slotLabel = some g ∧ g.consentSource ∈ allowedConsentSources ∧ g.revokedAt = none ∧
        g.expired now = false ∧ ¬ (0 < g.maxSends ∧ g.maxSends ≤ g.sendsUsed) := by
  unfold checkGrantLive
  cases hslot : getBySlot grants scopeId slotLabel with
  | none => simp
  | some g' =>
    have hscope : g'.scopeId = scopeId := by
      have hfound := List.find?_some hslot
      simp only [Bool.and_eq_true, decide_eq_true_eq] at hfound
      exact hfound.1
    constructor
    · intro h
      simp only at h
      split at h
      · cases h
      rename_i hsource
      split at h
      · cases h
      split at h
      · cases h
      rename_i hrev
      split at h
      · cases h
      rename_i hexp
      split at h
      · cases h
      rename_i hcap
      cases h
      exact ⟨rfl, not_not.mp hsource, by simpa using hrev, by simpa [DmGrantRow.expired] using hexp, hcap⟩
    · rintro ⟨he, hsource, hrev, hexp, hcap⟩
      cases he
      unfold DmGrantRow.expired at hexp
      simp only
      rw [if_neg (not_not.mpr hsource), if_neg (not_not.mpr hscope), if_neg (by simp [hrev]), if_neg (by rw [hexp]; simp),
        if_neg hcap]

/-- `UPDATE dm_grants SET revoked_at = now WHERE covers AND revoked_at IS NULL`. -/
def revokeWhere (grants : List DmGrantRow) (covers : DmGrantRow → Bool) (now : ℕ) : List DmGrantRow :=
  grants.map fun g => if covers g && g.revokedAt.isNone then { g with revokedAt := some now } else g

/-- Who a revoke is about. -/
inductive Revocation where
  | scope (scopeId : String)
  | participantInScope (scopeId participantOpenId : String)
  | leaver (originPlatformId : String) (participantOpenId : Option String)

/-- The grants a revoke covers. -/
def Revocation.covers : Revocation → DmGrantRow → Bool
  | .scope s, g => g.scopeId = s
  | .participantInScope s p, g => g.scopeId = s && g.participantOpenId = p
  | .leaver o p, g =>
    -- no leaver is a disband: everyone who consented in that chat
    g.originPlatformId = some o && (!truthy p || some g.participantOpenId = p)

def revokeScope (grants : List DmGrantRow) (scopeId : String) (now : ℕ) : List DmGrantRow :=
  revokeWhere grants (Revocation.scope scopeId).covers now

def revokeParticipantInScope (grants : List DmGrantRow) (scopeId participantOpenId : String) (now : ℕ) :
    List DmGrantRow :=
  revokeWhere grants (Revocation.participantInScope scopeId participantOpenId).covers now

def revokeGrantsForLeaver (grants : List DmGrantRow) (originPlatformId : String)
    (participantOpenId : Option String) (now : ℕ) : List DmGrantRow :=
  revokeWhere grants (Revocation.leaver originPlatformId participantOpenId).covers now

/-! ### The ledger -/

structure RateWindow where
  windowSec : ℕ
  limit : ℕ

/-- A length that is not 0 and in milliseconds not `Infinity`. -/
def hasLength (windowSec : ℕ) : Bool := windowSec ≠ 0 && !Binary64.overflows (windowSec * 1000)

/-- The start of the window `now` is in; `toISOString` of a NaN date throws. -/
def windowStartIso (now windowSec : ℕ) : Option ℕ :=
  if hasLength windowSec then some (now / (windowSec * 1000) * (windowSec * 1000)) else none

def currentCount (ledger : List LedgerRow) (key : LedgerKey) (windowStart : ℕ) : ℕ :=
  ((Table.find LedgerRow.pk ledger (key, windowStart)).map (·.count)).getD 0

def bumpLedger (ledger : List LedgerRow) (key : LedgerKey) (windowStart : ℕ) : List LedgerRow :=
  Table.upsert LedgerRow.pk ledger ⟨key, windowStart, 1⟩ fun r => { r with count := r.count + 1 }

/-- `MAX(count - 1, 0)`. -/
def decLedger (ledger : List LedgerRow) (key : LedgerKey) (windowStart : ℕ) : List LedgerRow :=
  Table.update LedgerRow.pk ledger (key, windowStart) fun r => { r with count := r.count - 1 }

theorem find_bump (ledger : List LedgerRow) (k : LedgerKey) (ws : ℕ) (p : LedgerKey × ℕ) :
    Table.find LedgerRow.pk (bumpLedger ledger k ws) p =
      if p = (k, ws) then some ⟨k, ws, currentCount ledger k ws + 1⟩
      else Table.find LedgerRow.pk ledger p := by
  have hf : ∀ r : LedgerRow, LedgerRow.pk { r with count := r.count + 1 } = r.pk := fun _ => rfl
  unfold bumpLedger
  rw [Table.find_upsert hf]
  congr 1
  -- the updated row, written out
  change some (((Table.find LedgerRow.pk ledger (k, ws)).map fun r => { r with count := r.count + 1 }).getD
    ⟨k, ws, 1⟩) = _
  cases h : Table.find LedgerRow.pk ledger (k, ws) with
  | none => simp [currentCount, h]
  | some r =>
    obtain ⟨rk, rws, n⟩ := r
    have hpk := (Table.find_spec h).2
    simp only [LedgerRow.pk, Prod.mk.injEq] at hpk
    simp [currentCount, h, hpk]

theorem currentCount_bump (ledger : List LedgerRow) (k k' : LedgerKey) (ws ws' : ℕ) :
    currentCount (bumpLedger ledger k ws) k' ws' =
      if (k', ws') = (k, ws) then currentCount ledger k ws + 1 else currentCount ledger k' ws' := by
  rw [currentCount, find_bump]
  split <;> simp [currentCount]

theorem find_dec (ledger : List LedgerRow) (k : LedgerKey) (ws : ℕ) (p : LedgerKey × ℕ) :
    (Table.find LedgerRow.pk (decLedger ledger k ws) p).isSome =
        (Table.find LedgerRow.pk ledger p).isSome ∧
      ((Table.find LedgerRow.pk (decLedger ledger k ws) p).map (·.count)).getD 0 ≤
        ((Table.find LedgerRow.pk ledger p).map (·.count)).getD 0 := by
  have hf : ∀ r : LedgerRow, LedgerRow.pk { r with count := r.count - 1 } = r.pk := fun _ => rfl
  unfold decLedger
  rw [Table.find_update hf]
  split
  · rename_i h
    subst h
    cases Table.find LedgerRow.pk ledger (k, ws) <;> simp
  · simp

/-! ### Reserving and rolling back -/

/-- Window of the marker rows, 9999-01-01. -/
def reserveSentinelWindow : ℕ := 253370764800000

def hasRosterReservation (ledger : List LedgerRow) (messageOutId : String) : Bool :=
  (Table.find LedgerRow.pk ledger (.reserve messageOutId, reserveSentinelWindow)).isSome

structure RateKeys where
  grant : String
  scope : String
  participant : String
  deploy : String

structure RateWindows where
  grant : RateWindow
  scope : RateWindow
  participant : RateWindow
  deploy : RateWindow

def defaultRateWindows : RateWindows :=
  { grant := ⟨60, 3⟩, participant := ⟨60, 5⟩, scope := ⟨60, 20⟩, deploy := ⟨60, 100⟩ }

structure DeployQuotaConfig where
  key : String
  window : RateWindow
  dailyCap : ℕ
  dailyWindowSec : ℕ

inductive ReserveReason where
  | maxSends | rateLimited | deployDailyCap
  deriving DecidableEq, Repr

/-- What stops a transaction: `ReserveAbort`, or the `RangeError` of a window that begins at no time. -/
inductive TxError where
  | abort (reason : ReserveReason) (blockedKey : Option LedgerKey)
  | rangeError
  deriving DecidableEq, Repr

/-- One budget of a send: its ledger key, its window and limit, and why it refuses. -/
structure Budget where
  key : LedgerKey
  window : RateWindow
  reason : ReserveReason

/-- The budgets one send draws on, in the order they are checked; the daily one is off at 0. -/
def budgets (keys : RateKeys) (windows : RateWindows) (deploy : DeployQuotaConfig) : List Budget :=
  [⟨.grant keys.grant, windows.grant, .rateLimited⟩,
   ⟨.participant keys.participant, windows.participant, .rateLimited⟩,
   ⟨.scope keys.scope, windows.scope, .rateLimited⟩,
   ⟨.deploy keys.deploy, windows.deploy, .rateLimited⟩] ++
  if 0 < deploy.dailyCap then
    [⟨.deployDaily deploy.key, ⟨deploy.dailyWindowSec, deploy.dailyCap⟩, .deployDailyCap⟩]
  else []

/-- Check-under-limit, then bump, for each budget. -/
def chargeAll (now : ℕ) : List Budget → List LedgerRow → Except TxError (List LedgerRow)
  | [], ledger => .ok ledger
  | b :: bs, ledger => match windowStartIso now b.window.windowSec with
    | none => .error .rangeError
    | some ws =>
      if b.window.limit ≤ currentCount ledger b.key ws then .error (.abort b.reason (some b.key))
      else chargeAll now bs (bumpLedger ledger b.key ws)

/-- The decrements of a rollback. -/
def refundAll (now : ℕ) : List Budget → List LedgerRow → Except TxError (List LedgerRow)
  | [], ledger => .ok ledger
  | b :: bs, ledger => match windowStartIso now b.window.windowSec with
    | none => .error .rangeError
    | some ws => refundAll now bs (decLedger ledger b.key ws)

/-- `revoked_at IS NULL AND (max_sends <= 0 OR sends_used < max_sends)`. -/
def DmGrantRow.isOpen (g : DmGrantRow) : Bool :=
  g.revokedAt.isNone && (decide (g.maxSends ≤ 0) || decide (g.sendsUsed < g.maxSends))

/-- One more send; the one that reaches the cap revokes the grant. -/
def DmGrantRow.charge (now : ℕ) (g : DmGrantRow) : DmGrantRow :=
  { g with sendsUsed := g.sendsUsed + 1,
           revokedAt := if 0 < g.maxSends ∧ g.maxSends ≤ g.sendsUsed + 1 then g.revokedAt.or (some now)
                        else g.revokedAt }

/-- At its cap: the state in which a rollback takes the revocation back. -/
def DmGrantRow.capped (g : DmGrantRow) : Bool :=
  decide (0 < g.maxSends) && decide (g.maxSends ≤ g.sendsUsed)

def DmGrantRow.refund (g : DmGrantRow) : DmGrantRow :=
  { g with sendsUsed := max (g.sendsUsed - 1) 0,
           revokedAt := if g.capped then none else g.revokedAt }

/-- One send to account for. -/
structure Send where
  messageOutId : String
  grantId : String
  rateKeys : RateKeys
  windows : RateWindows
  deploy : DeployQuotaConfig
  now : ℕ

def Send.budgets (x : Send) : List Budget := AgentDesk.budgets x.rateKeys x.windows x.deploy

/-- The transaction of `reserveRosterSend`: the tables after it, and whether the reservation is fresh. -/
def reserveTx (db : Roster) (x : Send) : Except TxError (Roster × Bool) :=
  if hasRosterReservation db.ledger x.messageOutId then .ok (db, false)
  else if db.grants.any fun g => g.id = x.grantId && g.isOpen then
    match chargeAll x.now x.budgets db.ledger with
    | .error e => .error e
    | .ok ledger =>
      .ok ({ grants := db.grants.map fun g => if g.id = x.grantId && g.isOpen then g.charge x.now else g,
             ledger := bumpLedger ledger (.reserve x.messageOutId) reserveSentinelWindow }, true)
  else .error (.abort .maxSends none)

inductive ReserveResult where
  | ok (fresh : Bool)
  | refused (reason : ReserveReason) (blockedKey : Option LedgerKey)
  deriving DecidableEq, Repr

/-- The tables after the call, and its result; `none` is the `RangeError`, which goes through. -/
def reserveRosterSend (db : Roster) (x : Send) : Roster × Option ReserveResult :=
  match reserveTx db x with
  | .ok (db', fresh) => (db', some (.ok fresh))
  | .error (.abort reason blockedKey) => (db, some (.refused reason blockedKey))
  | .error .rangeError => (db, none)

/-- The tables after the call, and whether there was a reservation to undo; `none` is the `RangeError`. -/
def rollbackRosterReservation (db : Roster) (x : Send) : Roster × Option Bool :=
  if hasRosterReservation db.ledger x.messageOutId then
    match refundAll x.now x.budgets db.ledger with
    | .error _ => (db, none)
    | .ok ledger =>
      ({ grants := db.grants.map fun g => if g.id = x.grantId then g.refund else g,
         ledger := Table.delete LedgerRow.pk ledger (.reserve x.messageOutId, reserveSentinelWindow) },
       some true)
  else (db, some false)

/-! ### What the two can do -/

/-- A reservation stands already and nothing changes; or nothing changes and it is refused; or
it is fresh: the grant was open, every budget had room, and the marker is there now. -/
theorem reserveRosterSend_cases {db db' : Roster} {x : Send} {r : Option ReserveResult}
    (h : reserveRosterSend db x = (db', r)) :
    (db' = db ∧ (r = some (.ok true) → False)) ∨
    (r = some (.ok true) ∧ hasRosterReservation db.ledger x.messageOutId = false ∧
      ∃ ledger, chargeAll x.now x.budgets db.ledger = .ok ledger ∧
        db'.grants = db.grants.map (fun g => if g.id = x.grantId && g.isOpen then g.charge x.now else g) ∧
        db'.ledger = bumpLedger ledger (.reserve x.messageOutId) reserveSentinelWindow) := by
  unfold reserveRosterSend reserveTx at h
  split at h
  · rename_i d fresh htx
    split at htx
    · cases htx
      cases h
      exact .inl ⟨rfl, by simp⟩
    · rename_i hno
      split at htx
      · split at htx
        · cases htx
        · rename_i ledger hch
          cases htx
          cases h
          exact .inr ⟨rfl, by simpa using hno, ledger, hch, rfl, rfl⟩
      · cases htx
  · cases h
    exact .inl ⟨rfl, by simp⟩
  · cases h
    exact .inl ⟨rfl, by simp⟩

/-- No reservation, or a window that throws, and nothing changes; or every charge is taken back
and the marker is gone. -/
theorem rollbackRosterReservation_cases {db db' : Roster} {x : Send} {r : Option Bool}
    (h : rollbackRosterReservation db x = (db', r)) :
    (db' = db ∧ r ≠ some true) ∨
    (r = some true ∧ hasRosterReservation db.ledger x.messageOutId = true ∧
      ∃ ledger, refundAll x.now x.budgets db.ledger = .ok ledger ∧
        db'.grants = db.grants.map (fun g => if g.id = x.grantId then g.refund else g) ∧
        db'.ledger = Table.delete LedgerRow.pk ledger (.reserve x.messageOutId, reserveSentinelWindow)) := by
  unfold rollbackRosterReservation at h
  split at h
  · rename_i hres
    split at h
    · cases h
      exact .inl ⟨rfl, by simp⟩
    · rename_i ledger hre
      cases h
      exact .inr ⟨rfl, hres, ledger, hre, rfl, rfl⟩
  · cases h
    exact .inl ⟨rfl, by simp⟩

theorem isOpen_iff {g : DmGrantRow} :
    g.isOpen = true ↔ g.revokedAt = none ∧ (0 < g.maxSends → g.sendsUsed < g.maxSends) := by
  unfold DmGrantRow.isOpen
  simp only [Bool.and_eq_true, Bool.or_eq_true, decide_eq_true_eq, Option.isNone_iff_eq_none]
  refine and_congr_right fun _ => ⟨fun h hpos => ?_, fun h => ?_⟩
  · omega
  · by_cases hpos : 0 < g.maxSends
    · exact .inr (h hpos)
    · exact .inl (by omega)

theorem reserveRosterSend_eq (db : Roster) (x : Send) :
    reserveRosterSend db x =
      if hasRosterReservation db.ledger x.messageOutId then (db, some (.ok false))
      else if db.grants.any fun g => g.id = x.grantId && g.isOpen then
        match chargeAll x.now x.budgets db.ledger with
        | .ok ledger =>
          ({ grants := db.grants.map fun g => if g.id = x.grantId && g.isOpen then g.charge x.now else g,
             ledger := bumpLedger ledger (.reserve x.messageOutId) reserveSentinelWindow }, some (.ok true))
        | .error (.abort reason blockedKey) => (db, some (.refused reason blockedKey))
        | .error .rangeError => (db, none)
      else (db, some (.refused .maxSends none)) := by
  unfold reserveRosterSend reserveTx
  by_cases hres : hasRosterReservation db.ledger x.messageOutId = true
  · simp only [if_pos hres]
  · simp only [if_neg hres]
    by_cases hopen : (db.grants.any fun g => g.id = x.grantId && g.isOpen) = true
    · simp only [if_pos hopen]
      rcases chargeAll x.now x.budgets db.ledger with (⟨_, _⟩ | _) | _ <;> rfl
    · simp only [if_neg hopen]

theorem reserveRosterSend_fresh {db : Roster} {x : Send} :
    (reserveRosterSend db x).2 = some (.ok true) ↔
      hasRosterReservation db.ledger x.messageOutId = false ∧
        (∃ g ∈ db.grants, g.id = x.grantId ∧ g.isOpen = true) ∧
        ∃ ledger, chargeAll x.now x.budgets db.ledger = .ok ledger ∧
          (reserveRosterSend db x).1 =
            { grants := db.grants.map fun g => if g.id = x.grantId && g.isOpen then g.charge x.now else g,
              ledger := bumpLedger ledger (.reserve x.messageOutId) reserveSentinelWindow } := by
  rw [reserveRosterSend_eq]
  have hany : (db.grants.any fun g => g.id = x.grantId && g.isOpen) = true ↔
      ∃ g ∈ db.grants, g.id = x.grantId ∧ g.isOpen = true := by simp
  cases hres : hasRosterReservation db.ledger x.messageOutId with
  | true => simp
  | false =>
    by_cases hopen : (db.grants.any fun g => g.id = x.grantId && g.isOpen) = true
    · rw [if_neg Bool.false_ne_true, if_pos hopen]
      rcases hch : chargeAll x.now x.budgets db.ledger with (⟨_, _⟩ | _) | ledger
      · simp
      · simp
      · exact ⟨fun _ => ⟨rfl, hany.mp hopen, ledger, rfl, rfl⟩, fun _ => rfl⟩
    · rw [if_neg Bool.false_ne_true, if_neg hopen]
      exact ⟨fun h => (nomatch h), fun h => (hopen (hany.mpr h.2.1)).elim⟩

theorem reserveRosterSend_standing {db : Roster} {x : Send} :
    (reserveRosterSend db x).2 = some (.ok false) ↔ hasRosterReservation db.ledger x.messageOutId = true := by
  rw [reserveRosterSend_eq]
  by_cases hres : hasRosterReservation db.ledger x.messageOutId = true
  · rw [if_pos hres]
    exact ⟨fun _ => hres, fun _ => rfl⟩
  · rw [if_neg hres]
    refine ⟨fun h => ?_, fun h => (hres h).elim⟩
    split at h
    · split at h <;> cases h
    · cases h

theorem reserveRosterSend_same {db : Roster} {x : Send} (h : (reserveRosterSend db x).2 ≠ some (.ok true)) :
    (reserveRosterSend db x).1 = db := by
  rcases reserveRosterSend_cases (Prod.eta (reserveRosterSend db x)).symm with ⟨hsame, -⟩ | ⟨hfresh, -⟩
  · exact hsame
  · exact (h hfresh).elim

theorem rollbackRosterReservation_done {db : Roster} {x : Send} :
    (rollbackRosterReservation db x).2 = some true ↔
      hasRosterReservation db.ledger x.messageOutId = true ∧
        ∃ ledger, refundAll x.now x.budgets db.ledger = .ok ledger ∧
          (rollbackRosterReservation db x).1 =
            { grants := db.grants.map fun g => if g.id = x.grantId then g.refund else g,
              ledger := Table.delete LedgerRow.pk ledger (.reserve x.messageOutId, reserveSentinelWindow) } := by
  unfold rollbackRosterReservation
  cases hres : hasRosterReservation db.ledger x.messageOutId with
  | false => simp
  | true =>
    rw [if_pos rfl]
    cases hre : refundAll x.now x.budgets db.ledger with
    | error e => simp
    | ok ledger => exact ⟨fun _ => ⟨rfl, ledger, rfl, rfl⟩, fun _ => rfl⟩

theorem rollbackRosterReservation_same {db : Roster} {x : Send} (h : (rollbackRosterReservation db x).2 ≠ some true) :
    (rollbackRosterReservation db x).1 = db := by
  rcases rollbackRosterReservation_cases (Prod.eta (rollbackRosterReservation db x)).symm with ⟨hsame, -⟩ | ⟨hdone, -⟩
  · exact hsame
  · exact (h hdone).elim

theorem budgets_isRate (x : Send) : ∀ b ∈ x.budgets, b.key.isRate = true := by
  intro b hb
  unfold Send.budgets budgets at hb
  split at hb <;> simp at hb
  · rcases hb with rfl | rfl | rfl | rfl | rfl <;> rfl
  · rcases hb with rfl | rfl | rfl | rfl <;> rfl

theorem chargeAll_marker {now : ℕ} {m : String} {bs : List Budget} {ledger ledger' : List LedgerRow}
    (hb : ∀ b ∈ bs, b.key.isRate = true) (h : chargeAll now bs ledger = .ok ledger') :
    hasRosterReservation ledger' m = hasRosterReservation ledger m := by
  induction bs generalizing ledger with
  | nil =>
    cases h
    rfl
  | cons b bs ih =>
    unfold chargeAll at h
    split at h
    · cases h
    · rename_i ws _
      split at h
      · cases h
      · rw [ih (fun c hc => hb c (List.mem_cons_of_mem _ hc)) h]
        unfold hasRosterReservation
        rw [find_bump, if_neg]
        intro he
        have hk : LedgerKey.reserve m = b.key := congrArg Prod.fst he
        have hrate := hb b (List.mem_cons_self ..)
        rw [← hk] at hrate
        cases hrate

theorem refundAll_le {now : ℕ} (p : LedgerKey × ℕ) {bs : List Budget} {ledger ledger' : List LedgerRow}
    (h : refundAll now bs ledger = .ok ledger') :
    (Table.find LedgerRow.pk ledger' p).isSome = (Table.find LedgerRow.pk ledger p).isSome ∧
      ((Table.find LedgerRow.pk ledger' p).map (·.count)).getD 0 ≤
        ((Table.find LedgerRow.pk ledger p).map (·.count)).getD 0 := by
  induction bs generalizing ledger with
  | nil =>
    cases h
    exact ⟨rfl, le_rfl⟩
  | cons b bs ih =>
    unfold refundAll at h
    split at h
    · cases h
    · rename_i ws _
      obtain ⟨h1, h2⟩ := ih h
      obtain ⟨h3, h4⟩ := find_dec ledger b.key ws p
      exact ⟨h1.trans h3, h2.trans h4⟩

end AgentDesk
