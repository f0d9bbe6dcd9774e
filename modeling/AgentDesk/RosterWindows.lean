/-
# Where the rate windows begin

`windowStartIso` of `src/db/dm-grants.ts` with the arithmetic it has: the time is any that a `Date` can be, before
1970 too, the product, the quotient and the floor are those of binary64 numbers, and a date out of range is a
`RangeError`. What reads or charges a window, `checkRateKeys`, `checkDeployDailyCap` and `reserveRosterSend`, is here
for such times; of a grant it sees the columns of its `UPDATE`.

* `windowStartIso_eq`: a window begins at the multiple of its length before the time, if it has a length and the
  multiple is a date.
* `reservations_exact`: from 1970 on this is the ledger of `AgentDesk.DmGrants`, for any reservations.
* `windows_well_defined_iff`: **the windows are well defined exactly at the times at which that of the deployment
  begins**.
-/
import AgentDesk.RateLedger

namespace AgentDesk.Dated

open Binary64

/-- A whole number that is a double. -/
def IsDouble (n : ℕ) : Prop := Representable (n * 2 ^ places)

/-! ### Dates -/

/-- The last time of a `Date`, in milliseconds after 1970; the first is as long before it. -/
def maxTime : ℕ := 8640000000000000

structure Date where
  ms : ℤ
  valid : ms.natAbs ≤ maxTime
  deriving DecidableEq

/-- The time of `new Date(ms)`; `none` is an invalid date, which `toISOString` throws at. -/
def timeClip : Double → Option ℤ
  | .finite neg units _ =>
    if units ≤ maxTime * 2 ^ places then
      some (if neg then -(units / 2 ^ places : ℕ) else (units / 2 ^ places : ℕ))
    else none
  | .infinity _ => none

/-- The start of the window, whose text `toISOString` makes; `none` is the `RangeError`. -/
def windowStartIso (now : Date) (windowSec : ℕ) : Option ℤ := do
  let ms := Double.ofInt now.ms
  let windowMs ← (Double.ofInt windowSec).mul (.ofInt 1000)
  let windows ← ms.div windowMs
  let start ← windows.mathFloor.mul windowMs
  timeClip start

/-! ### The ledger -/

structure LedgerRow where
  key : LedgerKey
  windowStart : ℤ
  count : ℕ

def LedgerRow.pk (r : LedgerRow) : LedgerKey × ℤ := (r.key, r.windowStart)

/-- The columns of `dm_grants` that a reservation reads and writes. -/
structure GrantRow where
  id : String
  maxSends : ℤ
  sendsUsed : ℤ
  revokedAt : Option ℤ

structure Roster where
  grants : List GrantRow
  ledger : List LedgerRow

def currentCount (ledger : List LedgerRow) (key : LedgerKey) (windowStart : ℤ) : ℕ :=
  ((Table.find LedgerRow.pk ledger (key, windowStart)).map (·.count)).getD 0

def bumpLedger (ledger : List LedgerRow) (key : LedgerKey) (windowStart : ℤ) : List LedgerRow :=
  Table.upsert LedgerRow.pk ledger ⟨key, windowStart, 1⟩ fun r => { r with count := r.count + 1 }

/-- The first check that refuses; `start` is where the window of a length begins. -/
def checkWindows (ledger : List LedgerRow) (start : ℕ → Option ℤ) : List RateCheck → Option RateCheckResult
  | [] => some .allowed
  | c :: cs => match start c.window.windowSec with
    | none => none
    | some ws =>
      if c.window.limit ≤ currentCount ledger c.key ws then some (.blocked c.key) else checkWindows ledger start cs

def checkRateKeys (ledger : List LedgerRow) (keys : RateKeys) (windows : RateWindows) (now : Date) :
    Option RateCheckResult := checkWindows ledger (windowStartIso now) (rateChecks keys windows)

def checkDeployDailyCap (ledger : List LedgerRow) (quota : DeployQuotaConfig) (now : Date) : Option RateCheckResult :=
  checkWindows ledger (windowStartIso now) (dailyChecks quota)

/-- Check-under-limit, then bump, for each budget. -/
def chargeAll (start : ℕ → Option ℤ) : List Budget → List LedgerRow → Except TxError (List LedgerRow)
  | [], ledger => .ok ledger
  | b :: bs, ledger => match start b.window.windowSec with
    | none => .error .rangeError
    | some ws =>
      if b.window.limit ≤ currentCount ledger b.key ws then .error (.abort b.reason (some b.key))
      else chargeAll start bs (bumpLedger ledger b.key ws)

def hasRosterReservation (ledger : List LedgerRow) (messageOutId : String) : Bool :=
  (Table.find LedgerRow.pk ledger (.reserve messageOutId, (reserveSentinelWindow : ℤ))).isSome

def GrantRow.isOpen (g : GrantRow) : Bool :=
  g.revokedAt.isNone && (decide (g.maxSends ≤ 0) || decide (g.sendsUsed < g.maxSends))

def GrantRow.charge (now : Date) (g : GrantRow) : GrantRow :=
  { g with sendsUsed := g.sendsUsed + 1,
           revokedAt := if 0 < g.maxSends ∧ g.maxSends ≤ g.sendsUsed + 1 then g.revokedAt.or (some now.ms)
                        else g.revokedAt }

structure Send where
  messageOutId : String
  grantId : String
  rateKeys : RateKeys
  windows : RateWindows
  deploy : DeployQuotaConfig
  now : Date

def Send.budgets (x : Send) : List Budget := AgentDesk.budgets x.rateKeys x.windows x.deploy

def reserveTx (start : ℕ → Option ℤ) (db : Roster) (x : Send) : Except TxError (Roster × Bool) :=
  if hasRosterReservation db.ledger x.messageOutId then .ok (db, false)
  else if db.grants.any fun g => g.id = x.grantId && g.isOpen then
    match chargeAll start x.budgets db.ledger with
    | .error e => .error e
    | .ok ledger =>
      .ok ({ grants := db.grants.map fun g => if g.id = x.grantId && g.isOpen then g.charge x.now else g,
             ledger := bumpLedger ledger (.reserve x.messageOutId) reserveSentinelWindow }, true)
  else .error (.abort .maxSends none)

/-- The tables after the call, and its result; `none` is the `RangeError`, which goes through. -/
def reserved (db : Roster) : Except TxError (Roster × Bool) → Roster × Option ReserveResult
  | .ok (db', fresh) => (db', some (.ok fresh))
  | .error (.abort reason blockedKey) => (db, some (.refused reason blockedKey))
  | .error .rangeError => (db, none)

def reserveRosterSend (db : Roster) (x : Send) : Roster × Option ReserveResult :=
  reserved db (reserveTx (windowStartIso x.now) db x)

/-! ### Where a window begins -/

/-- The multiple of the length at or before the time. -/
def startOf (now : Date) (windowSec : ℕ) : ℤ := now.ms / (windowSec * 1000 : ℕ) * (windowSec * 1000 : ℕ)

/-- The window of the time has a length, and begins at a time that is a date. -/
def Begins (windowSec : ℕ) (now : Date) : Prop :=
  hasLength windowSec = true ∧ -(maxTime : ℤ) ≤ startOf now windowSec

instance (windowSec : ℕ) (now : Date) : Decidable (Begins windowSec now) := inferInstanceAs (Decidable (_ ∧ _))

theorem timeClip_ofInt (n : ℤ) : timeClip (.ofInt n) = if n.natAbs ≤ maxTime then some n else none := by
  have hmax : maxTime < 2 ^ 53 := by decide
  by_cases hsmall : n.natAbs < 2 ^ 53
  · have hunits : n.natAbs * 2 ^ places ≤ maxTime * 2 ^ places ↔ n.natAbs ≤ maxTime :=
      Nat.mul_le_mul_right_iff (Nat.two_pow_pos _)
    have hsign : (if decide (n < 0) = true then -(n.natAbs : ℤ) else (n.natAbs : ℤ)) = n := by
      simp only [decide_eq_true_eq]
      split <;> omega
    rw [Double.ofInt_eq (representable_whole hsmall), timeClip, Nat.mul_div_cancel _ (Nat.two_pow_pos _), hsign]
    exact if_congr hunits rfl rfl
  · have hlarge := not_lt.mp hsmall
    rw [if_neg (by omega)]
    cases h : wholeRound n.natAbs with
    | none =>
      rw [Double.ofInt_infinity h]
      rfl
    | some m =>
      have hm := wholeRound_large hlarge h
      have hround := round_whole n.natAbs
      rw [h, Option.map_some] at hround
      have hout : ¬ m * 2 ^ places ≤ maxTime * 2 ^ places := by
        rw [not_le]
        exact Nat.mul_lt_mul_of_pos_right (by omega) (Nat.two_pow_pos _)
      rw [Double.ofInt, Double.ofQuotient_some hround, timeClip, if_neg hout]

theorem Date.small (now : Date) : now.ms.natAbs < 2 ^ 53 := by
  have hmax : maxTime < 2 ^ 53 := by decide
  exact now.valid.trans_lt hmax

theorem windowMs_eq {windowSec : ℕ} (h : IsDouble windowSec) :
    (Double.ofInt windowSec).mul (.ofInt 1000) = some (.ofInt (windowSec * 1000 : ℕ)) := by
  have hmul := Double.mul_ofInt (a := windowSec) (b := 1000) h (representable_whole (by decide)) (by decide)
  rw [Int.natCast_mul]
  exact hmul

theorem windowStartIso_zero (now : Date) : windowStartIso now 0 = none := by
  have hrep : IsDouble 0 := representable_whole (by decide)
  have hms : (Double.ofInt (0 : ℕ)).mul (.ofInt 1000) = some (.ofInt 0) := windowMs_eq hrep
  have hnone := Double.mathFloor_div_zero (.ofInt now.ms)
  unfold windowStartIso
  rw [hms]
  dsimp only
  rw [Option.bind_eq_bind, Option.bind_some, ← Option.bind_assoc, hnone, Option.bind_none]

theorem windowStartIso_infinity (now : Date) {windowSec : ℕ} (h : IsDouble windowSec)
    (hinfinity : wholeRound (windowSec * 1000) = none) : windowStartIso now windowSec = none := by
  have hms : Double.ofInt (windowSec * 1000 : ℕ) = .infinity ((windowSec * 1000 : ℕ) < (0 : ℤ)) :=
    Double.ofInt_infinity hinfinity
  have hnone := Double.mathFloor_div_infinity (now.ms < 0) ((windowSec * 1000 : ℕ) < (0 : ℤ)) (representable_whole now.small)
  unfold windowStartIso
  rw [windowMs_eq h, hms, Double.ofInt_eq (representable_whole now.small)]
  dsimp only
  rw [Option.bind_eq_bind, Option.bind_some, ← Option.bind_assoc, hnone, Option.bind_none]

theorem windowStartIso_length (now : Date) {windowSec d : ℕ}
    (hlength : (Double.ofInt windowSec).mul (.ofInt 1000) = some (.ofInt d)) (hd : IsDouble d)
    (hpos : 0 < d) :
    windowStartIso now windowSec = if (now.ms / d * d).natAbs ≤ maxTime then some (now.ms / d * d) else none := by
  have hquotient := Double.mathFloor_div now.small hpos hd
  have hwhole : (now.ms / d).natAbs < 2 ^ 53 := (Int.natAbs_ediv_le_natAbs now.ms d).trans_lt now.small
  have hstart := Double.mul_ofInt (representable_whole hwhole) hd hpos
  obtain ⟨windows, hwindows, hfloor⟩ := Option.map_eq_some_iff.mp hquotient
  rw [← timeClip_ofInt]
  unfold windowStartIso
  rw [hlength]
  dsimp only
  rw [Option.bind_eq_bind, Option.bind_some, hwindows, Option.bind_some, hfloor, hstart, Option.bind_some]

theorem ediv_of_large {ms : ℤ} {d : ℕ} (hms : ms.natAbs ≤ maxTime) (hd : 2 ^ 53 ≤ d) :
    ms / d * d = if 0 ≤ ms then 0 else -(d : ℤ) := by
  have hmax : maxTime < 2 ^ 53 := by decide
  have hpos : (0 : ℤ) < d := by omega
  split
  · rename_i hnonneg
    rw [Int.ediv_eq_zero_of_lt hnonneg (by omega), Int.zero_mul]
  · have hone : ms / d = -1 := by
      rw [Int.ediv_eq_iff_of_pos hpos]
      omega
    rw [hone, Int.neg_one_mul]

/-- **A window begins at the multiple of its length.** -/
theorem windowStartIso_eq (now : Date) {windowSec : ℕ} (h : IsDouble windowSec) :
    windowStartIso now windowSec = if Begins windowSec now then some (startOf now windowSec) else none := by
  have hvalid := now.valid
  rcases Nat.eq_zero_or_pos windowSec with rfl | hpos
  · have hnot : ¬ Begins 0 now := fun hbegins => Bool.false_ne_true hbegins.1
    rw [windowStartIso_zero, if_neg hnot]
  · cases hround : wholeRound (windowSec * 1000) with
    | none =>
      have hnot : ¬ Begins windowSec now := by
        intro hbegins
        have hlength := hbegins.1
        rw [hasLength, overflows_eq, hround] at hlength
        simp at hlength
      rw [windowStartIso_infinity now h hround, if_neg hnot]
    | some d =>
      have hlength : hasLength windowSec = true := by
        rw [hasLength, overflows_eq, hround]
        simp [hpos.ne']
      have hms : (Double.ofInt windowSec).mul (.ofInt 1000) = some (.ofInt d) := by
        rw [windowMs_eq h, Double.ofInt_round hround]
      have hbegins : Begins windowSec now ↔ -(maxTime : ℤ) ≤ startOf now windowSec :=
        ⟨fun hbegins => hbegins.2, fun hstart => ⟨hlength, hstart⟩⟩
      have hd : IsDouble d := wholeRound_representable hround
      by_cases hsmall : windowSec * 1000 < 2 ^ 53
      · obtain rfl := Option.some.inj ((wholeRound_small hsmall).symm.trans hround)
        rw [windowStartIso_length now hms hd (by omega)]
        have hle : startOf now windowSec ≤ now.ms := Int.ediv_mul_le _ (by omega)
        have hrange : (startOf now windowSec).natAbs ≤ maxTime ↔ Begins windowSec now := by
          rw [hbegins]
          omega
        exact if_congr hrange rfl rfl
      · -- the window is longer than all times before 1970, and than all after
        have hmax : maxTime < 2 ^ 53 := by decide
        have hlarge := wholeRound_large (not_lt.mp hsmall) hround
        have hstart : startOf now windowSec = if 0 ≤ now.ms then 0 else -((windowSec * 1000 : ℕ) : ℤ) :=
          ediv_of_large hvalid (not_lt.mp hsmall)
        rw [windowStartIso_length now hms hd (by omega), ediv_of_large hvalid hlarge]
        split at hstart
        · rename_i hnonneg
          have hyes : Begins windowSec now := hbegins.mpr (by omega)
          rw [if_pos hnonneg, if_pos hyes, hstart]
          rfl
        · rename_i hneg
          have hnot : ¬ Begins windowSec now := by
            rw [hbegins]
            omega
          rw [if_neg hneg, if_neg hnot, if_neg (by omega)]

/-! ### The ledger of `AgentDesk.DmGrants` -/

def ofLedgerRow (r : AgentDesk.LedgerRow) : LedgerRow := ⟨r.key, r.windowStart, r.count⟩

def ofGrant (g : DmGrantRow) : GrantRow := ⟨g.id, g.maxSends, g.sendsUsed, g.revokedAt.map fun ms : ℕ => (ms : ℤ)⟩

def ofRoster (db : AgentDesk.Roster) : Roster := ⟨db.grants.map ofGrant, db.ledger.map ofLedgerRow⟩

/-- A time from 1970 on. -/
def ofMs (now : ℕ) (h : now ≤ maxTime) : Date := ⟨now, h⟩

def ofSend (x : AgentDesk.Send) (h : x.now ≤ maxTime) : Send :=
  ⟨x.messageOutId, x.grantId, x.rateKeys, x.windows, x.deploy, ofMs x.now h⟩

theorem windowStartIso_dated {now : ℕ} (hnow : now ≤ maxTime) {windowSec : ℕ}
    (h : IsDouble windowSec) :
    windowStartIso (ofMs now hnow) windowSec =
      (AgentDesk.windowStartIso now windowSec).map fun ws : ℕ => (ws : ℤ) := by
  have hstart : startOf (ofMs now hnow) windowSec =
      ((now / (windowSec * 1000) * (windowSec * 1000) : ℕ) : ℤ) := by
    show (now : ℤ) / ((windowSec * 1000 : ℕ) : ℤ) * ((windowSec * 1000 : ℕ) : ℤ) = _
    rw [← Int.natCast_ediv, ← Int.natCast_mul]
  have hbegins : Begins windowSec (ofMs now hnow) ↔ hasLength windowSec = true := by
    refine and_iff_left ?_
    rw [hstart]
    omega
  rw [windowStartIso_eq _ h, AgentDesk.windowStartIso, hstart, if_congr hbegins rfl rfl]
  split <;> rfl

theorem pk_dated (r : AgentDesk.LedgerRow) (key : LedgerKey) (ws : ℕ) :
    (ofLedgerRow r).pk = (key, (ws : ℤ)) ↔ r.pk = (key, ws) := by
  simp [LedgerRow.pk, AgentDesk.LedgerRow.pk, ofLedgerRow]

theorem find_dated (ledger : List AgentDesk.LedgerRow) (key : LedgerKey) (ws : ℕ) :
    Table.find LedgerRow.pk (ledger.map ofLedgerRow) (key, (ws : ℤ)) =
      (Table.find AgentDesk.LedgerRow.pk ledger (key, ws)).map ofLedgerRow := by
  unfold Table.find
  rw [List.find?_map]
  congr 2
  funext r
  exact decide_eq_decide.mpr (pk_dated r key ws)

theorem currentCount_dated (ledger : List AgentDesk.LedgerRow) (key : LedgerKey) (ws : ℕ) :
    currentCount (ledger.map ofLedgerRow) key ws = AgentDesk.currentCount ledger key ws := by
  rw [currentCount, find_dated, AgentDesk.currentCount, Option.map_map]
  rfl

theorem bumpLedger_dated (ledger : List AgentDesk.LedgerRow) (key : LedgerKey) (ws : ℕ) :
    bumpLedger (ledger.map ofLedgerRow) key ws = (AgentDesk.bumpLedger ledger key ws).map ofLedgerRow := by
  have hfound : (Table.find LedgerRow.pk (ledger.map ofLedgerRow) (key, (ws : ℤ))).isSome = true ↔
      (Table.find AgentDesk.LedgerRow.pk ledger (key, ws)).isSome = true := by
    rw [find_dated, Option.isSome_map]
  refine (if_congr hfound ?_ ?_).trans (apply_ite (List.map ofLedgerRow) _ _ _).symm
  · unfold Table.update
    rw [List.map_map, List.map_map]
    refine List.map_congr_left fun r _ => ?_
    refine (if_congr (pk_dated r key ws) ?_ ?_).trans (apply_ite ofLedgerRow _ _ _).symm
    · rfl
    · rfl
  · rw [List.map_append]
    rfl

theorem chargeAll_dated {now : ℕ} {start : ℕ → Option ℤ} {bs : List Budget}
    (h : ∀ b ∈ bs, start b.window.windowSec =
      (AgentDesk.windowStartIso now b.window.windowSec).map fun ws : ℕ => (ws : ℤ))
    (ledger : List AgentDesk.LedgerRow) :
    chargeAll start bs (ledger.map ofLedgerRow) = (AgentDesk.chargeAll now bs ledger).map (List.map ofLedgerRow) := by
  induction bs generalizing ledger with
  | nil => rfl
  | cons b bs ih =>
    rw [chargeAll, AgentDesk.chargeAll, h b List.mem_cons_self]
    generalize AgentDesk.windowStartIso now b.window.windowSec = ws
    cases ws with
    | none => rfl
    | some ws =>
      have hrest := ih (fun c hc => h c (List.mem_cons_of_mem b hc)) (AgentDesk.bumpLedger ledger b.key ws)
      dsimp only [Option.map_some]
      rw [currentCount_dated, bumpLedger_dated, hrest]
      split <;> rfl

theorem isOpen_dated (g : DmGrantRow) : (ofGrant g).isOpen = g.isOpen := by
  rw [GrantRow.isOpen, DmGrantRow.isOpen, ofGrant, Option.isNone_map]

theorem charge_dated {now : ℕ} (hnow : now ≤ maxTime) (g : DmGrantRow) :
    (ofGrant g).charge (ofMs now hnow) = ofGrant (g.charge now) := by
  unfold GrantRow.charge DmGrantRow.charge ofGrant
  dsimp only
  congr 1
  split
  · cases g.revokedAt <;> rfl
  · rfl

theorem hasRosterReservation_dated (ledger : List AgentDesk.LedgerRow) (messageOutId : String) :
    hasRosterReservation (ledger.map ofLedgerRow) messageOutId =
      AgentDesk.hasRosterReservation ledger messageOutId := by
  rw [hasRosterReservation, find_dated, Option.isSome_map]
  rfl

theorem reserveTx_dated {x : AgentDesk.Send} (hnow : x.now ≤ maxTime) {start : ℕ → Option ℤ}
    (h : ∀ b ∈ x.budgets, start b.window.windowSec =
      (AgentDesk.windowStartIso x.now b.window.windowSec).map fun ws : ℕ => (ws : ℤ)) (db : AgentDesk.Roster) :
    reserveTx start (ofRoster db) (ofSend x hnow) =
      (AgentDesk.reserveTx db x).map fun (db', fresh) => (ofRoster db', fresh) := by
  have hany : ((ofRoster db).grants.any fun g => g.id = x.grantId && g.isOpen) =
      db.grants.any fun g => g.id = x.grantId && g.isOpen := by
    simp only [ofRoster, List.any_map]
    congr 1
    funext g
    show (decide (g.id = x.grantId) && (ofGrant g).isOpen) = _
    rw [isOpen_dated]
  have hgrants : ((ofRoster db).grants.map fun g =>
      if g.id = x.grantId && g.isOpen then g.charge (ofMs x.now hnow) else g) =
      (db.grants.map fun g => if g.id = x.grantId && g.isOpen then g.charge x.now else g).map ofGrant := by
    simp only [ofRoster, List.map_map]
    refine List.map_congr_left fun g _ => ?_
    show (if (decide (g.id = x.grantId) && (ofGrant g).isOpen) = true then (ofGrant g).charge (ofMs x.now hnow)
      else ofGrant g) = ofGrant (if (decide (g.id = x.grantId) && g.isOpen) = true then g.charge x.now else g)
    rw [isOpen_dated, charge_dated]
    split <;> rfl
  have hcharge : chargeAll start (ofSend x hnow).budgets (ofRoster db).ledger =
      (AgentDesk.chargeAll x.now x.budgets db.ledger).map (List.map ofLedgerRow) := chargeAll_dated h db.ledger
  unfold reserveTx AgentDesk.reserveTx
  have hstanding : hasRosterReservation (ofRoster db).ledger (ofSend x hnow).messageOutId =
      AgentDesk.hasRosterReservation db.ledger x.messageOutId := hasRosterReservation_dated db.ledger x.messageOutId
  rw [hstanding, hcharge]
  split
  · rfl
  · show (if ((ofRoster db).grants.any fun g => decide (g.id = x.grantId) && g.isOpen) = true then _ else _) = _
    rw [hany]
    split
    · generalize AgentDesk.chargeAll x.now x.budgets db.ledger = charged
      cases charged with
      | error e => rfl
      | ok ledger =>
        have hbump := bumpLedger_dated ledger (.reserve x.messageOutId) reserveSentinelWindow
        show Except.ok ((⟨(ofRoster db).grants.map fun g =>
            if decide (g.id = x.grantId) && g.isOpen then g.charge (ofMs x.now hnow) else g,
          bumpLedger (ledger.map ofLedgerRow) (.reserve x.messageOutId) reserveSentinelWindow⟩ : Roster), true) = _
        rw [hgrants, hbump]
        rfl
    · rfl

/-- **From 1970 on a reservation is the one of `AgentDesk.DmGrants`.** -/
theorem reserveRosterSend_dated {x : AgentDesk.Send} (hnow : x.now ≤ maxTime)
    (h : ∀ b ∈ x.budgets, IsDouble b.window.windowSec) (db : AgentDesk.Roster) :
    reserveRosterSend (ofRoster db) (ofSend x hnow) =
      (ofRoster (AgentDesk.reserveRosterSend db x).1, (AgentDesk.reserveRosterSend db x).2) := by
  have hstart : ∀ b ∈ x.budgets, windowStartIso (ofMs x.now hnow) b.window.windowSec =
      (AgentDesk.windowStartIso x.now b.window.windowSec).map fun ws : ℕ => (ws : ℤ) :=
    fun b hb => windowStartIso_dated hnow (h b hb)
  have htx := reserveTx_dated hnow hstart db
  rw [reserveRosterSend, AgentDesk.reserveRosterSend]
  show reserved (ofRoster db) (reserveTx (windowStartIso (ofMs x.now hnow)) (ofRoster db) (ofSend x hnow)) = _
  rw [htx]
  generalize AgentDesk.reserveTx db x = tx
  rcases tx with (⟨reason, blockedKey⟩ | _) | ⟨db', fresh⟩ <;> rfl

/-! ### Well-defined windows -/

/-- The lengths a deployment has windows of. -/
def lengths (quota : DeployQuotaConfig) : List ℕ :=
  [quota.rateWindows.grant.windowSec, quota.rateWindows.participant.windowSec, quota.rateWindows.scope.windowSec,
   quota.rateWindows.deploy.windowSec, quota.dailyWindowSec]

/-- The `k`-th half-open window of a length. -/
def InWindow (windowSec : ℕ) (k : ℤ) (now : Date) : Prop :=
  k * (windowSec * 1000 : ℕ) ≤ now.ms ∧ now.ms < (k + 1) * (windowSec * 1000 : ℕ)

/-- At the two times nothing throws, and the windows begin alike exactly when they are one, with the time in them. -/
structure WellDefined (quota : DeployQuotaConfig) (t t' : Date) : Prop where
  reserve : ∀ (now : Date), now = t ∨ now = t' → ∀ db messageOutId grantId keys,
    (reserveRosterSend db ⟨messageOutId, grantId, keys, quota.rateWindows, quota, now⟩).2 ≠ none
  rate : ∀ (now : Date), now = t ∨ now = t' → ∀ ledger keys, checkRateKeys ledger keys quota.rateWindows now ≠ none
  daily : ∀ (now : Date), now = t ∨ now = t' → ∀ ledger, checkDeployDailyCap ledger quota now ≠ none
  same : ∀ windowSec ∈ lengths quota, windowStartIso t windowSec = windowStartIso t' windowSec ↔
    ∃ k, InWindow windowSec k t ∧ InWindow windowSec k t'
  own : ∀ (now : Date), now = t ∨ now = t' → ∀ windowSec ∈ lengths quota,
    ∃ ws, windowStartIso now windowSec = some ws ∧ ws ≤ now.ms ∧ now.ms < ws + (windowSec * 1000 : ℕ)

theorem begins_of_dvd {windowSec : ℕ} (hlength : hasLength windowSec = true) (hdvd : windowSec * 1000 ∣ maxTime)
    (now : Date) : Begins windowSec now := by
  refine ⟨hlength, ?_⟩
  have hvalid := now.valid
  obtain ⟨days, hdays⟩ := hdvd
  have hpos : 0 < windowSec * 1000 := by
    rw [Nat.pos_iff_ne_zero]
    intro hzero
    rw [hzero, Nat.zero_mul] at hdays
    exact absurd hdays (by decide)
  have hle : -(days : ℤ) ≤ now.ms / (windowSec * 1000 : ℕ) := by
    rw [Int.le_ediv_iff_mul_le (by omega), Int.neg_mul, Int.mul_comm, ← Int.natCast_mul, ← hdays]
    omega
  have hmul := Int.mul_le_mul_of_nonneg_right hle (Int.natCast_nonneg (windowSec * 1000))
  rw [Int.neg_mul, Int.mul_comm, ← Int.natCast_mul, ← hdays] at hmul
  exact hmul

theorem isDouble_small {n : ℕ} (h : n < 2 ^ 53) : IsDouble n := representable_whole h

theorem isDouble_setting {raw : Option String} {n : ℕ} (h : readRosterEnvInt raw = some n) : IsDouble n := by
  obtain ⟨text, -, hread⟩ := Option.bind_eq_some_iff.mp h
  exact wholeRound_representable (Option.ite_none_left_eq_some.mp hread).2

theorem isDouble_window (env : String → Option String) : IsDouble (resolveDeployQuota env).window.windowSec := by
  show IsDouble ((readRosterEnvInt (env "ROSTER_DEPLOY_WINDOW_SEC")).getD defaultRateWindows.deploy.windowSec)
  cases h : readRosterEnvInt (env "ROSTER_DEPLOY_WINDOW_SEC") with
  | none => exact isDouble_small (by decide)
  | some n => exact isDouble_setting h

section Quota

variable (env : String → Option String) {now : Date}

theorem lengths_double : ∀ windowSec ∈ lengths (resolveDeployQuota env), IsDouble windowSec := by
  have hminute : IsDouble 60 := isDouble_small (by decide)
  have hday : IsDouble 86400 := isDouble_small (by decide)
  intro windowSec hmem
  simp only [lengths, List.mem_cons, List.not_mem_nil, or_false] at hmem
  rcases hmem with rfl | rfl | rfl | rfl | rfl
  · exact hminute
  · exact hminute
  · exact hminute
  · exact isDouble_window env
  · exact hday

theorem lengths_begin (h : Begins (resolveDeployQuota env).window.windowSec now) :
    ∀ windowSec ∈ lengths (resolveDeployQuota env), IsDouble windowSec ∧ Begins windowSec now := by
  have hminute : IsDouble 60 ∧ Begins 60 now := ⟨isDouble_small (by decide), begins_of_dvd (by decide) (by decide) now⟩
  have hday : IsDouble 86400 ∧ Begins 86400 now :=
    ⟨isDouble_small (by decide), begins_of_dvd (by decide) (by decide) now⟩
  have hwindow := And.intro (isDouble_window env) h
  intro windowSec hmem
  simp only [lengths, List.mem_cons, List.not_mem_nil, or_false] at hmem
  rcases hmem with rfl | rfl | rfl | rfl | rfl
  · exact hminute
  · exact hminute
  · exact hminute
  · exact hwindow
  · exact hday

theorem checkWindows_begins {start : ℕ → Option ℤ} {ledger : List LedgerRow} {cs : List RateCheck}
    (h : ∀ c ∈ cs, start c.window.windowSec ≠ none) : checkWindows ledger start cs ≠ none := by
  induction cs with
  | nil => exact nofun
  | cons c cs ih =>
    have hc := h c List.mem_cons_self
    rw [checkWindows]
    split
    · rename_i hnone
      exact absurd hnone hc
    · split
      · exact nofun
      · exact ih fun d hd => h d (List.mem_cons_of_mem c hd)

theorem chargeAll_begins {start : ℕ → Option ℤ} {bs : List Budget} {ledger : List LedgerRow}
    (h : ∀ b ∈ bs, start b.window.windowSec ≠ none) : chargeAll start bs ledger ≠ .error .rangeError := by
  induction bs generalizing ledger with
  | nil => exact nofun
  | cons b bs ih =>
    have hb := h b List.mem_cons_self
    rw [chargeAll]
    split
    · rename_i hnone
      exact absurd hnone hb
    · split
      · exact nofun
      · exact ih fun c hc => h c (List.mem_cons_of_mem b hc)

theorem reserved_begins {start : ℕ → Option ℤ} {x : Send} (h : ∀ b ∈ x.budgets, start b.window.windowSec ≠ none)
    (db : Roster) : (reserved db (reserveTx start db x)).2 ≠ none := by
  have hcharge : chargeAll start x.budgets db.ledger ≠ .error .rangeError := chargeAll_begins h
  unfold reserveTx
  split
  · exact nofun
  · split
    · generalize chargeAll start x.budgets db.ledger = charged at hcharge
      rcases charged with (⟨_, _⟩ | _) | _
      · exact nofun
      · exact absurd rfl hcharge
      · exact nofun
    · exact nofun

theorem rateChecks_lengths (keys : RateKeys) (quota : DeployQuotaConfig) :
    ∀ c ∈ rateChecks keys quota.rateWindows, c.window.windowSec ∈ lengths quota := by
  intro c hc
  simp only [rateChecks, List.mem_cons, List.not_mem_nil, or_false] at hc
  rcases hc with rfl | rfl | rfl | rfl <;> simp [lengths]

theorem dailyChecks_lengths (quota : DeployQuotaConfig) :
    ∀ c ∈ dailyChecks quota, c.window.windowSec ∈ lengths quota := by
  intro c hc
  unfold dailyChecks at hc
  split at hc
  · cases hc
  · rw [List.mem_singleton.mp hc]
    simp [lengths]

theorem budgets_lengths (keys : RateKeys) (quota : DeployQuotaConfig) :
    ∀ b ∈ budgets keys quota.rateWindows quota, b.window.windowSec ∈ lengths quota := by
  intro b hb
  rcases List.mem_append.mp hb with hrate | hdaily
  · simp only [List.mem_cons, List.not_mem_nil, or_false] at hrate
    rcases hrate with rfl | rfl | rfl | rfl <;> simp [lengths]
  · split at hdaily
    · rw [List.mem_singleton.mp hdaily]
      simp [lengths]
    · cases hdaily

/-- One call after the other: what they leave, and their answers. -/
def inTurn {σ ι ρ : Type} (f : σ → ι → σ × ρ) : σ → List ι → σ × List ρ
  | s, [] => (s, [])
  | s, x :: xs =>
    let rest := inTurn f (f s x).1 xs
    (rest.1, (f s x).2 :: rest.2)

/-- A send with the settings of the environment, from 1970 on. -/
structure Configured (x : AgentDesk.Send) : Prop where
  time : x.now ≤ maxTime
  windows : x.windows = (resolveDeployQuota env).rateWindows
  deploy : x.deploy = resolveDeployQuota env

/-- **Rounding changes no reservation.** Whatever the settings are, any reservations one after the other leave the
tables and have the answers that they would with exact whole numbers for times, quotients and windows. -/
theorem reservations_exact (db : AgentDesk.Roster) (sends : List { x : AgentDesk.Send // Configured env x }) :
    inTurn reserveRosterSend (ofRoster db) (sends.map fun x => ofSend x.1 x.2.time) =
      (inTurn AgentDesk.reserveRosterSend db (sends.map (·.1))).map ofRoster id := by
  induction sends generalizing db with
  | nil => rfl
  | cons x sends ih =>
    have hdouble : ∀ b ∈ x.1.budgets, IsDouble b.window.windowSec := by
      intro b hb
      apply lengths_double env
      rw [AgentDesk.Send.budgets, x.2.windows, x.2.deploy] at hb
      exact budgets_lengths x.1.rateKeys _ b hb
    have hfirst := reserveRosterSend_dated x.2.time hdouble db
    simp only [List.map_cons, inTurn, hfirst, ih]
    rfl

theorem inWindow_iff {windowSec : ℕ} (hlength : hasLength windowSec = true) (k : ℤ) (now : Date) :
    InWindow windowSec k now ↔ now.ms / (windowSec * 1000 : ℕ) = k := by
  have hpos : windowSec ≠ 0 := by
    intro hzero
    simp [hasLength, hzero] at hlength
  rw [Int.ediv_eq_iff_of_pos (by omega), InWindow, Int.add_mul, Int.one_mul]

/-- **Windows that begin are well defined.** -/
theorem same_iff {windowSec : ℕ} (hdouble : IsDouble windowSec) {t t' : Date} (ht : Begins windowSec t)
    (ht' : Begins windowSec t') :
    windowStartIso t windowSec = windowStartIso t' windowSec ↔
      ∃ k, InWindow windowSec k t ∧ InWindow windowSec k t' := by
  have hlength := ht.1
  have hpos : windowSec ≠ 0 := by
    intro hzero
    simp [hasLength, hzero] at hlength
  have hne : ((windowSec * 1000 : ℕ) : ℤ) ≠ 0 := by omega
  rw [windowStartIso_eq t hdouble, windowStartIso_eq t' hdouble, if_pos ht, if_pos ht', Option.some_inj, startOf, startOf,
    Int.mul_eq_mul_right_iff hne]
  simp only [inWindow_iff hlength]
  constructor
  · intro h
    exact ⟨_, h, rfl⟩
  · rintro ⟨k, h, h'⟩
    exact h.trans h'.symm

theorem own_window {windowSec : ℕ} (hdouble : IsDouble windowSec) {now : Date} (h : Begins windowSec now) :
    ∃ ws, windowStartIso now windowSec = some ws ∧ ws ≤ now.ms ∧ now.ms < ws + (windowSec * 1000 : ℕ) := by
  have hwindow := (inWindow_iff h.1 _ now).mpr rfl
  rw [InWindow, Int.add_mul, Int.one_mul] at hwindow
  refine ⟨startOf now windowSec, ?_, hwindow⟩
  rw [windowStartIso_eq now hdouble, if_pos h]

theorem checkWindows_throws {start : ℕ → Option ℤ} {keys : RateKeys} {quota : DeployQuotaConfig} {ws : ℤ}
    (hminute : start 60 = some ws) (hwindow : start quota.window.windowSec = none) :
    checkWindows [] start (rateChecks keys quota.rateWindows) = none := by
  have hcount : ∀ key ws, currentCount [] key ws = 0 := fun _ _ => rfl
  unfold rateChecks
  simp only [checkWindows, DeployQuotaConfig.rateWindows, defaultRateWindows, hminute, hwindow, hcount]
  rfl

theorem checkRateKeys_throws (h : ¬ Begins (resolveDeployQuota env).window.windowSec now) (keys : RateKeys) :
    checkRateKeys [] keys (resolveDeployQuota env).rateWindows now = none := by
  have hminute : windowStartIso now 60 = some (startOf now 60) := by
    rw [windowStartIso_eq now (isDouble_small (by decide)), if_pos (begins_of_dvd (by decide) (by decide) now)]
  have hwindow : windowStartIso now (resolveDeployQuota env).window.windowSec = none := by
    rw [windowStartIso_eq now (isDouble_window env), if_neg h]
  exact checkWindows_throws hminute hwindow

/-- **The windows of a deployment are well defined at two times exactly when its own window begins at both.** -/
theorem windows_well_defined_iff (t t' : Date) :
    WellDefined (resolveDeployQuota env) t t' ↔
      ∀ now, now = t ∨ now = t' → Begins (resolveDeployQuota env).window.windowSec now := by
  constructor
  · intro h now hnow
    by_contra hnot
    exact h.rate now hnow [] ⟨"", "", "", ""⟩ (checkRateKeys_throws env hnot _)
  · intro h
    have hall : ∀ now, now = t ∨ now = t' → ∀ windowSec ∈ lengths (resolveDeployQuota env),
        windowStartIso now windowSec ≠ none := by
      intro now hnow windowSec hmem
      obtain ⟨hdouble, hbegins⟩ := lengths_begin env (h now hnow) windowSec hmem
      rw [windowStartIso_eq now hdouble, if_pos hbegins]
      exact nofun
    refine ⟨?_, ?_, ?_, ?_, ?_⟩
    · intro now hnow db messageOutId grantId keys
      have hstart : ∀ b ∈ budgets keys (resolveDeployQuota env).rateWindows (resolveDeployQuota env),
          windowStartIso now b.window.windowSec ≠ none :=
        fun b hb => hall now hnow _ (budgets_lengths keys _ b hb)
      exact reserved_begins (x := ⟨messageOutId, grantId, keys, _, _, now⟩) hstart db
    · intro now hnow ledger keys
      exact checkWindows_begins fun c hc => hall now hnow _ (rateChecks_lengths keys _ c hc)
    · intro now hnow ledger
      exact checkWindows_begins fun c hc => hall now hnow _ (dailyChecks_lengths _ c hc)
    · intro windowSec hmem
      obtain ⟨hdouble, ht⟩ := lengths_begin env (h t (.inl rfl)) windowSec hmem
      exact same_iff hdouble ht (lengths_begin env (h t' (.inr rfl)) windowSec hmem).2
    · intro now hnow windowSec hmem
      obtain ⟨hdouble, hbegins⟩ := lengths_begin env (h now hnow) windowSec hmem
      exact own_window hdouble hbegins

end Quota

/-- With `ROSTER_DEPLOY_WINDOW_SEC=0` the check of any send throws. -/
theorem no_length_throws : ¬ ∀ env t t', WellDefined (resolveDeployQuota env) t t' := by
  intro h
  have hnot : ¬ Begins (resolveDeployQuota fun name =>
      if name = "ROSTER_DEPLOY_WINDOW_SEC" then some "0" else none).window.windowSec ⟨1728007200000, by decide⟩ := by
    decide +kernel
  exact (h _ ⟨1728007200000, by decide⟩ ⟨1728007200000, by decide⟩).rate _ (.inl rfl) [] ⟨"", "", "", ""⟩
    (checkRateKeys_throws _ hnot _)

end AgentDesk.Dated
