/-
# What housekeeping deletes from the ledger

`pruneRateLedger` deletes the rows of `dm_rate_ledger` that begin an hour ago or earlier, as
`toISOString` spells the two times, and leaves the markers of reservations alone. The two checks of
`src/db/dm-grants.ts` that only read the ledger, `checkRateKeys` and `checkDeployDailyCap`, count the
row of the window that a time is in, and such a row is forgotten when its window is longer than
that hour: the daily bucket from one in the morning on, and the bucket of the deployment when its
window is configured longer.

* `checkWindows_prune_iff`: a list of checks is none the wiser exactly when the first of them to
  refuse does not count a row that is deleted.
* `prune_invisible_iff`: **when housekeeping is invisible**, for any ledger and any quota.
-/
import AgentDesk.DmGrants

namespace AgentDesk

open Js

/-! ### The quota -/

/-- `parseInt(raw, 10)` of a trimmed text, where it is finite and not negative; a number that rounds to `Infinity` is
none. -/
def readRosterEnvInt (raw : Option String) : Option ℕ :=
  raw.bind fun raw =>
    let text := (trim raw).toList
    let negative := text.head? = some '-'
    let digits := (if negative ∨ text.head? = some '+' then text.tail else text).takeWhile Char.isDigit
    let n := digits.foldl (fun n c => n * 10 + (c.toNat - 48)) 0
    if digits = [] ∨ (negative ∧ n ≠ 0) then none else Binary64.wholeRound n

def readRosterEnvStr (raw : Option String) : Option String :=
  raw.bind fun raw => if trim raw = "" then none else some (trim raw)

/-- The quota of the deployment; `env` is the process environment, and `.env` behind it. -/
def resolveDeployQuota (env : String → Option String) : DeployQuotaConfig where
  key := (readRosterEnvStr (env "ROSTER_DEPLOY_KEY")).getD "global"
  window :=
    { windowSec := (readRosterEnvInt (env "ROSTER_DEPLOY_WINDOW_SEC")).getD defaultRateWindows.deploy.windowSec
      limit := (readRosterEnvInt (env "ROSTER_DEPLOY_WINDOW_CAP")).getD defaultRateWindows.deploy.limit }
  dailyCap := (readRosterEnvInt (env "ROSTER_DEPLOY_DAILY_CAP")).getD 0
  dailyWindowSec := 86400

/-- The windows a send is checked with. -/
def DeployQuotaConfig.rateWindows (quota : DeployQuotaConfig) : RateWindows :=
  { defaultRateWindows with deploy := quota.window }

/-! ### The checks -/

inductive RateCheckResult where
  | allowed
  | blocked (key : LedgerKey)
  deriving DecidableEq, Repr

/-- What a check counts, and against what. -/
structure RateCheck where
  key : LedgerKey
  window : RateWindow

/-- The first check that refuses; `none` is the `RangeError` of a window that begins at no time. -/
def checkWindows (ledger : List LedgerRow) (now : ℕ) : List RateCheck → Option RateCheckResult
  | [] => some .allowed
  | c :: cs => match windowStartIso now c.window.windowSec with
    | none => none
    | some ws =>
      if c.window.limit ≤ currentCount ledger c.key ws then some (.blocked c.key) else checkWindows ledger now cs

def rateChecks (keys : RateKeys) (windows : RateWindows) : List RateCheck :=
  [⟨.grant keys.grant, windows.grant⟩, ⟨.participant keys.participant, windows.participant⟩,
   ⟨.scope keys.scope, windows.scope⟩, ⟨.deploy keys.deploy, windows.deploy⟩]

/-- The cap is off at 0. -/
def dailyChecks (quota : DeployQuotaConfig) : List RateCheck :=
  if quota.dailyCap = 0 then [] else [⟨.deployDaily quota.key, ⟨quota.dailyWindowSec, quota.dailyCap⟩⟩]

def checkRateKeys (ledger : List LedgerRow) (keys : RateKeys) (windows : RateWindows) (now : ℕ) :
    Option RateCheckResult := checkWindows ledger now (rateChecks keys windows)

def RateLedger.checkDeployDailyCap (ledger : List LedgerRow) (quota : DeployQuotaConfig) (now : ℕ) :
    Option RateCheckResult :=
  checkWindows ledger now (dailyChecks quota)

/-! ### Housekeeping -/

/-- The first time that `toISOString` spells with a sign, which sorts before every digit. -/
def signedYears : ℕ := 253402300800000

/-- `<` on the texts of two times. -/
def isoBefore (a b : ℕ) : Bool :=
  if signedYears ≤ a ∧ b < signedYears then true
  else if a < signedYears ∧ signedYears ≤ b then false
  else a < b

/-- `key LIKE 'reserve:%'`, which ignores the case of ASCII letters. -/
def likeReserve (key : LedgerKey) : Bool := "reserve:".toList.isPrefixOf (key.text.toList.map Char.toLower)

def defaultKeepSec : ℕ := 3600

/-- Is the row one that the pass deletes? A cutoff before 1970 deletes what one at 1970 does. -/
def prunes (keepSec now : ℕ) (key : LedgerKey) (windowStart : ℕ) : Bool :=
  isoBefore windowStart (now - keepSec * 1000) && !likeReserve key

/-- The ledger after the pass, and how many rows it deleted. -/
def pruneRateLedger (ledger : List LedgerRow) (keepSec now : ℕ) : List LedgerRow × ℕ :=
  let kept := ledger.filter fun r => !prunes keepSec now r.key r.windowStart
  (kept, ledger.length - kept.length)

theorem likeReserve_eq (key : LedgerKey) : likeReserve key = !key.isRate := by
  cases key <;> simp [likeReserve, LedgerKey.text, LedgerKey.isRate, List.isPrefixOf]

theorem find_prune (ledger : List LedgerRow) (keepSec now : ℕ) (p : LedgerKey × ℕ) :
    Table.find LedgerRow.pk (pruneRateLedger ledger keepSec now).1 p =
      if prunes keepSec now p.1 p.2 then none else Table.find LedgerRow.pk ledger p := by
  unfold Table.find pruneRateLedger
  rw [List.find?_filter]
  split
  · rename_i hpruned
    refine List.find?_eq_none.mpr fun r _ hr => ?_
    simp only [decide_eq_true_eq] at hr
    obtain ⟨hkept, rfl⟩ := hr
    exact Bool.false_ne_true (((Bool.not_eq_true' _).mp hkept).symm.trans hpruned)
  · rename_i hkept
    congr 1
    funext r
    by_cases hr : r.pk = p
    · subst hr
      simpa [LedgerRow.pk] using hkept
    · simp [hr]

/-- **What is counted after the pass.** -/
theorem currentCount_prune (ledger : List LedgerRow) (keepSec now : ℕ) (key : LedgerKey) (ws : ℕ) :
    currentCount (pruneRateLedger ledger keepSec now).1 key ws =
      if prunes keepSec now key ws then 0 else currentCount ledger key ws := by
  rw [currentCount, find_prune]
  split <;> rfl

theorem hasRosterReservation_prune (ledger : List LedgerRow) (keepSec now : ℕ) (messageOutId : String) :
    hasRosterReservation (pruneRateLedger ledger keepSec now).1 messageOutId =
      hasRosterReservation ledger messageOutId := by
  have hkept : prunes keepSec now (.reserve messageOutId) reserveSentinelWindow = false := by
    simp [prunes, likeReserve_eq, LedgerKey.isRate]
  rw [hasRosterReservation, find_prune, hkept]
  rfl

/-! ### What is forgotten -/

/-- The check stops the call at `t`: it refuses, or it throws. -/
def RateCheck.Stops (ledger : List LedgerRow) (t : ℕ) (c : RateCheck) : Prop :=
  ∀ ws, windowStartIso t c.window.windowSec = some ws → c.window.limit ≤ currentCount ledger c.key ws

/-- The check refuses at `t` for a count that the pass at `now` deletes. -/
def RateCheck.Forgotten (ledger : List LedgerRow) (keepSec now t : ℕ) (c : RateCheck) : Prop :=
  ∃ ws, windowStartIso t c.window.windowSec = some ws ∧ prunes keepSec now c.key ws = true ∧
    0 < c.window.limit ∧ c.window.limit ≤ currentCount ledger c.key ws

/-- Whatever is forgotten, a check before it stops the call. -/
def KeepsRefusals (ledger : List LedgerRow) (keepSec now t : ℕ) (checks : List RateCheck) : Prop :=
  ∀ earlier c later, checks = earlier ++ c :: later → c.Forgotten ledger keepSec now t →
    ∃ e ∈ earlier, e.Stops ledger t

theorem keepsRefusals_cons {ledger : List LedgerRow} {keepSec now t : ℕ} {c : RateCheck} {cs : List RateCheck} :
    KeepsRefusals ledger keepSec now t (c :: cs) ↔ ¬ c.Forgotten ledger keepSec now t ∧
      (c.Stops ledger t ∨ KeepsRefusals ledger keepSec now t cs) := by
  constructor
  · intro h
    refine ⟨fun hc => ?_, ?_⟩
    · obtain ⟨e, he, -⟩ := h [] c cs rfl hc
      cases he
    · by_cases hstops : c.Stops ledger t
      · exact .inl hstops
      · refine .inr fun earlier d later heq hd => ?_
        obtain ⟨e, he, hes⟩ := h (c :: earlier) d later (by rw [heq]; rfl) hd
        rcases List.mem_cons.mp he with rfl | he
        · exact (hstops hes).elim
        · exact ⟨e, he, hes⟩
  · intro h earlier d later heq hd
    obtain ⟨hc, hrest⟩ := h
    cases earlier with
    | nil =>
      obtain ⟨rfl, -⟩ := List.cons.inj heq
      exact (hc hd).elim
    | cons e earlier =>
      obtain ⟨rfl, htail⟩ := List.cons.inj heq
      rcases hrest with hstops | hrest
      · exact ⟨c, List.mem_cons_self, hstops⟩
      · obtain ⟨e, he, hes⟩ := hrest earlier d later htail hd
        exact ⟨e, List.mem_cons_of_mem _ he, hes⟩

theorem checkWindows_blocked {ledger : List LedgerRow} {t : ℕ} {key : LedgerKey} {cs : List RateCheck}
    (h : checkWindows ledger t cs = some (.blocked key)) : key ∈ cs.map (·.key) := by
  induction cs with
  | nil => cases h
  | cons c cs ih =>
    rw [checkWindows] at h
    split at h
    · cases h
    · split at h
      · injection h with h
        injection h with h
        exact h ▸ List.mem_cons_self
      · exact List.mem_cons_of_mem _ (ih h)

/-- **Checks of distinct keys answer as before exactly when they keep their refusals.** -/
theorem checkWindows_prune_iff {ledger : List LedgerRow} {keepSec now t : ℕ} {cs : List RateCheck}
    (hkeys : (cs.map (·.key)).Nodup) :
    checkWindows (pruneRateLedger ledger keepSec now).1 t cs = checkWindows ledger t cs ↔
      KeepsRefusals ledger keepSec now t cs := by
  induction cs with
  | nil =>
    refine iff_of_true rfl fun earlier c later heq => ?_
    cases earlier <;> cases heq
  | cons c cs ih =>
    obtain ⟨hnew, hrest⟩ := List.nodup_cons.mp hkeys
    rw [keepsRefusals_cons, checkWindows, checkWindows]
    cases hws : windowStartIso t c.window.windowSec with
    | none =>
      refine iff_of_true rfl ⟨fun hc => ?_, .inl fun ws h => ?_⟩
      · obtain ⟨ws, h, -⟩ := hc
        rw [hws] at h
        cases h
      · rw [hws] at h
        cases h
    | some ws =>
      have hstops : c.Stops ledger t ↔ c.window.limit ≤ currentCount ledger c.key ws := by
        simp [RateCheck.Stops, hws]
      have hforgotten : c.Forgotten ledger keepSec now t ↔ prunes keepSec now c.key ws = true ∧
          0 < c.window.limit ∧ c.window.limit ≤ currentCount ledger c.key ws := by
        simp [RateCheck.Forgotten, hws]
      dsimp only
      rw [hstops, hforgotten, currentCount_prune]
      by_cases hfull : c.window.limit ≤ currentCount ledger c.key ws
      · rw [if_pos hfull]
        by_cases hlost : prunes keepSec now c.key ws = true ∧ 0 < c.window.limit
        · -- the refusal is gone, and no later check refuses under this key
          rw [if_pos hlost.1, if_neg (not_le.mpr hlost.2)]
          refine iff_of_false (fun h => ?_) fun h => h.1 ⟨hlost.1, hlost.2, hfull⟩
          exact hnew (checkWindows_blocked h)
        · have hstill : c.window.limit ≤
              if prunes keepSec now c.key ws = true then 0 else currentCount ledger c.key ws := by
            split
            · rename_i hpruned
              exact not_lt.mp fun hpos => hlost ⟨hpruned, hpos⟩
            · exact hfull
          rw [if_pos hstill]
          exact iff_of_true rfl ⟨fun h => hlost ⟨h.1, h.2.1⟩, .inl hfull⟩
      · have hstill : ¬ c.window.limit ≤
            if prunes keepSec now c.key ws = true then 0 else currentCount ledger c.key ws := by
          split
          · omega
          · exact hfull
        rw [if_neg hstill, if_neg hfull, ih hrest]
        simp [hfull]

/-! ### Invisible housekeeping -/

/-- The pass at `now` changes no verdict at `t`, and no marker. -/
structure PruneInvisible (ledger : List LedgerRow) (keys : RateKeys) (quota : DeployQuotaConfig) (now t : ℕ) :
    Prop where
  rate : checkRateKeys (pruneRateLedger ledger defaultKeepSec now).1 keys quota.rateWindows t =
    checkRateKeys ledger keys quota.rateWindows t
  daily : RateLedger.checkDeployDailyCap (pruneRateLedger ledger defaultKeepSec now).1 quota t =
    RateLedger.checkDeployDailyCap ledger quota t
  markers : ∀ messageOutId, hasRosterReservation (pruneRateLedger ledger defaultKeepSec now).1 messageOutId =
    hasRosterReservation ledger messageOutId

theorem rateChecks_keys (keys : RateKeys) (windows : RateWindows) : ((rateChecks keys windows).map (·.key)).Nodup := by
  simp [rateChecks]

theorem dailyChecks_keys (quota : DeployQuotaConfig) : ((dailyChecks quota).map (·.key)).Nodup := by
  unfold dailyChecks
  split <;> simp

theorem pruneInvisible_of_keeps {ledger : List LedgerRow} {keys : RateKeys} {quota : DeployQuotaConfig} {now t : ℕ}
    (hrate : KeepsRefusals ledger defaultKeepSec now t (rateChecks keys quota.rateWindows))
    (hdaily : KeepsRefusals ledger defaultKeepSec now t (dailyChecks quota)) :
    PruneInvisible ledger keys quota now t :=
  ⟨(checkWindows_prune_iff (rateChecks_keys keys _)).mpr hrate,
    (checkWindows_prune_iff (dailyChecks_keys quota)).mpr hdaily, hasRosterReservation_prune ledger defaultKeepSec now⟩

/-- **Housekeeping is invisible exactly when every refusal is kept**: those of the windows, and that of the day. -/
theorem prune_invisible_iff (ledger : List LedgerRow) (keys : RateKeys) (quota : DeployQuotaConfig) (now t : ℕ) :
    PruneInvisible ledger keys quota now t ↔
      KeepsRefusals ledger defaultKeepSec now t (rateChecks keys quota.rateWindows) ∧
      KeepsRefusals ledger defaultKeepSec now t (dailyChecks quota) := by
  constructor
  · intro h
    exact ⟨(checkWindows_prune_iff (rateChecks_keys keys _)).mp h.rate,
      (checkWindows_prune_iff (dailyChecks_keys quota)).mp h.daily⟩
  · intro h
    exact pruneInvisible_of_keeps h.1 h.2

/-- A cap of one message a day, used up: two hours into the day, the day may begin again. -/
theorem daily_cap_reset :
    ¬ ∀ ledger keys env now t, now ≤ t → PruneInvisible ledger keys (resolveDeployQuota env) now t := by
  intro h
  have hdaily := (h [⟨.deployDaily "global", 1728000000000, 1⟩] ⟨"g", "s", "p", "global"⟩
    (fun name => if name = "ROSTER_DEPLOY_DAILY_CAP" then some "1" else none) 1728007200000 1728007200000 le_rfl).daily
  revert hdaily
  decide +kernel

end AgentDesk
