/-
# Signing-proxy tokens

`src/db/gateway-proxy-token.ts` keeps the tokens that containers present to the
host's signing proxy: one is minted for a container's session, looked up by the
SHA-256 of the whole token, pinned to the address that uses it first, and revoked
when the container goes. All five functions are synchronous, so an interleaving
is a list of calls. What the random generator and the clock give, the string
presented and the address it comes from are the call's.

A column holds a time as ISO text, which `Date.parse` reads back; the rows keep
the milliseconds, and the text where it is compared as text (`purgeStaleProxyTokens`).
`allowed_paths` is the JSON of a list of strings, and the rows keep the list.

* `token_lifecycle`: over every list of calls, a session has at most one unrevoked
  token; and a string verifies only as a token that was minted for the session and
  the group it returns, since when nothing revoked that session's tokens, it has
  not expired, and it was neither verified from another address nor refused as
  revoked or expired.

Two strings of a run with one hash are excluded (`NoCollision`). Nothing is
assumed of the random generator: what it repeats, the table's keys refuse.
-/
import Mathlib.Data.List.Nodup
import Mathlib.Data.Set.Function
import AgentDesk.Calendar
import AgentDesk.Sha256
import AgentDesk.Table
import AgentDesk.Trans

namespace AgentDesk

open Trans

/-! ### Times as text -/

/-- `count` decimal digits of `n`. -/
def decimal : ℕ → ℕ → List Char
  | 0, _ => []
  | count + 1, n => decimal count (n / 10) ++ [Char.ofNat (48 + n % 10)]

/-- The largest distance of a date from 1970, in milliseconds. -/
def maxTime : ℤ := 8640000000000000

/-- `Date.prototype.toISOString`; a year of more than four digits has a sign and six. -/
def toISOString (ms : ℤ) : List Char :=
  let (year, month, day) := civilFromDays (ms / 86400000)
  let rest := (ms % 86400000).toNat
  let years :=
    if 0 ≤ year ∧ year ≤ 9999 then decimal 4 year.toNat
    else (if year < 0 then '-' else '+') :: decimal 6 year.natAbs
  years ++ '-' :: decimal 2 month ++ '-' :: decimal 2 day ++ 'T' :: decimal 2 (rest / 3600000) ++
    ':' :: decimal 2 (rest / 60000 % 60) ++ ':' :: decimal 2 (rest / 1000 % 60) ++
    '.' :: decimal 3 (rest % 1000) ++ ['Z']

example : toISOString 951827696789 = "2000-02-29T12:34:56.789Z".toList := by decide

example : toISOString (-62198755200001) = "-000002-12-31T23:59:59.999Z".toList := by decide

/-! ### The functions -/

structure MintProxyTokenArgs where
  sessionId : String
  agentGroupId : String
  allowedPaths : List String
  /-- A whole number: the configuration rounds it down. -/
  ttlMs : ℤ
  deriving DecidableEq, Repr

structure MintedProxyToken where
  jti : String
  token : String
  expiresAt : ℤ
  deriving DecidableEq, Repr

structure ProxyTokenRecord where
  jti : String
  sessionId : String
  agentGroupId : String
  allowedPaths : List String
  sourceIp : Option String
  expiresAt : ℤ
  deriving DecidableEq, Repr

inductive TokenRefusal where
  | unknown | expired | revoked | sourceIpMismatch
  deriving DecidableEq, Repr

inductive VerifyProxyTokenResult where
  | ok (record : ProxyTokenRecord)
  | refused (reason : TokenRefusal)
  deriving DecidableEq, Repr

/-- A row of `gateway_proxy_token`; `jti` and `tokenSha256` are unique. -/
structure TokenRow where
  jti : String
  tokenSha256 : List Char
  sessionId : String
  agentGroupId : String
  allowedPaths : List String
  sourceIp : Option String
  createdAt : ℤ
  expiresAt : ℤ
  revokedAt : Option ℤ
  deriving DecidableEq, Repr

def sha256 (value : String) : List Char := Sha256.hexDigest value.toList

def TokenRow.revoke (now : ℤ) (r : TokenRow) : TokenRow := { r with revokedAt := some now }

def TokenRow.pin (sourceIp : String) (r : TokenRow) : TokenRow := { r with sourceIp := some sourceIp }

/-- `UPDATE … SET revoked_at = now WHERE p AND revoked_at IS NULL`, and how many rows it changed. -/
def revokeLive (p : TokenRow → Bool) (now : ℤ) (rows : List TokenRow) : ℕ × List TokenRow :=
  (rows.countP fun r => p r && r.revokedAt.isNone,
    Table.updateWhere (fun r => p r && r.revokedAt.isNone) (TokenRow.revoke now) rows)

def revokeProxyTokensForSession (rows : List TokenRow) (sessionId : String) (now : ℤ) : ℕ × List TokenRow :=
  revokeLive (fun r => r.sessionId = sessionId) now rows

def revokeAllProxyTokens (rows : List TokenRow) (now : ℤ) : ℕ × List TokenRow :=
  revokeLive (fun _ => true) now rows

/-- The row that a mint inserts. -/
def mintedRow (args : MintProxyTokenArgs) (now : ℤ) (minted : MintedProxyToken) : TokenRow where
  jti := minted.jti
  tokenSha256 := sha256 minted.token
  sessionId := args.sessionId
  agentGroupId := args.agentGroupId
  allowedPaths := args.allowedPaths
  sourceIp := none
  createdAt := now
  expiresAt := minted.expiresAt
  revokedAt := none

/-- `none` where it throws, and the transaction with it: the expiry is no date, or a key is taken. -/
def mintProxyToken (rows : List TokenRow) (args : MintProxyTokenArgs) (now : ℤ) (jti secret : String) :
    Option (MintedProxyToken × List TokenRow) :=
  let token := jti ++ "." ++ secret
  let expiresAt := now + args.ttlMs
  let minted : MintedProxyToken := ⟨jti, token, expiresAt⟩
  if maxTime < expiresAt.natAbs then none
  else if rows.any fun r => r.jti = jti || r.tokenSha256 = sha256 token then none
  else
    let (_, revoked) := revokeProxyTokensForSession rows args.sessionId now
    some (minted, revoked ++ [mintedRow args now minted])

/-- `ALL_GATEWAY_PATHS`: the paths that read and those that write. -/
def readPaths : List String := ["/describe", "/authorize", "/task/status", "/memory/get", "/memory/search"]

def writePaths : List String := ["/execute", "/bulk_execute", "/memory/upsert", "/memory/feedback"]

def allGatewayPaths : List String := readPaths ++ writePaths

/-- What a spawn mints: every path, for the configured time. -/
def mintSessionProxyToken (rows : List TokenRow) (sessionId agentGroupId : String) (ttlMs now : ℤ)
    (jti secret : String) : Option (MintedProxyToken × List TokenRow) :=
  mintProxyToken rows ⟨sessionId, agentGroupId, allGatewayPaths, ttlMs⟩ now jti secret

def verifyProxyToken (rows : List TokenRow) (rawToken sourceIp : String) (now : ℤ) :
    VerifyProxyTokenResult × List TokenRow :=
  match Table.find TokenRow.tokenSha256 rows (sha256 rawToken) with
  | none => (.refused .unknown, rows)
  | some row =>
    if row.revokedAt.isSome then (.refused .revoked, rows)
    else if row.expiresAt ≤ now then (.refused .expired, rows)
    else
      let record (pinnedIp : String) : ProxyTokenRecord :=
        ⟨row.jti, row.sessionId, row.agentGroupId, row.allowedPaths, some pinnedIp, row.expiresAt⟩
      match row.sourceIp with
      | none =>
        (.ok (record sourceIp),
          Table.updateWhere (fun r => r.jti = row.jti && r.sourceIp.isNone) (TokenRow.pin sourceIp) rows)
      | some pinnedIp =>
        if pinnedIp ≠ sourceIp then (.refused .sourceIpMismatch, rows) else (.ok (record pinnedIp), rows)

/-- The expiry is compared as text. -/
def purgeStaleProxyTokens (rows : List TokenRow) (olderThanMs now : ℤ) : ℕ × List TokenRow :=
  let cutoff := toISOString (now - olderThanMs)
  (rows.countP fun r => toISOString r.expiresAt < cutoff,
    rows.filter fun r => !decide (toISOString r.expiresAt < cutoff))

/-! ### Runs -/

inductive TokenCall where
  | mint (args : MintProxyTokenArgs) (now : ℤ) (jti secret : String)
  | verify (rawToken sourceIp : String) (now : ℤ)
  | revokeForSession (sessionId : String) (now : ℤ)
  | revokeAll (now : ℤ)
  | purge (olderThanMs now : ℤ)
  deriving DecidableEq, Repr

/-- What a call did. -/
inductive TokenEntry where
  | minted (args : MintProxyTokenArgs) (now : ℤ) (minted : MintedProxyToken)
  | verified (rawToken sourceIp : String) (now : ℤ) (result : VerifyProxyTokenResult)
  | revokedForSession (sessionId : String)
  | revokedAll
  deriving DecidableEq, Repr

/-- The table, and what was done to it, the latest first. -/
structure TokenStore where
  rows : List TokenRow
  log : List TokenEntry

def TokenStore.empty : TokenStore := ⟨[], []⟩

/-- A call that throws changes nothing. -/
def tokenStep (s : TokenStore) : TokenCall → Option TokenStore
  | .mint args now jti secret => match mintProxyToken s.rows args now jti secret with
    | none => some s
    | some (minted, rows) => some ⟨rows, .minted args now minted :: s.log⟩
  | .verify rawToken sourceIp now =>
    let (result, rows) := verifyProxyToken s.rows rawToken sourceIp now
    some ⟨rows, .verified rawToken sourceIp now result :: s.log⟩
  | .revokeForSession sessionId now =>
    some ⟨(revokeProxyTokensForSession s.rows sessionId now).2, .revokedForSession sessionId :: s.log⟩
  | .revokeAll now => some ⟨(revokeAllProxyTokens s.rows now).2, .revokedAll :: s.log⟩
  | .purge olderThanMs now => some { s with rows := (purgeStaleProxyTokens s.rows olderThanMs now).2 }

/-! ### What the log says of a token -/

/-- The entry takes away the unrevoked token of the session. -/
def TokenEntry.revokes (sessionId : String) : TokenEntry → Prop
  | .minted args _ _ => args.sessionId = sessionId
  | .verified .. => False
  | .revokedForSession s => s = sessionId
  | .revokedAll => True

/-- A token minted with `args` verifies from `sourceIp` at `now`, and answers with `record`; `since` is
what was done since it was minted. -/
structure Verifies (args : MintProxyTokenArgs) (minted : MintedProxyToken) (sourceIp : String) (now : ℤ)
    (record : ProxyTokenRecord) (since : List TokenEntry) : Prop where
  record_eq : record =
    ⟨minted.jti, args.sessionId, args.agentGroupId, args.allowedPaths, some sourceIp, minted.expiresAt⟩
  unexpired : now < minted.expiresAt
  unrevoked : ∀ e ∈ since, ¬ e.revokes args.sessionId
  oneAddress : ∀ ip t r, .verified minted.token ip t (.ok r) ∈ since → ip = sourceIp
  neverRefused : ∀ ip t reason, .verified minted.token ip t (.refused reason) ∈ since →
    reason = .revoked ∨ reason = .expired → now < t
  lastMinted : ∀ a t m, .minted a t m ∈ since → m.token ≠ minted.token

/-- The life of the tokens: of a session's at most one is unrevoked; each success is a minted token's. -/
structure TokenLifecycle (s : TokenStore) : Prop where
  one_live : ∀ sessionId,
    (s.rows.filter fun r => r.sessionId = sessionId && r.revokedAt.isNone).length ≤ 1
  verified : ∀ newer rawToken sourceIp now record older,
    s.log = newer ++ .verified rawToken sourceIp now (.ok record) :: older →
    ∃ since args mintedAt minted before, older = since ++ .minted args mintedAt minted :: before ∧
      minted.token = rawToken ∧ Verifies args minted sourceIp now record since

/-- The strings a call mints or presents. -/
def TokenCall.tokens : TokenCall → List String
  | .mint _ _ jti secret => [jti ++ "." ++ secret]
  | .verify rawToken _ _ => [rawToken]
  | _ => []

/-- No two strings of the run have one hash. -/
def NoCollision (calls : List TokenCall) : Prop :=
  Set.InjOn sha256 {x | ∃ c ∈ calls, x ∈ c.tokens}

/-! ### Rows and log -/

/-- The row of a token minted with `args`, when `since` was done since. -/
structure RowSince (r : TokenRow) (args : MintProxyTokenArgs) (mintedAt : ℤ) (minted : MintedProxyToken)
    (since : List TokenEntry) : Prop where
  row_eq : r = { mintedRow args mintedAt minted with sourceIp := r.sourceIp, revokedAt := r.revokedAt }
  unrevoked : r.revokedAt = none → ∀ e ∈ since, ¬ e.revokes args.sessionId
  pinned : ∀ ip t record, .verified minted.token ip t (.ok record) ∈ since → r.sourceIp = some ip
  refused : ∀ ip t reason, .verified minted.token ip t (.refused reason) ∈ since →
    reason = .revoked ∨ reason = .expired → r.revokedAt ≠ none ∨ minted.expiresAt ≤ t
  lastMinted : ∀ a t m, .minted a t m ∈ since → m.token ≠ minted.token

variable {r r' : TokenRow} {args : MintProxyTokenArgs} {mintedAt : ℤ} {minted : MintedProxyToken}
  {since : List TokenEntry} {e : TokenEntry}

theorem RowSince.hash (h : RowSince r args mintedAt minted since) : r.tokenSha256 = sha256 minted.token := by
  rw [h.row_eq]
  rfl

theorem RowSince.session (h : RowSince r args mintedAt minted since) : r.sessionId = args.sessionId := by
  rw [h.row_eq]
  rfl

theorem RowSince.expiry (h : RowSince r args mintedAt minted since) : r.expiresAt = minted.expiresAt := by
  rw [h.row_eq]
  rfl

theorem rowSince_minted : RowSince (mintedRow args mintedAt minted) args mintedAt minted [] where
  row_eq := rfl
  unrevoked := by simp
  pinned := by simp
  refused := by simp
  lastMinted := by simp

/-- What one more entry asks of the row: it is revoked where the entry revokes, it is pinned where the
entry is a success of its token, and it is dead where the entry says so. -/
theorem RowSince.next (h : RowSince r args mintedAt minted since)
    (hrow : r' = { r with sourceIp := r'.sourceIp, revokedAt := r'.revokedAt })
    (hlive : r'.revokedAt = none → r.revokedAt = none ∧ ¬ e.revokes args.sessionId)
    (hpin : ∀ ip, r.sourceIp = some ip → r'.sourceIp = some ip)
    (hok : ∀ ip t record, e = .verified minted.token ip t (.ok record) → r'.sourceIp = some ip)
    (hrefused : ∀ ip t reason, e = .verified minted.token ip t (.refused reason) →
      reason = .revoked ∨ reason = .expired → r'.revokedAt ≠ none ∨ minted.expiresAt ≤ t)
    (hfresh : ∀ a t m, e = .minted a t m → m.token ≠ minted.token) :
    RowSince r' args mintedAt minted (e :: since) where
  row_eq := by
    rw [hrow, h.row_eq]
  unrevoked := by
    intro hnone e' he'
    have hr := hlive hnone
    rcases List.mem_cons.mp he' with rfl | he'
    · exact hr.2
    · exact h.unrevoked hr.1 e' he'
  pinned := by
    intro ip t record hmem
    rcases List.mem_cons.mp hmem with hmem | hmem
    · exact hok ip t record hmem.symm
    · exact hpin ip (h.pinned ip t record hmem)
  refused := by
    intro ip t reason hmem hreason
    rcases List.mem_cons.mp hmem with hmem | hmem
    · exact hrefused ip t reason hmem.symm hreason
    · rcases h.refused ip t reason hmem hreason with hrevoked | hexpired
      · exact .inl fun hnone => hrevoked (hlive hnone).1
      · exact .inr hexpired
  lastMinted := by
    intro a t m hmem
    rcases List.mem_cons.mp hmem with hmem | hmem
    · exact hfresh a t m hmem.symm
    · exact h.lastMinted a t m hmem

/-- The keys are unique, a session has one unrevoked row, every row is that of a minted token, and the
log is right so far; `T` are the strings of the run. -/
structure TokenStore.Inv (T : Set String) (s : TokenStore) : Prop where
  jtis : (s.rows.map (·.jti)).Nodup
  hashes : (s.rows.map (·.tokenSha256)).Nodup
  one_live : ∀ r ∈ s.rows, ∀ r' ∈ s.rows, r.sessionId = r'.sessionId → r.revokedAt = none →
    r'.revokedAt = none → r = r'
  rows : ∀ r ∈ s.rows, ∃ since args mintedAt minted before,
    s.log = since ++ .minted args mintedAt minted :: before ∧ minted.token ∈ T ∧
    RowSince r args mintedAt minted since
  verified : ∀ newer rawToken sourceIp now record older,
    s.log = newer ++ .verified rawToken sourceIp now (.ok record) :: older →
    ∃ since args mintedAt minted before, older = since ++ .minted args mintedAt minted :: before ∧
      minted.token = rawToken ∧ Verifies args minted sourceIp now record since

/-! ### What each call does -/

theorem mem_revokeLive {p : TokenRow → Bool} {now : ℤ} {rows : List TokenRow}
    (h : r' ∈ (revokeLive p now rows).2) : ∃ r ∈ rows, (r' = r ∨ r' = r.revoke now) ∧
      (r'.revokedAt = none → r' = r ∧ p r = false) := by
  obtain ⟨r, hr, rfl⟩ := List.mem_map.mp h
  refine ⟨r, hr, ?_⟩
  by_cases hp : p r = true ∧ r.revokedAt = none
  · have hcond : (p r && r.revokedAt.isNone) = true := by simp [hp]
    rw [if_pos hcond]
    exact ⟨.inr rfl, fun hnone => by simp [TokenRow.revoke] at hnone⟩
  · have hcond : ¬ (p r && r.revokedAt.isNone) = true := by simpa using hp
    rw [if_neg hcond]
    refine ⟨.inl rfl, fun hnone => ⟨rfl, ?_⟩⟩
    by_contra hne
    exact hp ⟨by simpa using hne, hnone⟩

theorem live_revokeLive {p : TokenRow → Bool} {now : ℤ} {rows : List TokenRow}
    (h : r ∈ (revokeLive p now rows).2) (hlive : r.revokedAt = none) : r ∈ rows ∧ p r = false := by
  obtain ⟨r', hr', -, hsame⟩ := mem_revokeLive h
  obtain ⟨rfl, hp⟩ := hsame hlive
  exact ⟨hr', hp⟩

theorem revokeLive_keeps {rows : List TokenRow} (hr : r ∈ rows) (p : TokenRow → Bool) (now : ℤ) :
    ∃ r' ∈ (revokeLive p now rows).2, r'.jti = r.jti ∧ r'.sessionId = r.sessionId ∧
      (p r = true ∨ r.revokedAt ≠ none → r'.revokedAt ≠ none) ∧ (p r = false → r' = r) := by
  refine ⟨_, List.mem_map.mpr ⟨r, hr, rfl⟩, ?_⟩
  by_cases hp : (p r && r.revokedAt.isNone) = true
  · rw [if_pos hp]
    rw [Bool.and_eq_true] at hp
    exact ⟨rfl, rfl, fun _ => by simp [TokenRow.revoke], fun hno => absurd hp.1 (by simp [hno])⟩
  · rw [if_neg hp]
    refine ⟨rfl, rfl, fun h hnone => hp ?_, fun _ => rfl⟩
    rcases h with h | h
    · simp [h, hnone]
    · exact absurd hnone h

theorem map_revokeLive {α : Type} {g : TokenRow → α} {now : ℤ} (hg : ∀ r, g (TokenRow.revoke now r) = g r)
    (p : TokenRow → Bool) (rows : List TokenRow) : (revokeLive p now rows).2.map g = rows.map g :=
  Table.map_updateWhere hg rows

theorem mintProxyToken_spec {rows rows' : List TokenRow} {now : ℤ} {jti secret : String}
    (h : mintProxyToken rows args now jti secret = some (minted, rows')) :
    minted.token = jti ++ "." ++ secret ∧
    (∀ r ∈ rows, r.jti ≠ minted.jti ∧ r.tokenSha256 ≠ sha256 minted.token) ∧
    rows' = (revokeProxyTokensForSession rows args.sessionId now).2 ++ [mintedRow args now minted] := by
  unfold mintProxyToken at h
  dsimp only at h
  split at h
  · cases h
  · split at h
    · cases h
    · rename_i hkeys
      obtain ⟨rfl, rfl⟩ : _ ∧ _ := by simpa using h
      refine ⟨rfl, fun r hr => ?_, rfl⟩
      have hr' : ¬ (r.jti = jti ∨ r.tokenSha256 = sha256 (jti ++ "." ++ secret)) := by
        intro hor
        apply hkeys
        rw [List.any_eq_true]
        exact ⟨r, hr, by simpa using hor⟩
      exact not_or.mp hr'

theorem nodup_minted {α : Type} {g : TokenRow → α} {now : ℤ} (hg : ∀ r, g (TokenRow.revoke now r) = g r)
    {rows : List TokenRow} {new : TokenRow} {sessionId : String} (hrows : (rows.map g).Nodup)
    (hnew : ∀ r ∈ rows, g r ≠ g new) :
    (((revokeProxyTokensForSession rows sessionId now).2 ++ [new]).map g).Nodup := by
  have hkeys : (revokeProxyTokensForSession rows sessionId now).2.map g = rows.map g := map_revokeLive hg _ _
  rw [List.map_append, List.map_singleton, List.nodup_append, hkeys]
  refine ⟨hrows, by simp, fun a ha b hb hab => ?_⟩
  obtain ⟨r, hr, rfl⟩ := List.mem_map.mp ha
  rw [List.mem_singleton.mp hb] at hab
  exact hnew r hr hab

theorem mintProxyToken_jtis {rows rows' : List TokenRow} {now : ℤ} {jti secret : String}
    (h : mintProxyToken rows args now jti secret = some (minted, rows')) (hrows : (rows.map (·.jti)).Nodup) :
    (rows'.map (·.jti)).Nodup := by
  obtain ⟨-, hnew, rfl⟩ := mintProxyToken_spec h
  exact nodup_minted (fun _ => rfl) hrows fun r hr => (hnew r hr).1

/-- Everything a verification can do. -/
inductive VerifyMove (rows : List TokenRow) (rawToken sourceIp : String) (now : ℤ) :
    VerifyProxyTokenResult × List TokenRow → Prop
  | unknown (hnone : ∀ r ∈ rows, r.tokenSha256 ≠ sha256 rawToken) :
      VerifyMove rows rawToken sourceIp now (.refused .unknown, rows)
  | revoked {row : TokenRow} (hmem : row ∈ rows) (hhash : row.tokenSha256 = sha256 rawToken)
      (hrevoked : row.revokedAt ≠ none) : VerifyMove rows rawToken sourceIp now (.refused .revoked, rows)
  | expired {row : TokenRow} (hmem : row ∈ rows) (hhash : row.tokenSha256 = sha256 rawToken)
      (hexpired : row.expiresAt ≤ now) : VerifyMove rows rawToken sourceIp now (.refused .expired, rows)
  | mismatch : VerifyMove rows rawToken sourceIp now (.refused .sourceIpMismatch, rows)
  | ok {row : TokenRow} {rows' : List TokenRow} (hmem : row ∈ rows) (hhash : row.tokenSha256 = sha256 rawToken)
      (hlive : row.revokedAt = none) (hunexpired : now < row.expiresAt)
      (hpin : row.sourceIp = none ∧ rows' = Table.updateWhere
          (fun r => r.jti = row.jti && r.sourceIp.isNone) (TokenRow.pin sourceIp) rows ∨
        row.sourceIp = some sourceIp ∧ rows' = rows) :
      VerifyMove rows rawToken sourceIp now
        (.ok ⟨row.jti, row.sessionId, row.agentGroupId, row.allowedPaths, some sourceIp, row.expiresAt⟩, rows')

theorem verifyProxyToken_cases (rows : List TokenRow) (rawToken sourceIp : String) (now : ℤ) :
    VerifyMove rows rawToken sourceIp now (verifyProxyToken rows rawToken sourceIp now) := by
  unfold verifyProxyToken
  split
  · rename_i hnone
    exact .unknown (Table.find_none hnone)
  · rename_i row hrow
    obtain ⟨hmem, hhash⟩ := Table.find_spec hrow
    by_cases hrevoked : row.revokedAt = none
    · rw [if_neg (by simp [hrevoked])]
      by_cases hexpired : row.expiresAt ≤ now
      · rw [if_pos hexpired]
        exact .expired hmem hhash hexpired
      · rw [if_neg hexpired]
        have hunexpired : now < row.expiresAt := by omega
        cases hpin : row.sourceIp with
        | none => exact .ok hmem hhash hrevoked hunexpired (.inl ⟨hpin, rfl⟩)
        | some pinnedIp =>
          dsimp only
          by_cases hip : pinnedIp = sourceIp
          · rw [if_neg (not_not.mpr hip), hip]
            exact .ok hmem hhash hrevoked hunexpired (.inr ⟨hip ▸ hpin, rfl⟩)
          · rw [if_pos hip]
            exact .mismatch
    · rw [if_pos (by simpa [Option.isSome_iff_ne_none] using hrevoked)]
      exact .revoked hmem hhash hrevoked

theorem pinned_rows {rows rows' : List TokenRow} {row : TokenRow} {sourceIp : String}
    (hpin : row.sourceIp = none ∧ rows' = Table.updateWhere
        (fun r => r.jti = row.jti && r.sourceIp.isNone) (TokenRow.pin sourceIp) rows ∨
      row.sourceIp = some sourceIp ∧ rows' = rows) :
    ∃ f : TokenRow → TokenRow, rows' = rows.map f ∧ (∀ r, f r = { r with sourceIp := (f r).sourceIp }) ∧
      (∀ r ip, r.sourceIp = some ip → (f r).sourceIp = some ip) ∧ (f row).sourceIp = some sourceIp := by
  rcases hpin with ⟨hnone, rfl⟩ | ⟨hsome, rfl⟩
  · refine ⟨_, rfl, fun r => ?_, fun r ip hip => ?_, ?_⟩
    · split <;> rfl
    · rw [if_neg (by simp [hip])]
      exact hip
    · rw [if_pos (by simp [hnone])]
      rfl
  · exact ⟨id, by rw [List.map_id], fun _ => rfl, fun _ _ h => h, hsome⟩

/-! ### The invariant -/

variable {T : Set String} {s s' : TokenStore}

theorem TokenStore.inv_empty : TokenStore.empty.Inv T where
  jtis := List.nodup_nil
  hashes := List.nodup_nil
  one_live := by simp [TokenStore.empty]
  rows := by simp [TokenStore.empty]
  verified := by simp [TokenStore.empty]

theorem verified_cons {log : List TokenEntry} (hquiet : ∀ raw ip t r, e ≠ .verified raw ip t (.ok r))
    {P : String → String → ℤ → ProxyTokenRecord → List TokenEntry → Prop}
    (h : ∀ newer raw ip t r older, log = newer ++ .verified raw ip t (.ok r) :: older → P raw ip t r older)
    (newer : List TokenEntry) (raw ip : String) (t : ℤ) (r : ProxyTokenRecord) (older : List TokenEntry)
    (hlog : e :: log = newer ++ .verified raw ip t (.ok r) :: older) : P raw ip t r older := by
  cases newer with
  | nil => exact absurd (List.cons.inj hlog).1 (hquiet raw ip t r)
  | cons x newer => exact h newer raw ip t r older (List.cons.inj hlog).2

theorem RowSince.afterRevoke {now : ℤ} (h : RowSince r args mintedAt minted since)
    (hr' : r' = r ∨ r' = r.revoke now) (hlive : r'.revokedAt = none → r' = r ∧ ¬ e.revokes args.sessionId)
    (hquiet : ∀ raw ip t result, e ≠ .verified raw ip t result)
    (hfresh : ∀ a t m, e = .minted a t m → m.token ≠ minted.token) :
    RowSince r' args mintedAt minted (e :: since) := by
  have hrow : r' = { r with sourceIp := r'.sourceIp, revokedAt := r'.revokedAt } := by
    rcases hr' with rfl | rfl <;> rfl
  have hpin : r'.sourceIp = r.sourceIp := by
    rcases hr' with rfl | rfl <;> rfl
  refine h.next hrow ?_ ?_ ?_ ?_ hfresh
  · intro hnone
    obtain ⟨heq, hrevokes⟩ := hlive hnone
    exact ⟨heq ▸ hnone, hrevokes⟩
  · intro ip hip
    rw [hpin, hip]
  · intro ip t record he
    exact absurd he (hquiet _ _ _ _)
  · intro ip t reason he
    exact absurd he (hquiet _ _ _ _)

theorem TokenStore.Inv.rows_next (hs : s.Inv T) (hr : r ∈ s.rows)
    (hnext : ∀ args mintedAt minted since, RowSince r args mintedAt minted since →
      RowSince r' args mintedAt minted (e :: since)) :
    ∃ since args mintedAt minted before, e :: s.log = since ++ .minted args mintedAt minted :: before ∧
      minted.token ∈ T ∧ RowSince r' args mintedAt minted since := by
  obtain ⟨since, args, mintedAt, minted, before, hlog, hT, hrow⟩ := hs.rows r hr
  have hlog' : e :: s.log = e :: since ++ .minted args mintedAt minted :: before := by
    rw [hlog, List.cons_append]
  exact ⟨e :: since, args, mintedAt, minted, before, hlog', hT, hnext args mintedAt minted since hrow⟩

theorem TokenStore.Inv.revoke (hs : s.Inv T) {p : TokenRow → Bool} (now : ℤ)
    (hcovers : ∀ r : TokenRow, p r = false → ¬ e.revokes r.sessionId)
    (hquiet : ∀ raw ip t result, e ≠ .verified raw ip t result) (hmint : ∀ a t m, e ≠ .minted a t m) :
    TokenStore.Inv T ⟨(revokeLive p now s.rows).2, e :: s.log⟩ where
  jtis := by
    rw [map_revokeLive fun _ => rfl]
    exact hs.jtis
  hashes := by
    rw [map_revokeLive fun _ => rfl]
    exact hs.hashes
  one_live := by
    intro r₁ h₁ r₂ h₂ hsession hlive₁ hlive₂
    have hr₁ := (live_revokeLive h₁ hlive₁).1
    have hr₂ := (live_revokeLive h₂ hlive₂).1
    exact hs.one_live r₁ hr₁ r₂ hr₂ hsession hlive₁ hlive₂
  rows := by
    intro r' hr'
    obtain ⟨r, hr, hor, hlive⟩ := mem_revokeLive hr'
    apply hs.rows_next hr
    intro args mintedAt minted since hrow
    refine hrow.afterRevoke hor (fun hnone => ?_) hquiet fun a t m he => absurd he (hmint a t m)
    obtain ⟨heq, hp⟩ := hlive hnone
    exact ⟨heq, hrow.session ▸ hcovers r hp⟩
  verified := verified_cons (fun raw ip t r => hquiet raw ip t (.ok r)) hs.verified

theorem TokenStore.Inv.mint (hs : s.Inv T) {now : ℤ} {jti secret : String} {rows' : List TokenRow}
    (h : mintProxyToken s.rows args now jti secret = some (minted, rows')) (hT : jti ++ "." ++ secret ∈ T) :
    TokenStore.Inv T ⟨rows', .minted args now minted :: s.log⟩ := by
  have hjtis := mintProxyToken_jtis h hs.jtis
  obtain ⟨htoken, hnew, rfl⟩ := mintProxyToken_spec h
  -- a row that stays unrevoked is not the minting session's
  have hold : ∀ {r : TokenRow}, r ∈ (revokeProxyTokensForSession s.rows args.sessionId now).2 →
      r.revokedAt = none → r ∈ s.rows ∧ r.sessionId ≠ args.sessionId := by
    intro r hr hlive
    obtain ⟨hmem, hp⟩ := live_revokeLive hr hlive
    exact ⟨hmem, of_decide_eq_false hp⟩
  constructor
  · exact hjtis
  · exact nodup_minted (fun _ => rfl) hs.hashes fun r hr => (hnew r hr).2
  · intro r₁ h₁ r₂ h₂ hsession hlive₁ hlive₂
    rw [List.mem_append, List.mem_singleton] at h₁ h₂
    rcases h₁ with h₁ | rfl <;> rcases h₂ with h₂ | rfl
    · exact hs.one_live r₁ (hold h₁ hlive₁).1 r₂ (hold h₂ hlive₂).1 hsession hlive₁ hlive₂
    · exact absurd hsession (hold h₁ hlive₁).2
    · exact absurd hsession.symm (hold h₂ hlive₂).2
    · rfl
  · intro r' hr'
    rw [List.mem_append, List.mem_singleton] at hr'
    rcases hr' with hr' | rfl
    · obtain ⟨r, hr, hor, hlive⟩ := mem_revokeLive hr'
      apply hs.rows_next hr
      intro args' mintedAt minted' since hrow
      refine hrow.afterRevoke hor (fun hnone => ?_) (by simp) ?_
      · obtain ⟨heq, hp⟩ := hlive hnone
        have hne : r.sessionId ≠ args.sessionId := of_decide_eq_false hp
        exact ⟨heq, fun hrevokes => hne (hrow.session.trans hrevokes.symm)⟩
      · intro a t m he
        obtain ⟨rfl, rfl, rfl⟩ := TokenEntry.minted.inj he
        have hhash := (hnew r hr).2
        rw [hrow.hash] at hhash
        exact fun htoken => hhash (congrArg sha256 htoken.symm)
    · exact ⟨[], args, now, minted, s.log, rfl, htoken ▸ hT, rowSince_minted⟩
  · exact verified_cons (by simp) hs.verified

theorem TokenStore.Inv.success (hs : s.Inv T) (hT : Set.InjOn sha256 T) {rawToken sourceIp : String} {now : ℤ}
    {row : TokenRow} {rows' : List TokenRow} (hraw : rawToken ∈ T) (hmem : row ∈ s.rows)
    (hhash : row.tokenSha256 = sha256 rawToken) (hlive : row.revokedAt = none) (hunexpired : now < row.expiresAt)
    (hpin : row.sourceIp = none ∧ rows' = Table.updateWhere
        (fun r => r.jti = row.jti && r.sourceIp.isNone) (TokenRow.pin sourceIp) s.rows ∨
      row.sourceIp = some sourceIp ∧ rows' = s.rows) :
    TokenStore.Inv T ⟨rows', .verified rawToken sourceIp now
      (.ok ⟨row.jti, row.sessionId, row.agentGroupId, row.allowedPaths, some sourceIp, row.expiresAt⟩) ::
        s.log⟩ := by
  have hold : ∀ ip, row.sourceIp = some ip → ip = sourceIp := by
    intro ip hip
    rcases hpin with ⟨hnone, -⟩ | ⟨hsome, -⟩
    · rw [hnone] at hip
      cases hip
    · exact Option.some.inj (hip.symm.trans hsome)
  obtain ⟨f, rfl, hf, hkeep, hnew⟩ := pinned_rows hpin
  have hjti : ∀ r, (f r).jti = r.jti := fun r => by rw [hf r]
  have htoken : ∀ r, (f r).tokenSha256 = r.tokenSha256 := fun r => by rw [hf r]
  have hsession : ∀ r, (f r).sessionId = r.sessionId := fun r => by rw [hf r]
  have hrevoked : ∀ r, (f r).revokedAt = r.revokedAt := fun r => by rw [hf r]
  constructor
  · have hmap : (s.rows.map f).map (·.jti) = s.rows.map (·.jti) := by simp [hjti]
    rw [hmap]
    exact hs.jtis
  · have hmap : (s.rows.map f).map (·.tokenSha256) = s.rows.map (·.tokenSha256) := by simp [htoken]
    rw [hmap]
    exact hs.hashes
  · intro r₁ h₁ r₂ h₂ hsame hlive₁ hlive₂
    obtain ⟨r₁, hr₁, rfl⟩ := List.mem_map.mp h₁
    obtain ⟨r₂, hr₂, rfl⟩ := List.mem_map.mp h₂
    rw [hsession, hsession] at hsame
    rw [hrevoked] at hlive₁ hlive₂
    rw [hs.one_live r₁ hr₁ r₂ hr₂ hsame hlive₁ hlive₂]
  · intro r' hr'
    obtain ⟨r, hr, rfl⟩ := List.mem_map.mp hr'
    apply hs.rows_next hr
    intro args mintedAt minted since hrow
    have hrow' : f r = { r with sourceIp := (f r).sourceIp, revokedAt := (f r).revokedAt } := by
      rw [hrevoked]
      exact hf r
    refine hrow.next hrow' (fun hnone => ⟨hrevoked r ▸ hnone, id⟩) (hkeep r) ?_ (by simp) (by simp)
    intro ip t record he
    obtain ⟨hraw', rfl, -, -⟩ := TokenEntry.verified.inj he
    -- the entry's token is this row's
    have hsame : r.tokenSha256 = row.tokenSha256 := by
      rw [hrow.hash, hhash, hraw']
    rw [List.inj_on_of_nodup_map hs.hashes hr hmem hsame]
    exact hnew
  · intro newer raw ip t record older hlog
    cases newer with
    | cons x newer => exact hs.verified newer raw ip t record older (List.cons.inj hlog).2
    | nil =>
      obtain ⟨he, rfl⟩ := List.cons.inj hlog
      obtain ⟨rfl, rfl, rfl, hrecord⟩ := TokenEntry.verified.inj he
      obtain ⟨since, args, mintedAt, minted, before, hlog, hT', hrow⟩ := hs.rows row hmem
      have htoken : minted.token = rawToken := hT hT' hraw (hrow.hash.symm.trans hhash)
      refine ⟨since, args, mintedAt, minted, before, hlog, htoken, ?_⟩
      constructor
      · rw [← VerifyProxyTokenResult.ok.inj hrecord, hrow.row_eq]
        rfl
      · rw [← hrow.expiry]
        exact hunexpired
      · exact hrow.unrevoked hlive
      · intro ip' t' r' hmem'
        exact hold ip' (hrow.pinned ip' t' r' hmem')
      · intro ip' t' reason hmem' hreason
        rcases hrow.refused ip' t' reason hmem' hreason with hgone | hexpired
        · exact absurd hlive hgone
        · rw [hrow.expiry] at hunexpired
          omega
      · exact hrow.lastMinted

theorem TokenStore.Inv.verify (hs : s.Inv T) (hT : Set.InjOn sha256 T) {rawToken sourceIp : String} {now : ℤ}
    (hraw : rawToken ∈ T) : TokenStore.Inv T ⟨(verifyProxyToken s.rows rawToken sourceIp now).2,
      .verified rawToken sourceIp now (verifyProxyToken s.rows rawToken sourceIp now).1 :: s.log⟩ := by
  have hmove := verifyProxyToken_cases s.rows rawToken sourceIp now
  -- the row a hash finds is the only one with it
  have honly : ∀ {r row : TokenRow}, r ∈ s.rows → row ∈ s.rows → r.tokenSha256 = row.tokenSha256 → r = row :=
    fun hr hrow => List.inj_on_of_nodup_map hs.hashes hr hrow
  -- a refusal leaves the rows
  have hrefused : ∀ reason, (∀ r ∈ s.rows, r.tokenSha256 = sha256 rawToken →
      reason = .revoked ∨ reason = .expired → r.revokedAt ≠ none ∨ r.expiresAt ≤ now) →
      TokenStore.Inv T ⟨s.rows, .verified rawToken sourceIp now (.refused reason) :: s.log⟩ := by
    intro reason hdead
    refine ⟨hs.jtis, hs.hashes, hs.one_live, fun r hr => ?_, verified_cons (by simp) hs.verified⟩
    apply hs.rows_next hr
    intro args mintedAt minted since hrow
    refine hrow.next rfl (fun hnone => ⟨hnone, id⟩) (fun _ h => h) (by simp) ?_ (by simp)
    intro ip t reason' he hreason
    obtain ⟨hraw', -, ht, hres⟩ := TokenEntry.verified.inj he
    have hhash : r.tokenSha256 = sha256 rawToken := hraw' ▸ hrow.hash
    have hreason' : reason = .revoked ∨ reason = .expired := by
      rw [VerifyProxyTokenResult.refused.inj hres]
      exact hreason
    have := hdead r hr hhash hreason'
    rwa [hrow.expiry, ht] at this
  generalize verifyProxyToken s.rows rawToken sourceIp now = answer at hmove ⊢
  cases hmove with
  | unknown hnone => exact hrefused _ fun r hr hhash => absurd hhash (hnone r hr)
  | revoked hmem hhash hrevoked =>
    refine hrefused _ fun r hr hhash' _ => .inl ?_
    rw [honly hr hmem (hhash'.trans hhash.symm)]
    exact hrevoked
  | expired hmem hhash hexpired =>
    refine hrefused _ fun r hr hhash' _ => .inr ?_
    rw [honly hr hmem (hhash'.trans hhash.symm)]
    exact hexpired
  | mismatch => exact hrefused _ fun _ _ _ hreason => by simp at hreason
  | ok hmem hhash hlive hunexpired hpin =>
    exact hs.success hT hraw hmem hhash hlive hunexpired hpin

theorem TokenStore.inv_step (hT : Set.InjOn sha256 T) (s : TokenStore) (c : TokenCall) (s' : TokenStore)
    (hs : s.Inv T) (h : tokenStep s c = some s') (hc : ∀ x ∈ c.tokens, x ∈ T) : s'.Inv T := by
  cases c with
  | mint args now jti secret =>
    simp only [tokenStep] at h
    cases hmint : mintProxyToken s.rows args now jti secret with
    | none =>
      rw [hmint] at h
      obtain rfl := Option.some.inj h
      exact hs
    | some out =>
      rw [hmint] at h
      obtain rfl := Option.some.inj h
      exact hs.mint hmint (hc _ (.head _))
  | verify rawToken sourceIp now =>
    obtain rfl := Option.some.inj h
    exact hs.verify hT (hc _ (.head _))
  | revokeForSession sessionId now =>
    obtain rfl := Option.some.inj h
    refine hs.revoke now (fun r hp hrevokes => ?_) (by simp) (by simp)
    simp [← hrevokes.symm] at hp
  | revokeAll now =>
    obtain rfl := Option.some.inj h
    exact hs.revoke now (fun r hp => by simp at hp) (by simp) (by simp)
  | purge olderThanMs now =>
    obtain rfl := Option.some.inj h
    have hsub : (s.rows.filter fun r => !decide (toISOString r.expiresAt < toISOString (now - olderThanMs))).Sublist
        s.rows := List.filter_sublist
    exact {
      jtis := hs.jtis.sublist (hsub.map _)
      hashes := hs.hashes.sublist (hsub.map _)
      one_live := fun r hr r' hr' => hs.one_live r (hsub.subset hr) r' (hsub.subset hr')
      rows := fun r hr => hs.rows r (hsub.subset hr)
      verified := hs.verified }

theorem TokenStore.Inv.lifecycle (hs : s.Inv T) : TokenLifecycle s where
  one_live := by
    intro sessionId
    have hnodup : (s.rows.filter fun r => r.sessionId = sessionId && r.revokedAt.isNone).Nodup :=
      (List.Nodup.of_map _ hs.jtis).filter _
    by_contra hlen
    have h₀ : 0 < (s.rows.filter fun r => r.sessionId = sessionId && r.revokedAt.isNone).length := by omega
    have h₁ : 1 < (s.rows.filter fun r => r.sessionId = sessionId && r.revokedAt.isNone).length := by omega
    have hrow : ∀ r ∈ s.rows.filter fun r => r.sessionId = sessionId && r.revokedAt.isNone,
        r ∈ s.rows ∧ r.sessionId = sessionId ∧ r.revokedAt = none := by simp
    obtain ⟨hm₀, hs₀, hl₀⟩ := hrow _ (List.getElem_mem h₀)
    obtain ⟨hm₁, hs₁, hl₁⟩ := hrow _ (List.getElem_mem h₁)
    have hsame := hs.one_live _ hm₀ _ hm₁ (hs₀.trans hs₁.symm) hl₀ hl₁
    have hindex := hnodup.getElem_inj_iff.mp hsame
    omega
  verified := hs.verified

/-- **The life of a proxy token.** After any calls, in any order: a session has at most one unrevoked token,
and what verifies is a minted token, for the group and the session it was minted for, not revoked since, not
expired, from the one address it ever verified from, and never before refused as revoked or as expired. -/
theorem token_lifecycle {calls : List TokenCall} (hash : NoCollision calls) :
    Always tokenStep TokenLifecycle TokenStore.empty calls := by
  refine always_of_along (fun s hs => hs.lifecycle) (TokenStore.inv_step hash) TokenStore.inv_empty ?_
  exact along_of_forall fun c hc s x hx => ⟨c, hc, hx⟩

theorem token_lifecycle_sample : Always tokenStep TokenLifecycle TokenStore.empty
    [.mint ⟨"s", "g", ["/describe"], 1000⟩ 0 "j" "x", .verify ("j" ++ "." ++ "x") "10.0.0.2" 999,
      .revokeForSession "s" 1000, .verify ("j" ++ "." ++ "x") "10.0.0.2" 1001] := by
  apply token_lifecycle
  intro x hx y hy _
  have hx' : x = "j" ++ "." ++ "x" := by simpa [TokenCall.tokens] using hx
  have hy' : y = "j" ++ "." ++ "x" := by simpa [TokenCall.tokens] using hy
  rw [hx', hy']

end AgentDesk
