/-
# The signing proxy

`src/gateway-signing-proxy.ts`: a container sends its gateway requests to the host
unsigned, with a token. The host verifies the token, holds the body's claimed agent
group against the token's, signs with the group's key and forwards. What is signed
and forwarded is not the body as it came but `JSON.stringify` of its parse.

A call takes what its dependencies answer, a failure included, and gives what it did
with them in order (`ProxyEffect`) and its own answer. No dependency but the clock is
called twice in one call, so each is a function; the clock is a sequence of readings.
Metric counters and log lines are left out.

* `forwardsChecked`: at most one request is forwarded, for a verified token, in its rate
  window, on a path of both lists, with the token's group claimed, after a written intent
  row; its signature is over its own body, which has no name twice.
* `forwards_only_checked_iff`: that body also means what came in exactly when no number
  of it is infinite or negative zero: `1e400` is forwarded as `null`.
-/
import AgentDesk.Js
import AgentDesk.JsonRoundTrip
import AgentDesk.ProxyTokens

namespace AgentDesk

open JsonText

/-! ### The signature -/

/-- Overrides of the header names. -/
structure SigningHeaderNames where
  timestamp : Option String
  nonce : Option String
  signature : Option String
  deriving DecidableEq, Repr

/-- The HMAC of `<timestamp>.<nonce>.<body>`. -/
def computeGatewaySignature (key timestamp nonce : String) (body : Text) : String :=
  let message := ofString timestamp ++ unit '.' :: (ofString nonce ++ unit '.' :: body)
  String.ofList (Sha256.hmac (utf8 (ofString key)) (utf8 message)).hex

abbrev Headers := List (String × String)

/-- `headers[name] = value`; an object takes no string as its `__proto__`. -/
def setHeader (headers : Headers) (name value : String) : Headers :=
  if name = "__proto__" then headers
  else Table.upsert Prod.fst headers (name, value) fun _ => (name, value)

/-- `name || default`. -/
def headerName (name : Option String) (default : String) : String :=
  match name with
  | some name => if name = "" then default else name
  | none => default

/-- What a call draws from `crypto`, and the name space of the process. -/
structure ProxyEnv where
  protocolNamespace : String
  proxyRequestId : String
  nonce : String
  deriving DecidableEq, Repr

/-- `now` is in milliseconds. -/
def applyGatewaySigningHeaders (env : ProxyEnv) (headers : Headers) (key : String) (body : Text)
    (names : SigningHeaderNames) (now : ℤ) : Headers :=
  let timestamp := toString (now / 1000)
  let name (suffix : String) := "x-" ++ env.protocolNamespace ++ suffix
  let headers := setHeader headers (headerName names.timestamp (name "-timestamp")) timestamp
  let headers := setHeader headers (headerName names.nonce (name "-nonce")) env.nonce
  setHeader headers (headerName names.signature (name "-signature"))
    (computeGatewaySignature key timestamp env.nonce body)

/-! ### Requests, answers and dependencies -/

structure ProxyRequestInput where
  method : String
  pathname : String
  token : Option String
  sourceIp : String
  rawBody : Text
  deriving DecidableEq, Repr

structure ProxyRequestResult where
  httpStatus : ℕ
  body : Text
  outcome : String
  deriving DecidableEq, Repr

structure BackendGatewayConfig where
  baseUrl : Option String
  timeoutMs : Option ℕ
  /-- `none`: the value is not a string. -/
  defaultHeaders : List (String × Option String)
  signingKey : Option String
  signingHeaders : SigningHeaderNames
  deriving DecidableEq, Repr

/-- An audit row, as it is written before the request is forwarded. -/
structure GatewayProxyIntent where
  proxyRequestId : String
  sessionId : String
  agentGroupId : String
  signedAsGroup : Option String
  tokenJti : String
  path : String
  operation : Option Text
  userId : Option Text
  requesterSource : Text
  requesterSourceCoerced : Bool
  identityMismatch : Bool
  idempotencyKey : Option Text
  inputHash : List Char
  errorMsg : Option Text
  deriving DecidableEq, Repr

inductive ProxyStatus where
  | ok | error
  deriving DecidableEq, Repr

structure GatewayProxyOutcome where
  status : ProxyStatus
  httpStatus : ℕ
  durationMs : Option ℤ
  errorMsg : Option String
  deriving DecidableEq, Repr

/-- A call of `fetch`; its signal aborts it after `timeoutMs`. -/
structure FetchRequest where
  target : String
  headers : Headers
  body : Text
  timeoutMs : ℕ
  deriving DecidableEq, Repr

/-- How `fetch`, or the reading of what it gives, ends. -/
inductive FetchAnswer where
  | failed (aborted : Bool)
  | responded (ok : Bool) (status : ℕ) (text : Text)
  deriving DecidableEq, Repr

/-- `none` and, for the audit writes, `false` are exceptions. -/
structure ProxyDeps where
  verifyToken : String → String → ℤ → Option VerifyProxyTokenResult
  allowRate : String → ℤ → Option Bool
  resolveGateway : String → Option (Option BackendGatewayConfig)
  recordIntent : GatewayProxyIntent → Bool
  finalize : String → GatewayProxyOutcome → Bool
  fetchImpl : FetchRequest → FetchAnswer
  /-- The readings of the clock, in order. -/
  now : ℕ → ℤ

/-- What a call did, with what came of it. -/
inductive ProxyEffect where
  | verifyToken (token sourceIp : String) (now : ℤ) (answer : Option VerifyProxyTokenResult)
  | allowRate (jti : String) (now : ℤ) (answer : Option Bool)
  | resolveGateway (agentGroupId : String) (answer : Option (Option BackendGatewayConfig))
  | recordIntent (intent : GatewayProxyIntent) (written : Bool)
  | finalize (proxyRequestId : String) (outcome : GatewayProxyOutcome) (written : Bool)
  | fetch (request : FetchRequest)
  deriving DecidableEq, Repr

def ProxyEffect.isFetch : ProxyEffect → Bool
  | .fetch _ => true
  | _ => false

/-- A call: what it did, and its answer, `none` where it throws. -/
structure ProxyRun where
  effects : List ProxyEffect
  result : Option ProxyRequestResult
  deriving DecidableEq, Repr

def ProxyRun.answer (result : ProxyRequestResult) : ProxyRun := ⟨[], some result⟩

def ProxyRun.throw : ProxyRun := ⟨[], none⟩

/-- The effect first. -/
def ProxyRun.after (e : ProxyEffect) (run : ProxyRun) : ProxyRun := { run with effects := e :: run.effects }

/-! ### The request -/

def TokenRefusal.text : TokenRefusal → String
  | .unknown => "unknown"
  | .expired => "expired"
  | .revoked => "revoked"
  | .sourceIpMismatch => "source_ip_mismatch"

def jsonError (httpStatus : ℕ) (code message outcome : String) : ProxyRequestResult where
  httpStatus := httpStatus
  outcome := outcome
  body := stringify (.obj [(ofString "error",
    .obj [(ofString "code", .str (ofString code)), (ofString "message", .str (ofString message))])])

/-- The body, when it parses to an object that is no array. -/
def requestObject (rawBody : Text) : Option (List (Text × Value)) :=
  match parse rawBody with
  | some (.obj fields) => some fields
  | _ => none

/-- `v?.[key]`; `none` is `undefined`. -/
def property (v : Value) (key : String) : Option Value :=
  match v with
  | .obj fields => (fields.find? fun f => f.1 = ofString key).map (·.2)
  | _ => none

/-- The value, when it is a string. -/
def asText : Option Value → Option Text
  | some (.str s) => some s
  | _ => none

def claimedGroup (parsed : Value) : Option Text :=
  asText ((property parsed "agent").bind fun agent => property agent "agentGroupId")

/-- `REQUESTER_SOURCES`. -/
def requesterSources : List Text := [ofString "session", ofString "agent-asserted"]

/-- The audit row of a request that is signed. -/
def proxyIntent (env : ProxyEnv) (input : ProxyRequestInput) (record : ProxyTokenRecord) (parsed : Value) :
    GatewayProxyIntent :=
  let rawRequesterSource := (asText (property parsed "requesterSource")).getD []
  let requesterSourceCoerced := rawRequesterSource ∉ requesterSources
  { proxyRequestId := env.proxyRequestId
    sessionId := record.sessionId
    agentGroupId := record.agentGroupId
    signedAsGroup := some record.agentGroupId
    tokenJti := record.jti
    path := input.pathname
    operation := asText (property parsed "operation")
    userId := asText ((property parsed "requester").bind fun requester => property requester "userId")
    requesterSource := if requesterSourceCoerced then ofString "agent-asserted" else rawRequesterSource
    requesterSourceCoerced := requesterSourceCoerced
    identityMismatch := false
    idempotencyKey := asText (property parsed "idempotencyKey")
    inputHash := (Sha256.hash (utf8 (stringify parsed))).hex
    errorMsg := none }

/-- The row of a request that claims another group. -/
def mismatchIntent (env : ProxyEnv) (input : ProxyRequestInput) (record : ProxyTokenRecord) (parsed : Value) :
    GatewayProxyIntent :=
  let claimed := (claimedGroup parsed).getD (ofString "<none>")
  { proxyIntent env input record parsed with
    signedAsGroup := none
    identityMismatch := true
    errorMsg := some (ofString "claimed group " ++ claimed ++ ofString (" != token group " ++ record.agentGroupId)) }

/-- The row of a request for a group without a key. -/
def keylessIntent (env : ProxyEnv) (input : ProxyRequestInput) (record : ProxyTokenRecord) (parsed : Value) :
    GatewayProxyIntent :=
  { proxyIntent env input record parsed with errorMsg := some (ofString "no host-side signing key for group") }

/-- Both audit writes, whatever becomes of them, and the refusal. -/
def auditedRefusal (deps : ProxyDeps) (env : ProxyEnv) (intent : GatewayProxyIntent) (httpStatus : ℕ)
    (errorMsg : String) (result : ProxyRequestResult) : ProxyRun :=
  let outcome : GatewayProxyOutcome := ⟨.error, httpStatus, none, some errorMsg⟩
  .after (.recordIntent intent (deps.recordIntent intent)) <|
  .after (.finalize env.proxyRequestId outcome (deps.finalize env.proxyRequestId outcome)) <|
  .answer result

/-- The base URL and the trimmed key, where neither is empty. -/
def BackendGatewayConfig.signable (gateway : BackendGatewayConfig) : Option (String × String) :=
  match gateway.baseUrl, gateway.signingKey.map Js.trim with
  | some baseUrl, some key => if baseUrl = "" ∨ key = "" then none else some (baseUrl, key)
  | _, _ => none

def sanitizeBaseUrl (url : String) : String :=
  String.ofList (url.toList.reverse.dropWhile fun c => c = '/').reverse

/-- The headers before the signature. -/
def BackendGatewayConfig.headers (gateway : BackendGatewayConfig) : Headers :=
  gateway.defaultHeaders.foldl
    (fun headers h => match h.2 with
      | some value => setHeader headers h.1 value
      | none => headers)
    [("content-type", "application/json"), ("accept", "application/json, text/plain;q=0.9, */*;q=0.8")]

/-- `FORWARD_TIMEOUT_FALLBACK_MS`. -/
def forwardTimeoutFallbackMs : ℕ := 15000

/-- What is forwarded of a request that passes every gate. -/
def signedRequest (deps : ProxyDeps) (env : ProxyEnv) (input : ProxyRequestInput) (parsed : Value)
    (gateway : BackendGatewayConfig) (baseUrl key : String) : FetchRequest :=
  let canonicalBody := stringify parsed
  { target := sanitizeBaseUrl baseUrl ++ input.pathname
    headers := applyGatewaySigningHeaders env gateway.headers key canonicalBody gateway.signingHeaders (deps.now 2)
    body := canonicalBody
    timeoutMs := gateway.timeoutMs.getD forwardTimeoutFallbackMs }

/-- What the audit and the container are told of the backend's answer. -/
def settleFetch (durationMs : ℤ) : FetchAnswer → GatewayProxyOutcome × ProxyRequestResult
  | .responded true status text => (⟨.ok, status, some durationMs, none⟩, ⟨status, text, "signed"⟩)
  | .responded false status text =>
    (⟨.error, status, some durationMs, some ("backend " ++ toString status)⟩, ⟨status, text, "backend_error"⟩)
  | .failed aborted =>
    (⟨.error, 502, some durationMs, some (if aborted then "backend_timeout" else "backend_unreachable")⟩,
      jsonError 502 "BACKEND_UNAVAILABLE" (if aborted then "backend timed out" else "backend unreachable")
        "backend_error")

/-- The intent row must be written; the final one need not. -/
def forwardSigned (deps : ProxyDeps) (env : ProxyEnv) (input : ProxyRequestInput) (record : ProxyTokenRecord)
    (parsed : Value) (gateway : BackendGatewayConfig) (baseUrl key : String) : ProxyRun :=
  let request := signedRequest deps env input parsed gateway baseUrl key
  let startedAt := deps.now 3
  let intent := proxyIntent env input record parsed
  .after (.recordIntent intent (deps.recordIntent intent)) <|
  if deps.recordIntent intent = false then
    .answer (jsonError 503 "AUDIT_UNAVAILABLE" "audit write failed; refusing to sign" "audit_write_failed")
  else
    let (outcome, result) := settleFetch (deps.now 4 - startedAt) (deps.fetchImpl request)
    .after (.fetch request) <|
    .after (.finalize env.proxyRequestId outcome (deps.finalize env.proxyRequestId outcome)) <|
    .answer result

/-- From the identity check on. -/
def processParsed (deps : ProxyDeps) (env : ProxyEnv) (input : ProxyRequestInput) (record : ProxyTokenRecord)
    (parsed : Value) : ProxyRun :=
  if claimedGroup parsed ≠ some (ofString record.agentGroupId) then
    auditedRefusal deps env (mismatchIntent env input record parsed) 409 "identity_mismatch"
      (jsonError 409 "IDENTITY_MISMATCH" "request agent group does not match session" "identity_mismatch")
  else
    let answer := deps.resolveGateway record.agentGroupId
    .after (.resolveGateway record.agentGroupId answer) <|
    match answer with
    | none => .throw
    | some gateway =>
      match gateway.bind fun gateway => gateway.signable.map fun material => (gateway, material) with
      | none =>
        auditedRefusal deps env (keylessIntent env input record parsed) 502 "no_signing_key"
          (jsonError 502 "NO_SIGNING_KEY" "gateway not signable for this group" "no_signing_key")
      | some (gateway, baseUrl, key) => forwardSigned deps env input record parsed gateway baseUrl key

/-- From the rate window on. -/
def processVerified (deps : ProxyDeps) (env : ProxyEnv) (input : ProxyRequestInput) (record : ProxyTokenRecord) :
    ProxyRun :=
  let answer := deps.allowRate record.jti (deps.now 1)
  .after (.allowRate record.jti (deps.now 1) answer) <|
  match answer with
  | none => .throw
  | some false => .answer (jsonError 429 "RATE_LIMITED" "per-token rate window exceeded" "rate_limited")
  | some true =>
    if input.pathname ∉ allGatewayPaths ∨ input.pathname ∉ record.allowedPaths then
      .answer (jsonError 403 "FORBIDDEN_PATH" ("path " ++ input.pathname ++ " not permitted") "forbidden_path")
    else match requestObject input.rawBody with
      | none => .answer (jsonError 400 "BAD_REQUEST" "body is not a JSON object" "bad_request")
      | some fields => processParsed deps env input record (.obj fields)

def processSigningProxyRequest (deps : ProxyDeps) (env : ProxyEnv) (input : ProxyRequestInput) : ProxyRun :=
  if input.method ≠ "POST" then
    .answer (jsonError 405 "METHOD_NOT_ALLOWED" "only POST is supported" "bad_request")
  else match input.token.filter fun token => token ≠ "" with
    | none => .answer (jsonError 401 "UNAUTHORIZED" "missing proxy token" "unauthorized")
    | some token =>
      let answer := deps.verifyToken token input.sourceIp (deps.now 0)
      .after (.verifyToken token input.sourceIp (deps.now 0) answer) <|
      match answer with
      | none => .throw
      | some (.refused reason) =>
        let outcome := if reason = .sourceIpMismatch then "source_ip_mismatch" else "unauthorized"
        .answer (jsonError 401 "UNAUTHORIZED" ("token " ++ reason.text) outcome)
      | some (.ok record) => processVerified deps env input record

/-! ### What is forwarded was checked -/

/-- What holds of a forwarded request, and of what was done `before` it. -/
structure Checked (deps : ProxyDeps) (env : ProxyEnv) (input : ProxyRequestInput) (before : List ProxyEffect)
    (request : FetchRequest) (token : String) (record : ProxyTokenRecord) (fields : List (Text × Value))
    (gateway : BackendGatewayConfig) (key : String) (intent : GatewayProxyIntent) : Prop where
  presented : input.token = some token
  verified : ∃ now, ProxyEffect.verifyToken token input.sourceIp now (some (.ok record)) ∈ before
  allowed : ∃ now, ProxyEffect.allowRate record.jti now (some true) ∈ before
  listed : input.pathname ∈ allGatewayPaths
  in_scope : input.pathname ∈ record.allowedPaths
  body : parse input.rawBody = some (.obj fields)
  group : claimedGroup (.obj fields) = some (ofString record.agentGroupId)
  /-- The row is for the path, and for the token and the group that are signed for. -/
  audited : ProxyEffect.recordIntent intent true ∈ before ∧ intent.path = input.pathname ∧
    intent.tokenJti = record.jti ∧ intent.signedAsGroup = some record.agentGroupId
  resolved : deps.resolveGateway record.agentGroupId = some (some gateway) ∧
    gateway.signingKey.map Js.trim = some key
  /-- The signature is over the body that is forwarded. -/
  signed : ∃ now, request.headers =
    applyGatewaySigningHeaders env gateway.headers key request.body gateway.signingHeaders now
  distinct : ∃ tree, read request.body = some tree ∧ tree.Distinct

/-- At most one request is forwarded, and only after every check. -/
def ForwardsChecked (deps : ProxyDeps) (env : ProxyEnv) (input : ProxyRequestInput) (effects : List ProxyEffect) :
    Prop :=
  effects.countP ProxyEffect.isFetch ≤ 1 ∧
  ∀ before request after, effects = before ++ .fetch request :: after →
    ∃ token record fields gateway key intent,
      Checked deps env input before request token record fields gateway key intent

/-- And its body means what the container sent. -/
def OnlyChecked (deps : ProxyDeps) (env : ProxyEnv) (input : ProxyRequestInput) (effects : List ProxyEffect) : Prop :=
  ForwardsChecked deps env input effects ∧
  ∀ request, .fetch request ∈ effects → parse request.body = parse input.rawBody

/-- No gate refuses the request; `fields` is its parsed body. -/
structure PassesGates (deps : ProxyDeps) (env : ProxyEnv) (input : ProxyRequestInput) (token : String)
    (record : ProxyTokenRecord) (fields : List (Text × Value)) (gateway : BackendGatewayConfig)
    (baseUrl key : String) : Prop where
  method : input.method = "POST"
  presented : input.token = some token
  nonempty : token ≠ ""
  verified : deps.verifyToken token input.sourceIp (deps.now 0) = some (.ok record)
  allowed : deps.allowRate record.jti (deps.now 1) = some true
  listed : input.pathname ∈ allGatewayPaths
  in_scope : input.pathname ∈ record.allowedPaths
  body : requestObject input.rawBody = some fields
  group : claimedGroup (.obj fields) = some (ofString record.agentGroupId)
  resolved : deps.resolveGateway record.agentGroupId = some (some gateway)
  signable : gateway.signable = some (baseUrl, key)
  audited : deps.recordIntent (proxyIntent env input record (.obj fields)) = true

theorem requestObject_eq {rawBody : Text} {fields : List (Text × Value)} :
    requestObject rawBody = some fields ↔ parse rawBody = some (.obj fields) := by
  unfold requestObject
  split
  · rename_i fields' hparse
    rw [hparse]
    simp
  · rename_i hnot
    simp only [reduceCtorEq, false_iff]
    exact hnot fields

theorem signable_key {gateway : BackendGatewayConfig} {baseUrl key : String}
    (h : gateway.signable = some (baseUrl, key)) : gateway.signingKey.map Js.trim = some key := by
  unfold BackendGatewayConfig.signable at h
  split at h
  · rename_i hkey
    split at h
    · cases h
    · rw [hkey, ((Prod.mk.inj (Option.some.inj h)).2)]
  · cases h

variable {deps : ProxyDeps} {env : ProxyEnv} {input : ProxyRequestInput} {token : String}
  {record : ProxyTokenRecord} {fields : List (Text × Value)} {gateway : BackendGatewayConfig} {baseUrl key : String}

/-- What is done before the request is forwarded. -/
def checksBefore (deps : ProxyDeps) (env : ProxyEnv) (input : ProxyRequestInput) (token : String)
    (record : ProxyTokenRecord) (fields : List (Text × Value)) (gateway : BackendGatewayConfig) : List ProxyEffect :=
  [.verifyToken token input.sourceIp (deps.now 0) (some (.ok record)),
    .allowRate record.jti (deps.now 1) (some true),
    .resolveGateway record.agentGroupId (some (some gateway)),
    .recordIntent (proxyIntent env input record (.obj fields)) true]

theorem PassesGates.effects (h : PassesGates deps env input token record fields gateway baseUrl key) :
    ∃ outcome written, (processSigningProxyRequest deps env input).effects =
      checksBefore deps env input token record fields gateway ++
        .fetch (signedRequest deps env input (.obj fields) gateway baseUrl key) ::
          [.finalize env.proxyRequestId outcome written] := by
  have htoken : (input.token.filter fun token => token ≠ "") = some token := by
    rw [h.presented]
    simp [h.nonempty]
  have hpath : ¬ (input.pathname ∉ allGatewayPaths ∨ input.pathname ∉ record.allowedPaths) := by
    simp [h.listed, h.in_scope]
  have hforward : (processParsed deps env input record (.obj fields)) =
      .after (.resolveGateway record.agentGroupId (some (some gateway)))
        (forwardSigned deps env input record (.obj fields) gateway baseUrl key) := by
    unfold processParsed
    rw [if_neg (not_not.mpr h.group), h.resolved]
    simp only [Option.bind_some, h.signable, Option.map_some]
  have hverified : processVerified deps env input record =
      .after (.allowRate record.jti (deps.now 1) (some true)) (processParsed deps env input record (.obj fields)) := by
    unfold processVerified
    simp only [h.allowed, if_neg hpath, h.body]
  have hrun : processSigningProxyRequest deps env input =
      .after (.verifyToken token input.sourceIp (deps.now 0) (some (.ok record)))
        (processVerified deps env input record) := by
    unfold processSigningProxyRequest
    rw [if_neg (not_not.mpr h.method), htoken]
    simp only [h.verified]
  rw [hrun, hverified, hforward]
  unfold forwardSigned
  simp only [h.audited, Bool.true_eq_false, if_false]
  exact ⟨_, _, rfl⟩

@[simp] theorem after_effects (e : ProxyEffect) (run : ProxyRun) : (run.after e).effects = e :: run.effects := rfl

@[simp] theorem answer_effects (result : ProxyRequestResult) : (ProxyRun.answer result).effects = [] := rfl

@[simp] theorem throw_effects : ProxyRun.throw.effects = [] := rfl

section Inversion

variable {parsed : Value} {request : FetchRequest}

theorem fetch_auditedRefusal {intent : GatewayProxyIntent} {httpStatus : ℕ} {errorMsg : String}
    {result : ProxyRequestResult} :
    ProxyEffect.fetch request ∉ (auditedRefusal deps env intent httpStatus errorMsg result).effects := by
  simp [auditedRefusal]

theorem fetch_forwardSigned
    (h : ProxyEffect.fetch request ∈ (forwardSigned deps env input record parsed gateway baseUrl key).effects) :
    deps.recordIntent (proxyIntent env input record parsed) = true := by
  unfold forwardSigned at h
  by_contra hfailed
  rw [Bool.not_eq_true] at hfailed
  simp [hfailed] at h

theorem fetch_processParsed (h : ProxyEffect.fetch request ∈ (processParsed deps env input record parsed).effects) :
    claimedGroup parsed = some (ofString record.agentGroupId) ∧ ∃ gateway baseUrl key,
      deps.resolveGateway record.agentGroupId = some (some gateway) ∧ gateway.signable = some (baseUrl, key) ∧
      deps.recordIntent (proxyIntent env input record parsed) = true := by
  unfold processParsed at h
  split at h
  case isTrue => exact absurd h fetch_auditedRefusal
  case isFalse hgroup =>
    refine ⟨not_not.mp hgroup, ?_⟩
    simp only [after_effects, List.mem_cons, reduceCtorEq, false_or] at h
    split at h
    · simp at h
    · rename_i gateway? hresolved
      split at h
      · exact absurd h fetch_auditedRefusal
      · rename_i gateway baseUrl key hmaterial
        obtain ⟨gateway', rfl, hmaterial⟩ := Option.bind_eq_some_iff.mp hmaterial
        obtain ⟨material, hsignable, heq⟩ := Option.map_eq_some_iff.mp hmaterial
        obtain ⟨rfl, rfl⟩ := Prod.mk.inj heq
        exact ⟨gateway', baseUrl, key, hresolved, hsignable, fetch_forwardSigned h⟩

theorem fetch_processVerified (h : ProxyEffect.fetch request ∈ (processVerified deps env input record).effects) :
    deps.allowRate record.jti (deps.now 1) = some true ∧
      (input.pathname ∈ allGatewayPaths ∧ input.pathname ∈ record.allowedPaths) ∧
      ∃ fields, requestObject input.rawBody = some fields ∧
        ProxyEffect.fetch request ∈ (processParsed deps env input record (.obj fields)).effects := by
  unfold processVerified at h
  simp only [after_effects, List.mem_cons, reduceCtorEq, false_or] at h
  split at h
  · simp at h
  · simp at h
  · rename_i hallowed
    split at h
    case isTrue => simp at h
    case isFalse hpath =>
      rw [not_or, not_not, not_not] at hpath
      split at h
      · simp at h
      · rename_i fields hbody
        exact ⟨hallowed, hpath, fields, hbody, h⟩

theorem fetch_passesGates
    (h : ProxyEffect.fetch request ∈ (processSigningProxyRequest deps env input).effects) :
    ∃ token record fields gateway baseUrl key, PassesGates deps env input token record fields gateway baseUrl key := by
  unfold processSigningProxyRequest at h
  split at h
  case isTrue => simp at h
  case isFalse hmethod =>
    split at h
    · simp at h
    · rename_i token htoken
      obtain ⟨hpresented, hnonempty⟩ := Option.filter_eq_some_iff.mp htoken
      simp only [after_effects, List.mem_cons, reduceCtorEq, false_or] at h
      split at h
      · simp at h
      · simp at h
      · rename_i record hverified
        obtain ⟨hallowed, ⟨hlisted, hscope⟩, fields, hbody, h⟩ := fetch_processVerified h
        obtain ⟨hgroup, gateway, baseUrl, key, hresolved, hsignable, haudited⟩ := fetch_processParsed h
        exact ⟨token, record, fields, gateway, baseUrl, key, {
          method := not_not.mp hmethod
          presented := hpresented
          nonempty := of_decide_eq_true hnonempty
          verified := hverified
          allowed := hallowed
          listed := hlisted
          in_scope := hscope
          body := hbody
          group := hgroup
          resolved := hresolved
          signable := hsignable
          audited := haudited }⟩

end Inversion

theorem read_distinct {text : Text} {v : Value} (h : parse text = some v) :
    ∃ tree, read (stringify v) = some tree ∧ tree.Distinct := by
  obtain ⟨t, -, rfl⟩ := Option.map_eq_some_iff.mp h
  exact ⟨_, read_stringify _, distinct_toTree t.ordered_eval⟩

theorem PassesGates.parsed (h : PassesGates deps env input token record fields gateway baseUrl key) :
    parse input.rawBody = some (.obj fields) := requestObject_eq.mp h.body

theorem PassesGates.checked (h : PassesGates deps env input token record fields gateway baseUrl key) :
    Checked deps env input (checksBefore deps env input token record fields gateway)
      (signedRequest deps env input (.obj fields) gateway baseUrl key) token record fields gateway key
      (proxyIntent env input record (.obj fields)) where
  presented := h.presented
  verified := ⟨deps.now 0, .head _⟩
  allowed := ⟨deps.now 1, .tail _ (.head _)⟩
  listed := h.listed
  in_scope := h.in_scope
  body := h.parsed
  group := h.group
  audited := ⟨.tail _ (.tail _ (.tail _ (.head _))), rfl, rfl, rfl⟩
  resolved := ⟨h.resolved, signable_key h.signable⟩
  signed := ⟨deps.now 2, rfl⟩
  distinct := read_distinct h.parsed

theorem PassesGates.split (h : PassesGates deps env input token record fields gateway baseUrl key) :
    (processSigningProxyRequest deps env input).effects.countP ProxyEffect.isFetch = 1 ∧
    ∀ before request after, (processSigningProxyRequest deps env input).effects = before ++ .fetch request :: after →
      before = checksBefore deps env input token record fields gateway ∧
      request = signedRequest deps env input (.obj fields) gateway baseUrl key := by
  obtain ⟨outcome, written, heffects⟩ := h.effects
  rw [heffects]
  refine ⟨rfl, fun before request after hsplit => ?_⟩
  have hchecks : ProxyEffect.fetch request ∉ checksBefore deps env input token record fields gateway := by
    simp [checksBefore]
  have hfinal : ProxyEffect.fetch request ∉ [ProxyEffect.finalize env.proxyRequestId outcome written] := by
    simp
  obtain ⟨hbefore, hrequest, -⟩ := (List.append_cons_inj_of_notMem hchecks hfinal).mp hsplit
  exact ⟨hbefore.symm, (ProxyEffect.fetch.inj hrequest).symm⟩

theorem countP_isFetch {effects : List ProxyEffect} (h : ∀ request, .fetch request ∉ effects) :
    effects.countP ProxyEffect.isFetch = 0 := by
  rw [List.countP_eq_zero]
  rintro (_ | _ | _ | _ | _ | request) hmem
  case fetch => exact absurd hmem (h request)
  all_goals exact Bool.false_ne_true

/-- Whatever the request and the answers, what is forwarded was checked. -/
theorem forwardsChecked (deps : ProxyDeps) (env : ProxyEnv) (input : ProxyRequestInput) :
    ForwardsChecked deps env input (processSigningProxyRequest deps env input).effects := by
  constructor
  · by_cases hnone : ∀ request, .fetch request ∉ (processSigningProxyRequest deps env input).effects
    · rw [countP_isFetch hnone]
      omega
    · push Not at hnone
      obtain ⟨request, hmem⟩ := hnone
      obtain ⟨token, record, fields, gateway, baseUrl, key, hgates⟩ := fetch_passesGates hmem
      exact hgates.split.1.le
  · intro before request after heq
    have hmem : .fetch request ∈ (processSigningProxyRequest deps env input).effects := by
      rw [heq]
      exact List.mem_append_right _ (.head _)
    obtain ⟨token, record, fields, gateway, baseUrl, key, hgates⟩ := fetch_passesGates hmem
    obtain ⟨rfl, rfl⟩ := hgates.split.2 before request after heq
    exact ⟨_, _, _, _, _, _, hgates.checked⟩

theorem PassesGates.same_value_iff (h : PassesGates deps env input token record fields gateway baseUrl key) :
    (∀ request, .fetch request ∈ (processSigningProxyRequest deps env input).effects →
      parse request.body = parse input.rawBody) ↔ (Json.obj fields).writable = true := by
  have hforwarded : ∀ request, .fetch request ∈ (processSigningProxyRequest deps env input).effects ↔
      request = signedRequest deps env input (.obj fields) gateway baseUrl key := by
    obtain ⟨outcome, written, heffects⟩ := h.effects
    intro request
    rw [heffects]
    simp [checksBefore]
  simp only [hforwarded, forall_eq, h.parsed]
  exact parse_stringify h.parsed

/-- A body with the number `1e400`, for the token's group. -/
def overflowingBody : Text :=
  ofString "\x7b\"agent\":\x7b\"agentGroupId\":\"g\"\x7d,\"input\":\x7b\"limit\":1e400\x7d\x7d"

/-- Dependencies that admit a request of the group `g`. -/
def admittingDeps : ProxyDeps where
  verifyToken _ sourceIp _ := some (.ok ⟨"j", "s", "g", ["/execute"], some sourceIp, 3600000⟩)
  allowRate _ _ := some true
  resolveGateway _ := some (some ⟨some "https://erp", none, [], some "k", ⟨none, none, none⟩⟩)
  recordIntent _ := true
  finalize _ _ := true
  fetchImpl _ := .responded true 200 (ofString "\x7b\x7d")
  now _ := 0

def overflowingInput : ProxyRequestInput := ⟨"POST", "/execute", some "j.x", "10.0.0.2", overflowingBody⟩

/-- The number comes in as an infinity and is forwarded as `null`. -/
theorem overflow_forwarded :
    ¬ OnlyChecked admittingDeps ⟨"agentdesk", "u", "n"⟩ overflowingInput
      (processSigningProxyRequest admittingDeps ⟨"agentdesk", "u", "n"⟩ overflowingInput).effects := by
  have hbody : (requestObject overflowingBody).map (fun fields =>
      (claimedGroup (.obj fields), (Json.obj fields).writable)) = some (some (ofString "g"), false) := by
    decide +kernel
  obtain ⟨fields, hfields, hfacts⟩ := Option.map_eq_some_iff.mp hbody
  obtain ⟨hgroup, hunwritable⟩ := Prod.mk.inj hfacts
  have hgates : PassesGates admittingDeps ⟨"agentdesk", "u", "n"⟩ overflowingInput "j.x"
      ⟨"j", "s", "g", ["/execute"], some "10.0.0.2", 3600000⟩ fields
      ⟨some "https://erp", none, [], some "k", ⟨none, none, none⟩⟩ "https://erp" "k" := {
    method := rfl
    presented := rfl
    nonempty := by decide
    verified := rfl
    allowed := rfl
    listed := by decide
    in_scope := by decide
    body := hfields
    group := hgroup
    resolved := rfl
    signable := by decide
    audited := rfl }
  intro honly
  have hwritable := hgates.same_value_iff.mp honly.2
  rw [hunwritable] at hwritable
  cases hwritable

/-- **The signing proxy forwards only what it checked, exactly when the body can be written.** At most one
request is forwarded, after the token was verified, the rate window allowed it and an intent row was written, on
a path of the gateway list and of the token's, for a body that claims the token's group; its signature is over
its own body, which has no name twice; and that body is parsed to the same value as the one that came in: all
this exactly when a body that passes the gates has no infinite number (a literal over the range of the numbers)
and no negative zero. -/
theorem forwards_only_checked_iff (deps : ProxyDeps) (env : ProxyEnv) (input : ProxyRequestInput) :
    OnlyChecked deps env input (processSigningProxyRequest deps env input).effects ↔
      ∀ token record fields gateway baseUrl key,
        PassesGates deps env input token record fields gateway baseUrl key →
          (Json.obj fields).writable = true := by
  constructor
  · intro honly token record fields gateway baseUrl key hgates
    exact hgates.same_value_iff.mp honly.2
  · intro hwritable
    refine ⟨forwardsChecked deps env input, fun request hmem => ?_⟩
    obtain ⟨token, record, fields, gateway, baseUrl, key, hgates⟩ := fetch_passesGates hmem
    have hnumbers := hwritable token record fields gateway baseUrl key hgates
    exact hgates.same_value_iff.mpr hnumbers request hmem

end AgentDesk
