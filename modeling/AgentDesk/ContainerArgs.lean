/-
# The command line of a container

`buildContainerArgs` of `src/container-runner.ts`: the arguments of `docker run`, where the last `-e` of a key counts.
The environment of an agent group, from `container.json`, is pushed after three values of the host's own and before
what OneCLI appends, in whose place a scan for `SSL_CERT_FILE` takes it too.

* `entries_before_image`: no `-e KEY=VALUE` comes after the image.
* `find_own`, `find_trace`: what the last value of a key of the host is.
* `host_env_iff`: **the host's values are kept exactly when neither the group's environment nor what is pushed after
  it gives a key of the host another value, and the vault's certificate is not the group's**.

OneCLI appends arguments, or fails; what it appends may depend on those before.
-/
import AgentDesk.ContainerConfig
import AgentDesk.JsonCoercion
import AgentDesk.LastFlag

namespace AgentDesk.Docker

open JsonText Binary64

/-! ### Entries of the environment -/

def dashE : Text := ofString "-e"

/-- `KEY=VALUE`. -/
def entry (key value : Text) : Text := key ++ unit '=' :: value

/-- `-e KEY=VALUE` for each. -/
def envArgs (env : List (Text × Text)) : List Text := LastFlag.pairs dashE (env.map fun (key, value) => entry key value)

/-- The value, where the word is an entry of the key. -/
def valueOf (key word : Text) : Option Text :=
  if (key ++ [unit '=']).isPrefixOf word then some (word.drop (key.length + 1)) else none

def IsDashE (word : Text) : Prop := word = dashE

instance : DecidablePred IsDashE := fun word => inferInstanceAs (Decidable (word = dashE))

/-- The last value of a key. -/
def findInjectedEnvValue (args : List Text) (key : Text) : Option Text := LastFlag.last IsDashE (valueOf key) args

/-! ### The settings -/

/-- `||` of a text that may be missing. -/
def orText (t : Option Text) (fallback : Text) : Text := (t.filter (· ≠ [])).getD fallback

/-- `toLowerCase` of a name, as far as it gives letters of ASCII: so does the Kelvin sign. -/
def lowerName (t : Text) : Text :=
  t.map fun c => if unit 'A' ≤ c ∧ c ≤ unit 'Z' then c + 32 else if c = 0x212a then unit 'k' else c

/-- What the host runs with: constants of the process, its environment and the `.env` file. -/
structure Host where
  timezone : Text
  protocolNamespace : Text
  installLabel : Text
  image : Text
  linux : Bool
  uid : Option ℕ
  gid : Option ℕ
  env : String → Option Text
  dotenv : String → Option Text

structure VolumeMount where
  hostPath : Text
  containerPath : Text
  readonly : Bool

/-- The settings of `container.json` that are read here; `routing` is the provider of the routing role, if enabled. -/
structure ContainerSettings where
  ociRuntime : Option Text
  memoryMb : Option Double
  cpus : Option Double
  pidsLimit : Option Double
  env : Option Value
  routing : Option Text
  network : Option Text
  imageTag : Option Text

structure SpawnSigningProxy where
  url : Text
  token : Text
  noProxyHost : Text

structure TraceCarrier where
  traceparent : Option Text
  tracestate : Option Text

structure Spawn where
  mounts : List VolumeMount
  containerName : Text
  config : ContainerSettings
  provider : Text
  providerEnv : List (Text × Text)
  agentIdentifier : Option Text
  signingProxy : Option SpawnSigningProxy
  carrier : TraceCarrier

/-- OneCLI: whether the agent is there or can be made, and what is appended to arguments, if it does not throw, with
whether it says that it was. -/
structure OneCli where
  ensureAgent : Text → Bool
  applyContainerConfig : List Text → Option (List Text × Bool)

/-! ### The parts -/

def ociRuntimeArgs (host : Host) (groupOverride : Option Text) : List Text :=
  let configured := orText (groupOverride.map trimText) (orText ((host.env "CONTAINER_OCI_RUNTIME").map trimText) [])
  if plainName configured then [ofString "--runtime=" ++ configured] else []

def resourceArgs (config : ContainerSettings) : List Text :=
  (match config.memoryMb with
    | some memoryMb => [ofString "--memory=" ++ (numberString memoryMb ++ ofString "m"),
        ofString "--memory-swap=" ++ (numberString memoryMb ++ ofString "m")]
    | none => []) ++
  (match config.cpus with
    | some cpus => [ofString "--cpus=" ++ numberString cpus]
    | none => []) ++
  (match config.pidsLimit with
    | some pidsLimit => [ofString "--pids-limit=" ++ numberString pidsLimit]
    | none => [])

/-- What the host sets first. -/
def ownEnv (host : Host) (provider : Text) : List (Text × Text) :=
  [(ofString "TZ", host.timezone), (ofString "BRAND_NAMESPACE", host.protocolNamespace),
   (ofString "AGENTDESK_EXECUTION_PROVIDER", provider)]

def nameStart (c : UInt16) : Bool :=
  (unit 'a' ≤ c && c ≤ unit 'z') || (unit 'A' ≤ c && c ≤ unit 'Z') || c = unit '_'

/-- `/^[A-Za-z_][A-Za-z0-9_]*$/`. -/
def isEnvName : Text → Bool
  | [] => false
  | c :: t => nameStart c && t.all fun c => nameStart c || (unit '0' ≤ c && c ≤ unit '9')

/-- The group's environment; `none` is the `TypeError` of a value that cannot be made a text. What is no object has
numerals for keys, if any. -/
def operatorEnv : Option Value → Option (List (Text × Text))
  | some (.obj fields) => (fields.filter fun f => isEnvName f.1).mapM fun (key, value) =>
    value.toText.map fun text => (key, text)
  | _ => some []

/-- What is after `//localhost` or `//127.0.0.1`, if that is the whole name of the host. -/
def afterLoopback (t : Text) : Option Text :=
  (["//localhost", "//127.0.0.1"].findSome? fun name =>
    if (ofString name).isPrefixOf t then some (t.drop (ofString name).length) else none).filter fun rest =>
      rest.head?.all fun c => c = unit ':' || c = unit '/'

/-- The first loopback is the host, seen from a container. -/
def containerEndpoint : Text → Text
  | [] => []
  | c :: t =>
    match afterLoopback (c :: t) with
    | some rest => ofString "//host.docker.internal" ++ rest
    | none => c :: containerEndpoint t

/-- A key with its value, unless that is missing or empty. -/
def optionalEnv (key : String) (value : Option Text) : List (Text × Text) :=
  match value.filter (· ≠ []) with
  | some value => [(ofString key, value)]
  | none => []

def buildRunnerTracingEnv (carrier : TraceCarrier) (env : String → Option Text) : List (Text × Text) :=
  (match carrier.traceparent.filter (· ≠ []) with
    | some traceparent =>
      (ofString "OTEL_TRACEPARENT", traceparent) :: (optionalEnv "OTEL_TRACESTATE" carrier.tracestate ++
        [(ofString "OTEL_EXPORTER_OTLP_TRACES_ENDPOINT", containerEndpoint
          (orText (env "OTEL_EXPORTER_OTLP_TRACES_ENDPOINT") (ofString "http://localhost:6006/v1/traces")))])
    | none => []) ++
  optionalEnv "OTEL_SDK_DISABLED" (env "OTEL_SDK_DISABLED") ++
  optionalEnv "OTEL_CAPTURE_CONTENT" (env "OTEL_CAPTURE_CONTENT")

/-! ### OneCLI -/

def openaiViaOneCliEnabled (host : Host) : Bool :=
  let setting := (host.env "AGENTDESK_OPENAI_VIA_ONECLI").getD
    ((host.dotenv "AGENTDESK_OPENAI_VIA_ONECLI").getD [])
  lowerName (trimText setting) = ofString "true"

def isOpenAiCompatibleProvider (provider : Text) : Bool :=
  lowerName provider ∈ [ofString "openai", ofString "codex", ofString "opencode-go"]

def routeOpenAiThroughVault (provider : Text) (enabled : Bool) : Bool := enabled && isOpenAiCompatibleProvider provider

def shouldApplyOneCliGateway (providers : List Text) (openaiViaVault : Bool) : Bool :=
  providers.any fun provider =>
    if lowerName provider = ofString "mock" then false
    else if isOpenAiCompatibleProvider (lowerName provider) then openaiViaVault
    else true

def roleProviders (x : Spawn) : List Text := x.provider :: x.config.routing.toList

/-- Does a role go through the vault? -/
def openaiViaVault (host : Host) (x : Spawn) : Bool :=
  (roleProviders x).any fun name => routeOpenAiThroughVault name (openaiViaOneCliEnabled host)

/-- The arguments with what OneCLI appends; `none` is an error, and no container. -/
def applyOneCli (host : Host) (oneCli : OneCli) (x : Spawn) (args : List Text) : Option (List Text) :=
  if !shouldApplyOneCliGateway (roleProviders x) (openaiViaOneCliEnabled host) then some args
  else if (x.agentIdentifier.filter (· ≠ [])).any fun identifier => !oneCli.ensureAgent identifier then none
  else
    match oneCli.applyContainerConfig args with
    | none | some (_, false) => none
    | some (appended, true) =>
      if openaiViaVault host x then
        match findInjectedEnvValue (args ++ appended) (ofString "SSL_CERT_FILE") with
        | none | some [] => none
        | some vaultCaPath => some (args ++ appended ++ envArgs [(ofString "NODE_EXTRA_CA_CERTS", vaultCaPath)])
      else some (args ++ appended)

/-! ### The rest -/

def hostGatewayArgs (host : Host) : List Text :=
  if host.linux then [ofString "--add-host=host.docker.internal:host-gateway"] else []

/-- The user a container runs as, unless that is `root` or the user of the image. -/
def mappedUser (host : Host) : Option ℕ := host.uid.filter fun uid => uid ≠ 0 && uid ≠ 1000

def userFlag (host : Host) : List Text :=
  match mappedUser host with
  | some uid =>
    let gid := match host.gid with
      | some gid => decimalText gid
      | none => ofString "undefined"
    [ofString "--user", decimalText uid ++ unit ':' :: gid]
  | none => []

def homeEnv (host : Host) : List (Text × Text) :=
  if (mappedUser host).isSome then [(ofString "HOME", ofString "/home/node")] else []

def userArgs (host : Host) : List Text := userFlag host ++ envArgs (homeEnv host)

def buildSecurityArgs (env : String → Option Text) : List Text :=
  let words := ((env "AGENT_DROP_CAPS").getD []).splitOnP fun c => c = unit ',' || isSpaceUnit c
  let dropCaps := (words.map trimText).filter (· ≠ [])
  ofString "--security-opt=no-new-privileges:true" :: dropCaps.map fun cap => ofString "--cap-drop=" ++ cap

/-- `/^[a-zA-Z0-9][a-zA-Z0-9_.-]*$/`. -/
def isValidContainerNetwork (t : Text) : Bool :=
  plainName t && t.head?.all fun c => c ≠ unit '_' && c ≠ unit '.' && c ≠ unit '-'

def buildNetworkArgs (config : ContainerSettings) (env : String → Option Text) : List Text :=
  let raw := trimText ((config.network.or (env "AGENT_CONTAINER_NETWORK")).getD [])
  if isValidContainerNetwork raw then [ofString "--network", raw] else []

/-- The hosts of an entry `NO_PROXY=…` or `no_proxy=…` of one line. -/
def noProxyValues (word : Text) : List Text :=
  match (valueOf (ofString "NO_PROXY") word).or (valueOf (ofString "no_proxy") word) with
  | some hosts =>
    if hosts.any fun c => c ∈ [0x0a, 0x0d, 0x2028, 0x2029] then []
    else ((hosts.splitOn (unit ',')).map trimText).filter (· ≠ [])
  | none => []

/-- The words after a `-e`. -/
def afterDashE : List Text → List Text
  | a :: b :: args => (if a = dashE then [b] else []) ++ afterDashE (b :: args)
  | _ => []

def mergeNoProxyArgs (args additions : List Text) : List Text :=
  let values := (afterDashE args).flatMap noProxyValues ++ (additions.map trimText).filter (· ≠ [])
  let merged := [unit ','].intercalate (values.foldl (fun set v => if v ∈ set then set else set ++ [v]) [])
  args ++ envArgs [(ofString "NO_PROXY", merged), (ofString "no_proxy", merged)]

/-- What the signing proxy is reached with. -/
def proxyEnv : Option SpawnSigningProxy → List (Text × Text)
  | some proxy =>
    [(ofString "AGENTDESK_GATEWAY_PROXY_URL", proxy.url), (ofString "AGENTDESK_GATEWAY_PROXY_TOKEN", proxy.token)]
  | none => []

def proxyArgs (signingProxy : Option SpawnSigningProxy) (args : List Text) : List Text :=
  match signingProxy with
  | some proxy => mergeNoProxyArgs (args ++ envArgs (proxyEnv (some proxy))) [proxy.noProxyHost]
  | none => args

def mountArgs (mounts : List VolumeMount) : List Text :=
  mounts.flatMap fun mount =>
    let bind := mount.hostPath ++ unit ':' :: mount.containerPath
    [ofString "-v", if mount.readonly then bind ++ ofString ":ro" else bind]

/-- The image, with what is around it. -/
def imageArgs (imageTag : Text) : List Text :=
  [ofString "--entrypoint", ofString "bash", imageTag, ofString "-c", ofString "exec bun run /app/src/index.ts"]

def appendImageAndCommand (flagArgs : List Text) (imageTag : Text) : List Text := flagArgs ++ imageArgs imageTag

def firstArgs (host : Host) (x : Spawn) : List Text :=
  [ofString "run", ofString "--rm", ofString "--name", x.containerName, ofString "--label", host.installLabel] ++
    ociRuntimeArgs host x.config.ociRuntime ++ resourceArgs x.config

/-- The arguments before those of OneCLI. -/
def argsBeforeOneCli (host : Host) (x : Spawn) (operator : List (Text × Text)) : List Text :=
  firstArgs host x ++ envArgs (ownEnv host x.provider) ++ envArgs operator ++
    envArgs (buildRunnerTracingEnv x.carrier host.env) ++ envArgs x.providerEnv

/-- The arguments of `docker run`; `none` is an error. -/
def buildContainerArgs (host : Host) (oneCli : OneCli) (x : Spawn) : Option (List Text) := do
  let operator ← operatorEnv x.config.env
  let args ← applyOneCli host oneCli x (argsBeforeOneCli host x operator)
  let args := args ++ hostGatewayArgs host ++ userArgs host ++ buildSecurityArgs host.env ++
    buildNetworkArgs x.config host.env
  let args := proxyArgs x.signingProxy args ++ mountArgs x.mounts
  some (appendImageAndCommand args (orText x.config.imageTag host.image))

/-! ### What a key is given -/

/-- A key that no option looks like, and that has no `=`. -/
structure IsKey (key : Text) : Prop where
  head : key.head? ≠ some (unit '-')
  ne_nil : key ≠ []
  plain : unit '=' ∉ key

instance (key : Text) : Decidable (IsKey key) :=
  decidable_of_iff (key.head? ≠ some (unit '-') ∧ key ≠ [] ∧ unit '=' ∉ key)
    ⟨fun h => ⟨h.1, h.2.1, h.2.2⟩, fun h => ⟨h.head, h.ne_nil, h.plain⟩⟩

theorem entry_key {key key' rest value : Text} (h : unit '=' ∉ key) (h' : unit '=' ∉ key')
    (heq : entry key rest = entry key' value) : key = key' := by
  rcases List.append_eq_append_iff.mp heq with ⟨more, rfl, hmore⟩ | ⟨more, rfl, hmore⟩
  · cases more with
    | nil => rw [List.append_nil]
    | cons c more =>
      obtain ⟨hc, -⟩ := List.cons.inj hmore
      exact absurd (by simp [← hc]) h'
  · cases more with
    | nil => rw [List.append_nil]
    | cons c more =>
      obtain ⟨hc, -⟩ := List.cons.inj hmore
      exact absurd (by simp [← hc]) h

theorem valueOf_entry {key key' : Text} (h : unit '=' ∉ key) (h' : unit '=' ∉ key') (value : Text) :
    valueOf key (entry key' value) = if key = key' then some value else none := by
  have hprefix : (key ++ [unit '=']).isPrefixOf (entry key' value) = true ↔ key = key' := by
    rw [List.isPrefixOf_iff_prefix]
    constructor
    · intro ⟨rest, hrest⟩
      rw [List.append_assoc, List.singleton_append] at hrest
      exact entry_key h h' hrest
    · rintro rfl
      exact ⟨value, by simp [entry]⟩
  unfold valueOf
  rw [if_congr hprefix rfl rfl]
  split
  · rename_i heq
    subst heq
    simp [entry]
  · rfl

theorem valueOf_plain (key : Text) {word : Text} (h : unit '=' ∉ word) : valueOf key word = none := by
  unfold valueOf
  rw [if_neg]
  intro hprefix
  exact h ((List.isPrefixOf_iff_prefix.mp hprefix).subset (by simp))

theorem valueOf_option {key : Text} (hkey : IsKey key) (word : Text) : valueOf key (unit '-' :: word) = none := by
  unfold valueOf
  rw [if_neg]
  intro hprefix
  obtain ⟨rest, hrest⟩ := List.isPrefixOf_iff_prefix.mp hprefix
  cases hcase : key with
  | nil => exact hkey.ne_nil hcase
  | cons c t =>
    rw [hcase] at hrest
    obtain ⟨hc, -⟩ := List.cons.inj hrest
    exact hkey.head (by rw [hcase, hc]; rfl)

theorem entry_ne_dashE (key value : Text) : entry key value ≠ dashE := by
  intro h
  have hmem : unit '=' ∈ dashE := by
    rw [← h]
    simp [entry]
  exact absurd hmem (by decide)

/-- Words that a key of the host is not given in. -/
abbrev Foreign (key : Text) (words : List Text) : Prop := LastFlag.Foreign IsDashE (valueOf key) words

theorem head_envArgs (key : Text) (env : List (Text × Text)) : ∀ a ∈ (envArgs env).head?, valueOf key a = none := by
  intro a ha
  cases env with
  | nil => cases ha
  | cons p env =>
    obtain rfl := Option.some.inj ha
    exact valueOf_plain key (by decide)

/-- **The last value of entries.** -/
theorem find_envArgs (key : Text) (env : List (Text × Text)) :
    findInjectedEnvValue (envArgs env) key = env.reverse.findSome? fun p => valueOf key (entry p.1 p.2) := by
  have hflag : ∀ v ∈ env.map fun (k, v) => entry k v, ¬ IsDashE v := by
    intro v hv
    obtain ⟨p, -, rfl⟩ := List.mem_map.mp hv
    exact entry_ne_dashE p.1 p.2
  have hdash : IsDashE dashE := rfl
  have hpairs : findInjectedEnvValue (envArgs env) key =
      (env.map fun (k, v) => entry k v).reverse.findSome? (valueOf key) := LastFlag.last_pairs hdash hflag
  rw [hpairs, ← List.map_reverse, List.findSome?_map]
  rfl

theorem find_envArgs_mem {key value : Text} {env : List (Text × Text)} (henv : ∀ p ∈ env, unit '=' ∉ p.1)
    (hnodup : (env.map (·.1)).Nodup) (hmem : (key, value) ∈ env) :
    findInjectedEnvValue (envArgs env) key = some value := by
  have hkey := henv _ hmem
  obtain ⟨after, before, henvs⟩ := List.append_of_mem (List.mem_reverse.mpr hmem)
  rw [find_envArgs, henvs, List.findSome?_append]
  have hafter : (after.findSome? fun p => valueOf key (entry p.1 p.2)) = none := by
    rw [List.findSome?_eq_none_iff]
    intro p hp
    have hpmem : p ∈ env := List.mem_reverse.mp (by rw [henvs]; exact List.mem_append_left _ hp)
    have hne : key ≠ p.1 := by
      rintro rfl
      have hreverse : (env.reverse.map (·.1)).Nodup := by
        rw [List.map_reverse]
        exact List.nodup_reverse.mpr hnodup
      rw [henvs, List.map_append, List.map_cons] at hreverse
      have hdisjoint := (List.nodup_append.mp hreverse).2.2
      exact hdisjoint _ (List.mem_map_of_mem hp) _ List.mem_cons_self rfl
    rw [valueOf_entry hkey (henv p hpmem), if_neg hne]
  rw [hafter, Option.none_or, List.findSome?_cons, valueOf_entry hkey hkey, if_pos rfl]

theorem foreign_envArgs {key : Text} (hkey : unit '=' ∉ key) {env : List (Text × Text)}
    (henv : ∀ p ∈ env, unit '=' ∉ p.1) (hmem : key ∉ env.map (·.1)) : Foreign key (envArgs env) := by
  refine ⟨head_envArgs key env, ?_⟩
  show findInjectedEnvValue (envArgs env) key = none
  rw [find_envArgs, List.findSome?_eq_none_iff]
  intro p hp
  have hp' := List.mem_reverse.mp hp
  have hne : key ≠ p.1 := by
    rintro rfl
    exact hmem (List.mem_map_of_mem hp')
  rw [valueOf_entry hkey (henv p hp'), if_neg hne]

theorem envArgs_append (env env' : List (Text × Text)) : envArgs (env ++ env') = envArgs env ++ envArgs env' := by
  simp [envArgs, LastFlag.pairs]

theorem find_append_env (args : List Text) (env : List (Text × Text)) (key : Text) :
    findInjectedEnvValue (args ++ envArgs env) key =
      (findInjectedEnvValue (envArgs env) key).or (findInjectedEnvValue args key) :=
  LastFlag.last_append fun _ _ _ => head_envArgs key env

theorem find_append_foreign (args : List Text) {key : Text} {words : List Text} (h : Foreign key words) :
    findInjectedEnvValue (args ++ words) key = findInjectedEnvValue args key := LastFlag.last_append_foreign args h

theorem find_env_append {env : List (Text × Text)} (henv : env ≠ []) (args words : List Text) (key : Text) :
    findInjectedEnvValue (args ++ envArgs env ++ words) key =
      (findInjectedEnvValue words key).or (findInjectedEnvValue (args ++ envArgs env) key) := by
  refine LastFlag.last_append fun a ha hflag => ?_
  obtain ⟨before, p, rfl⟩ := (List.eq_nil_or_concat env).resolve_left henv
  have hlast : (args ++ envArgs (before ++ [p])).getLast? = some (entry p.1 p.2) := by
    rw [envArgs_append, ← List.append_assoc, List.getLast?_append]
    rfl
  rw [List.concat_eq_append, hlast] at ha
  obtain rfl := Option.some.inj ha
  exact absurd hflag (entry_ne_dashE p.1 p.2)

/-! ### The parts that say nothing -/

theorem foreign_options {key : Text} (hkey : IsKey key) {words : List Text}
    (h : ∀ word ∈ words, word.head? = some (unit '-')) : Foreign key words := by
  refine LastFlag.Foreign.of_value fun word hword => ?_
  have hhead := h word hword
  cases word with
  | nil => cases hhead
  | cons c word =>
    obtain rfl := Option.some.inj hhead
    exact valueOf_option hkey word

theorem foreign_gateway {key : Text} (hkey : IsKey key) (host : Host) : Foreign key (hostGatewayArgs host) := by
  apply foreign_options hkey
  intro word hword
  unfold hostGatewayArgs at hword
  split at hword
  · rw [List.mem_singleton.mp hword]
    rfl
  · cases hword

theorem foreign_security {key : Text} (hkey : IsKey key) (env : String → Option Text) :
    Foreign key (buildSecurityArgs env) := by
  apply foreign_options hkey
  intro word hword
  rcases List.mem_cons.mp hword with rfl | hcap
  · rfl
  · obtain ⟨cap, -, rfl⟩ := List.mem_map.mp hcap
    rfl

theorem foreign_network {key : Text} (config : ContainerSettings) (env : String → Option Text) :
    Foreign key (buildNetworkArgs config env) := by
  unfold buildNetworkArgs
  dsimp only
  split
  · rename_i hvalid
    refine LastFlag.Foreign.of_flag ?_ ?_
    · intro word hword
      obtain rfl := Option.some.inj hword
      exact valueOf_plain key (by decide)
    · intro word hword
      rcases List.mem_cons.mp hword with rfl | hraw
      · decide
      · rw [List.mem_singleton.mp hraw]
        intro hflag
        rw [hflag] at hvalid
        exact absurd hvalid (by decide)
  · exact .nil

theorem colon_ne_dashE (left right : Text) : left ++ unit ':' :: right ≠ dashE := by
  intro h
  have hmem : unit ':' ∈ dashE := by
    rw [← h]
    simp
  exact absurd hmem (by decide)

theorem foreign_mounts {key : Text} (mounts : List VolumeMount) : Foreign key (mountArgs mounts) := by
  refine LastFlag.Foreign.of_flag ?_ ?_
  · intro word hword
    cases mounts with
    | nil => cases hword
    | cons mount mounts =>
      obtain rfl := Option.some.inj hword
      exact valueOf_plain key (by decide)
  · intro word hword
    obtain ⟨mount, -, hmount⟩ := List.mem_flatMap.mp hword
    rcases List.mem_cons.mp hmount with rfl | hbind
    · decide
    · rw [List.mem_singleton.mp hbind]
      split
      · rw [List.append_assoc, List.cons_append]
        exact colon_ne_dashE _ _
      · exact colon_ne_dashE _ _

theorem foreign_image {key : Text} (imageTag : Text) : Foreign key (imageArgs imageTag) := by
  have hentrypoint : valueOf key (ofString "--entrypoint") = none := valueOf_plain key (by decide)
  have hcommand : valueOf key (ofString "-c") = none := valueOf_plain key (by decide)
  refine ⟨?_, ?_⟩
  · intro word hword
    obtain rfl := Option.some.inj hword
    exact hentrypoint
  · have hc : ¬ IsDashE (ofString "-c") := by decide
    have hbash : ¬ IsDashE (ofString "bash") := by decide
    have hfirst : ¬ IsDashE (ofString "--entrypoint") := by decide
    unfold imageArgs
    rw [LastFlag.last_cons_cons, LastFlag.last_cons_cons, LastFlag.last_cons_cons, LastFlag.last_cons_cons, if_neg hc,
      if_neg hbash, if_neg hfirst, hcommand, ite_self]
    rfl

theorem foreign_userFlag {key : Text} (host : Host) : Foreign key (userFlag host) := by
  unfold userFlag
  split
  · refine LastFlag.Foreign.of_flag ?_ ?_
    · intro word hword
      obtain rfl := Option.some.inj hword
      exact valueOf_plain key (by decide)
    · intro word hword
      rcases List.mem_cons.mp hword with rfl | huser
      · decide
      · rw [List.mem_singleton.mp huser]
        exact colon_ne_dashE _ _
  · exact .nil

/-! ### The keys of the host -/

def ownKeys : List Text := [ofString "TZ", ofString "BRAND_NAMESPACE", ofString "AGENTDESK_EXECUTION_PROVIDER"]

def traceKeys : List Text :=
  [ofString "OTEL_TRACEPARENT"] ++ ([ofString "OTEL_TRACESTATE"] ++ [ofString "OTEL_EXPORTER_OTLP_TRACES_ENDPOINT"]) ++
    [ofString "OTEL_SDK_DISABLED"] ++ [ofString "OTEL_CAPTURE_CONTENT"]

def proxyKeys : List Text := [ofString "AGENTDESK_GATEWAY_PROXY_URL", ofString "AGENTDESK_GATEWAY_PROXY_TOKEN"]

def noProxyKeys : List Text := [ofString "NO_PROXY", ofString "no_proxy"]

/-- All the keys, one after another. -/
def keys : List Text :=
  ownKeys ++ traceKeys ++ [ofString "HOME"] ++ proxyKeys ++ noProxyKeys ++ [ofString "NODE_EXTRA_CA_CERTS"] ++
    [ofString "SSL_CERT_FILE"]

theorem keys_nodup : keys.Nodup := by decide

theorem keys_isKey : ∀ key ∈ keys, IsKey key := by decide

theorem ownKeys_sublist : ownKeys.Sublist keys := by
  simp only [keys, List.append_assoc]
  exact List.sublist_append_left _ _

theorem traceKeys_sublist : traceKeys.Sublist keys := by
  simp only [keys, List.append_assoc]
  exact (List.sublist_append_left _ _).trans (List.sublist_append_right _ _)

theorem proxyKeys_sublist : proxyKeys.Sublist keys := by
  have hlast := List.sublist_append_right (ownKeys ++ traceKeys ++ [ofString "HOME"]) proxyKeys
  simp only [keys, List.append_assoc] at hlast ⊢
  exact hlast.trans (List.append_sublist_append_left _ |>.mpr (by simp))

theorem noProxyKeys_subset : noProxyKeys ⊆ keys := by
  intro name hname
  simp [keys, hname]

theorem home_mem : ofString "HOME" ∈ keys := by simp [keys]

theorem certificate_mem : ofString "SSL_CERT_FILE" ∈ keys := by simp [keys]

theorem keys_apart : (∀ key ∈ ownKeys, ∀ name ∈ traceKeys, name ≠ key) ∧
    (∀ key ∈ ownKeys ++ traceKeys, ∀ name ∈ [ofString "NODE_EXTRA_CA_CERTS"] ++ [ofString "HOME"] ++ proxyKeys ++
      noProxyKeys ++ [ofString "SSL_CERT_FILE"], name ≠ key) ∧
    (∀ key ∈ proxyKeys, key ∉ noProxyKeys) ∧ ofString "HOME" ∉ proxyKeys ∧ ofString "HOME" ∉ noProxyKeys := by
  have hnodup := keys_nodup
  simp only [keys, List.nodup_append] at hnodup
  grind

theorem foreign_keys {key : Text} (hkey : key ∈ keys) {env : List (Text × Text)} {names : List Text}
    (henv : (env.map (·.1)).Sublist names) (hnames : ∀ name ∈ names, name ∈ keys ∧ name ≠ key) :
    Foreign key (envArgs env) := by
  refine foreign_envArgs (keys_isKey key hkey).plain ?_ ?_
  · intro p hp
    exact (keys_isKey p.1 (hnames p.1 (henv.subset (List.mem_map_of_mem hp))).1).plain
  · intro hmem
    exact (hnames key (henv.subset hmem)).2 rfl

theorem find_keys {env : List (Text × Text)} {names : List Text} (henv : (env.map (·.1)).Sublist names)
    (hnames : names ⊆ keys) (hnodup : names.Nodup) {p : Text × Text} (hp : p ∈ env) :
    findInjectedEnvValue (envArgs env) p.1 = some p.2 := by
  refine find_envArgs_mem ?_ (henv.nodup hnodup) hp
  intro q hq
  exact (keys_isKey q.1 (hnames (henv.subset (List.mem_map_of_mem hq)))).plain

theorem optionalEnv_keys (key : String) (value : Option Text) :
    ((optionalEnv key value).map (·.1)).Sublist [ofString key] := by
  unfold optionalEnv
  split
  · exact List.Sublist.refl _
  · exact List.nil_sublist _

theorem trace_keys (carrier : TraceCarrier) (env : String → Option Text) :
    ((buildRunnerTracingEnv carrier env).map (·.1)).Sublist traceKeys := by
  unfold buildRunnerTracingEnv traceKeys
  rw [List.map_append, List.map_append]
  refine List.Sublist.append (List.Sublist.append ?_ (optionalEnv_keys _ _)) (optionalEnv_keys _ _)
  split
  · rw [List.map_cons, List.map_append]
    have hendpoint : [ofString "OTEL_EXPORTER_OTLP_TRACES_ENDPOINT"].Sublist
        [ofString "OTEL_EXPORTER_OTLP_TRACES_ENDPOINT"] := List.Sublist.refl _
    exact List.Sublist.append (List.Sublist.refl [ofString "OTEL_TRACEPARENT"])
      (List.Sublist.append (optionalEnv_keys "OTEL_TRACESTATE" carrier.tracestate) hendpoint)
  · exact List.nil_sublist _

theorem own_keys (host : Host) (provider : Text) : ((ownEnv host provider).map (·.1)).Sublist ownKeys := List.Sublist.refl _

theorem home_keys (host : Host) : ((homeEnv host).map (·.1)).Sublist [ofString "HOME"] := by
  unfold homeEnv
  split
  · exact List.Sublist.refl _
  · exact List.nil_sublist _

theorem proxy_keys (signingProxy : Option SpawnSigningProxy) : ((proxyEnv signingProxy).map (·.1)).Sublist proxyKeys := by
  cases signingProxy with
  | none => exact List.nil_sublist _
  | some proxy => exact List.Sublist.refl _

theorem proxyArgs_eq (signingProxy : Option SpawnSigningProxy) (args : List Text) :
    ∃ noProxy : List (Text × Text), (noProxy.map (·.1)).Sublist noProxyKeys ∧
      proxyArgs signingProxy args = args ++ envArgs (proxyEnv signingProxy) ++ envArgs noProxy := by
  cases signingProxy with
  | none => exact ⟨[], List.nil_sublist _, by simp [proxyArgs, proxyEnv, envArgs, LastFlag.pairs]⟩
  | some proxy => exact ⟨_, List.Sublist.refl _, rfl⟩

/-! ### What OneCLI appends -/

/-- What OneCLI appends to the arguments before it, if it is asked. -/
def appendedArgs (host : Host) (oneCli : OneCli) (x : Spawn) (operator : List (Text × Text)) : List Text :=
  if shouldApplyOneCliGateway (roleProviders x) (openaiViaOneCliEnabled host) then
    ((oneCli.applyContainerConfig (argsBeforeOneCli host x operator)).map (·.1)).getD []
  else []

theorem lowerName_lowerName (t : Text) : lowerName (lowerName t) = lowerName t := by
  unfold lowerName
  rw [List.map_map]
  refine List.map_congr_left fun c _ => ?_
  have hA : unit 'A' = 65 := rfl
  have hZ : unit 'Z' = 90 := rfl
  have hk : unit 'k' = 107 := rfl
  have h65 : (65 : UInt16).toNat = 65 := rfl
  have h90 : (90 : UInt16).toNat = 90 := rfl
  simp only [Function.comp_apply, hA, hZ, hk, UInt16.le_iff_toNat_le, h65, h90]
  by_cases hupper : 65 ≤ c.toNat ∧ c.toNat ≤ 90
  · have hsum : (c + 32).toNat = c.toNat + 32 := by
      rw [UInt16.toNat_add]
      show (c.toNat + 32) % 65536 = c.toNat + 32
      omega
    have hkelvin : c + 32 ≠ 8490 := by
      intro h
      have hnat : (c + 32).toNat = 8490 := by
        rw [h]
        rfl
      omega
    rw [if_pos hupper, if_neg (by omega), if_neg hkelvin]
  · by_cases hkelvin : c = 8490
    · rw [if_neg hupper, if_pos hkelvin]
      decide
    · rw [if_neg hupper, if_neg hkelvin, if_neg hupper, if_neg hkelvin]

theorem shouldApply_of_vault {host : Host} {x : Spawn} (h : openaiViaVault host x = true) :
    shouldApplyOneCliGateway (roleProviders x) (openaiViaOneCliEnabled host) = true := by
  obtain ⟨name, hname, hroute⟩ := List.any_eq_true.mp h
  rw [routeOpenAiThroughVault, Bool.and_eq_true] at hroute
  obtain ⟨henabled, hopenai⟩ := hroute
  refine List.any_eq_true.mpr ⟨name, hname, ?_⟩
  have hmock : lowerName name ≠ ofString "mock" := by
    intro hmock
    rw [isOpenAiCompatibleProvider, hmock] at hopenai
    exact absurd hopenai (by decide)
  have hlower : isOpenAiCompatibleProvider (lowerName name) = true := by
    rw [isOpenAiCompatibleProvider, lowerName_lowerName]
    exact hopenai
  rw [if_neg hmock, if_pos hlower, henabled]

/-- **The arguments with those of OneCLI**, and in the vault a certificate that is found among them. -/
theorem applyOneCli_eq {host : Host} {oneCli : OneCli} {x : Spawn} {operator : List (Text × Text)} {args : List Text}
    (h : applyOneCli host oneCli x (argsBeforeOneCli host x operator) = some args) :
    ∃ ca : List (Text × Text), (ca.map (·.1)).Sublist [ofString "NODE_EXTRA_CA_CERTS"] ∧
      args = argsBeforeOneCli host x operator ++ appendedArgs host oneCli x operator ++ envArgs ca ∧
      (openaiViaVault host x = true → ∃ path, path ≠ [] ∧ findInjectedEnvValue
        (argsBeforeOneCli host x operator ++ appendedArgs host oneCli x operator) (ofString "SSL_CERT_FILE") =
          some path) := by
  unfold applyOneCli at h
  by_cases happly : shouldApplyOneCliGateway (roleProviders x) (openaiViaOneCliEnabled host) = true
  · have hnot : ¬ (!shouldApplyOneCliGateway (roleProviders x) (openaiViaOneCliEnabled host)) = true := by
      rw [happly]
      exact nofun
    rw [if_neg hnot] at h
    unfold appendedArgs
    rw [if_pos happly]
    split at h
    · cases h
    · split at h
      · cases h
      · cases h
      · rename_i appended happlied
        rw [happlied]
        split at h
        · split at h
          · cases h
          · cases h
          · rename_i path hne hfound
            refine ⟨[(ofString "NODE_EXTRA_CA_CERTS", path)], List.Sublist.refl _, (Option.some.inj h).symm, fun _ =>
              ⟨path, ?_, hfound⟩⟩
            exact hne
        · rename_i hvault
          refine ⟨[], List.nil_sublist _, ?_, fun h => absurd h hvault⟩
          exact (Option.some.inj h).symm.trans (List.append_nil _).symm
  · have hnone : appendedArgs host oneCli x operator = [] := if_neg happly
    rw [if_pos (by simpa using happly)] at h
    refine ⟨[], List.nil_sublist _, ?_, fun hvault => absurd (shouldApply_of_vault hvault) happly⟩
    rw [hnone, List.append_nil]
    exact (Option.some.inj h).symm.trans (List.append_nil _).symm

/-! ### What the host sets -/

/-- The entries of the host's own. -/
def hostEnv (host : Host) (x : Spawn) : List (Text × Text) :=
  ownEnv host x.provider ++ buildRunnerTracingEnv x.carrier host.env ++ homeEnv host ++ proxyEnv x.signingProxy

/-- No entry after the image, which is third from the end; of each key of the host the last value is the host's; and
with a role in the vault the certificate is from OneCLI. -/
structure HostEnvKept (host : Host) (oneCli : OneCli) (x : Spawn) (argv : List Text) : Prop where
  image : argv[argv.length - 3]? = some (orText x.config.imageTag host.image)
  before : ∀ i key value, argv[i]? = some dashE → argv[i + 1]? = some (entry key value) → i + 1 < argv.length - 3
  values : ∀ p ∈ hostEnv host x, findInjectedEnvValue argv p.1 = some p.2
  vault : openaiViaVault host x = true → ∀ operator, operatorEnv x.config.env = some operator →
    (findInjectedEnvValue (appendedArgs host oneCli x operator) (ofString "SSL_CERT_FILE")).isSome = true

/-- What is pushed after the host's first three keys gives them no other value; what is pushed after those of the
trace gives these no other value; and for the vault OneCLI gives a certificate, or there is none at all before. -/
structure Unopposed (host : Host) (oneCli : OneCli) (x : Spawn) (operator : List (Text × Text)) : Prop where
  own : ∀ p ∈ ownEnv host x.provider, ∀ v, findInjectedEnvValue
    (envArgs (operator ++ x.providerEnv) ++ appendedArgs host oneCli x operator) p.1 = some v → v = p.2
  trace : ∀ p ∈ buildRunnerTracingEnv x.carrier host.env, ∀ v, findInjectedEnvValue
    (envArgs x.providerEnv ++ appendedArgs host oneCli x operator) p.1 = some v → v = p.2
  vault : openaiViaVault host x = true →
    (findInjectedEnvValue (appendedArgs host oneCli x operator) (ofString "SSL_CERT_FILE")).isSome = true ∨
      ∀ v, findInjectedEnvValue (envArgs (operator ++ x.providerEnv)) (ofString "SSL_CERT_FILE") = some v → v = []

theorem buildContainerArgs_eq {host : Host} {oneCli : OneCli} {x : Spawn} {argv : List Text}
    (h : buildContainerArgs host oneCli x = some argv) :
    ∃ operator ca noProxy, operatorEnv x.config.env = some operator ∧
      (ca.map (·.1)).Sublist [ofString "NODE_EXTRA_CA_CERTS"] ∧ (noProxy.map (·.1)).Sublist noProxyKeys ∧
      (openaiViaVault host x = true → ∃ path, path ≠ [] ∧ findInjectedEnvValue
        (argsBeforeOneCli host x operator ++ appendedArgs host oneCli x operator) (ofString "SSL_CERT_FILE") =
          some path) ∧
      argv = argsBeforeOneCli host x operator ++ appendedArgs host oneCli x operator ++ envArgs ca ++
        hostGatewayArgs host ++ userFlag host ++ envArgs (homeEnv host) ++ buildSecurityArgs host.env ++
        buildNetworkArgs x.config host.env ++ envArgs (proxyEnv x.signingProxy) ++ envArgs noProxy ++
        mountArgs x.mounts ++ imageArgs (orText x.config.imageTag host.image) := by
  obtain ⟨operator, hoperator, h⟩ := Option.bind_eq_some_iff.mp h
  obtain ⟨args, hargs, h⟩ := Option.bind_eq_some_iff.mp h
  obtain ⟨ca, hca, rfl, hvault⟩ := applyOneCli_eq hargs
  obtain ⟨noProxy, hnoProxy, hproxy⟩ := proxyArgs_eq x.signingProxy (argsBeforeOneCli host x operator ++
    appendedArgs host oneCli x operator ++ envArgs ca ++ hostGatewayArgs host ++ userArgs host ++
    buildSecurityArgs host.env ++ buildNetworkArgs x.config host.env)
  refine ⟨operator, ca, noProxy, hoperator, hca, hnoProxy, hvault, ?_⟩
  have hargv := (Option.some.inj h).symm
  rw [hproxy] at hargv
  simp only [userArgs, appendImageAndCommand, ← List.append_assoc] at hargv
  exact hargv

section Find

variable {host : Host} {x : Spawn} {key : Text}

theorem foreign_end (hkey : key ∈ keys) (hno : key ∉ noProxyKeys) {noProxy : List (Text × Text)}
    (hnoProxy : (noProxy.map (·.1)).Sublist noProxyKeys) (mounts : List VolumeMount) (imageTag : Text) :
    Foreign key (envArgs noProxy ++ mountArgs mounts ++ imageArgs imageTag) := by
  have hnames : ∀ name ∈ noProxyKeys, name ∈ keys ∧ name ≠ key := by
    intro name hname
    exact ⟨noProxyKeys_subset hname, fun heq => hno (heq ▸ hname)⟩
  exact ((foreign_keys hkey hnoProxy hnames).append (foreign_mounts mounts)).append (foreign_image imageTag)

theorem foreign_late (hkey : key ∈ keys) (hproxy : key ∉ proxyKeys) (hno : key ∉ noProxyKeys)
    {noProxy : List (Text × Text)} (hnoProxy : (noProxy.map (·.1)).Sublist noProxyKeys) (imageTag : Text) :
    Foreign key (buildSecurityArgs host.env ++ buildNetworkArgs x.config host.env ++ envArgs (proxyEnv x.signingProxy) ++
      (envArgs noProxy ++ mountArgs x.mounts ++ imageArgs imageTag)) := by
  have hnames : ∀ name ∈ proxyKeys, name ∈ keys ∧ name ≠ key := by
    intro name hname
    exact ⟨proxyKeys_sublist.subset hname, fun heq => hproxy (heq ▸ hname)⟩
  have hfirst := (foreign_security (keys_isKey key hkey) host.env).append (foreign_network x.config host.env)
  exact (hfirst.append (foreign_keys hkey (proxy_keys x.signingProxy) hnames)).append
    (foreign_end hkey hno hnoProxy x.mounts imageTag)

variable (host x) in
theorem foreign_after (hkey : key ∈ ownKeys ++ traceKeys) {ca noProxy : List (Text × Text)}
    (hca : (ca.map (·.1)).Sublist [ofString "NODE_EXTRA_CA_CERTS"])
    (hnoProxy : (noProxy.map (·.1)).Sublist noProxyKeys) (imageTag : Text) :
    Foreign key (envArgs ca ++ hostGatewayArgs host ++ userFlag host ++ envArgs (homeEnv host) ++
      (buildSecurityArgs host.env ++ buildNetworkArgs x.config host.env ++ envArgs (proxyEnv x.signingProxy) ++
        (envArgs noProxy ++ mountArgs x.mounts ++ imageArgs imageTag))) := by
  have hkeys : key ∈ keys := by
    rcases List.mem_append.mp hkey with hown | htrace
    · exact ownKeys_sublist.subset hown
    · exact traceKeys_sublist.subset htrace
  have hother : ∀ name ∈ [ofString "NODE_EXTRA_CA_CERTS"] ++ [ofString "HOME"] ++ proxyKeys ++ noProxyKeys,
      name ∈ keys ∧ name ≠ key := by
    intro name hname
    refine ⟨?_, keys_apart.2.1 key hkey name (List.mem_append_left _ hname)⟩
    simp only [List.mem_append, keys] at hname ⊢
    tauto
  have hproxy : key ∉ proxyKeys := fun h => (hother key (by simp [h])).2 rfl
  have hno : key ∉ noProxyKeys := fun h => (hother key (by simp [h])).2 rfl
  have hcaForeign : Foreign key (envArgs ca) := foreign_keys hkeys hca fun name hname => hother name (by simp_all)
  have hhomeForeign : Foreign key (envArgs (homeEnv host)) :=
    foreign_keys hkeys (home_keys host) fun name hname => hother name (by simp_all)
  exact (((hcaForeign.append (foreign_gateway (keys_isKey key hkeys) host)).append (foreign_userFlag host)).append
    hhomeForeign).append (foreign_late hkeys hproxy hno hnoProxy imageTag)

theorem argsBeforeOneCli_eq (operator : List (Text × Text)) : argsBeforeOneCli host x operator =
    firstArgs host x ++ envArgs (ownEnv host x.provider ++ operator ++ buildRunnerTracingEnv x.carrier host.env ++
      x.providerEnv) := by
  simp only [argsBeforeOneCli, envArgs_append, List.append_assoc]

theorem find_before (operator : List (Text × Text)) (words : List Text) (key : Text) :
    findInjectedEnvValue (argsBeforeOneCli host x operator ++ words) key =
      (findInjectedEnvValue words key).or ((findInjectedEnvValue (envArgs x.providerEnv) key).or
        ((findInjectedEnvValue (envArgs (buildRunnerTracingEnv x.carrier host.env)) key).or
          ((findInjectedEnvValue (envArgs operator) key).or
            ((findInjectedEnvValue (envArgs (ownEnv host x.provider)) key).or
              (findInjectedEnvValue (firstArgs host x) key))))) := by
  have hne : ownEnv host x.provider ++ operator ++ buildRunnerTracingEnv x.carrier host.env ++ x.providerEnv ≠ [] :=
    List.cons_ne_nil _ _
  rw [argsBeforeOneCli_eq, find_env_append hne, ← argsBeforeOneCli_eq, argsBeforeOneCli, find_append_env, find_append_env,
    find_append_env, find_append_env]

theorem find_envArgs_words (env : List (Text × Text)) (words : List Text) (key : Text) :
    findInjectedEnvValue (envArgs env ++ words) key =
      (findInjectedEnvValue words key).or (findInjectedEnvValue (envArgs env) key) := by
  cases env with
  | nil => exact (Option.or_none).symm
  | cons p env => exact find_env_append (List.cons_ne_nil p env) [] words key

theorem find_envArgs_append (env env' : List (Text × Text)) (key : Text) :
    findInjectedEnvValue (envArgs (env ++ env')) key =
      (findInjectedEnvValue (envArgs env') key).or (findInjectedEnvValue (envArgs env) key) := by
  rw [envArgs_append, find_append_env]

theorem or_some_iff {later : Option Text} {v : Text} : later.or (some v) = some v ↔ ∀ w, later = some w → w = v := by
  cases later with
  | none => simp
  | some w => simp [Option.or]

/-- **The last value of one of the host's first keys.** -/
theorem find_own {p : Text × Text} (hp : p ∈ ownEnv host x.provider) (operator : List (Text × Text)) (words : List Text) :
    findInjectedEnvValue (argsBeforeOneCli host x operator ++ words) p.1 =
      (findInjectedEnvValue (envArgs (operator ++ x.providerEnv) ++ words) p.1).or (some p.2) := by
  have hown := find_keys (own_keys host x.provider) ownKeys_sublist.subset (ownKeys_sublist.nodup keys_nodup) hp
  have hkey : p.1 ∈ ownKeys := (own_keys host x.provider).subset (List.mem_map_of_mem hp)
  have htrace : Foreign p.1 (envArgs (buildRunnerTracingEnv x.carrier host.env)) := by
    refine foreign_keys (ownKeys_sublist.subset hkey) (trace_keys x.carrier host.env) ?_
    intro name hname
    exact ⟨traceKeys_sublist.subset hname, keys_apart.1 _ hkey name hname⟩
  have hsilent : findInjectedEnvValue (envArgs (buildRunnerTracingEnv x.carrier host.env)) p.1 = none := htrace.silent
  rw [find_before, hown, hsilent, find_envArgs_words, find_envArgs_append]
  simp only [Option.none_or, Option.some_or, Option.or_assoc]

/-- **The last value of a key of the trace.** -/
theorem find_trace {p : Text × Text} (hp : p ∈ buildRunnerTracingEnv x.carrier host.env) (operator : List (Text × Text))
    (words : List Text) :
    findInjectedEnvValue (argsBeforeOneCli host x operator ++ words) p.1 =
      (findInjectedEnvValue (envArgs x.providerEnv ++ words) p.1).or (some p.2) := by
  have htrace := find_keys (trace_keys x.carrier host.env) traceKeys_sublist.subset
    (traceKeys_sublist.nodup keys_nodup) hp
  rw [find_before, htrace, find_envArgs_words]
  simp only [Option.some_or, Option.or_assoc]

theorem find_firstArgs (hkey : IsKey key) : findInjectedEnvValue (firstArgs host x) key = none := by
  have hoci : ∀ word ∈ ociRuntimeArgs host x.config.ociRuntime, word.head? = some (unit '-') := by
    intro word hword
    unfold ociRuntimeArgs at hword
    dsimp only at hword
    split at hword
    · rw [List.mem_singleton.mp hword]
      rfl
    · cases hword
  have hresources : ∀ word ∈ resourceArgs x.config, word.head? = some (unit '-') := by
    intro word hword
    simp only [resourceArgs, List.mem_append] at hword
    rcases hword with (hmemory | hcpus) | hpids
    · cases hcase : x.config.memoryMb with
      | none => simp [hcase] at hmemory
      | some memoryMb =>
        simp only [hcase, List.mem_cons, List.not_mem_nil, or_false] at hmemory
        rcases hmemory with rfl | rfl <;> rfl
    · cases hcase : x.config.cpus with
      | none => simp [hcase] at hcpus
      | some cpus =>
        simp only [hcase, List.mem_singleton] at hcpus
        rw [hcpus]
        rfl
    · cases hcase : x.config.pidsLimit with
      | none => simp [hcase] at hpids
      | some pidsLimit =>
        simp only [hcase, List.mem_singleton] at hpids
        rw [hpids]
        rfl
  have hlabel : valueOf key (ofString "--label") = none := valueOf_plain key (by decide)
  have hrun : ¬ IsDashE (ofString "run") := by decide
  have hrm : ¬ IsDashE (ofString "--rm") := by decide
  have hname : ¬ IsDashE (ofString "--name") := by decide
  have hlabelFlag : ¬ IsDashE (ofString "--label") := by decide
  unfold firstArgs
  rw [find_append_foreign _ (foreign_options hkey hresources), find_append_foreign _ (foreign_options hkey hoci),
    findInjectedEnvValue]
  simp only [LastFlag.last_cons_cons, if_neg hrun, if_neg hrm, if_neg hname, if_neg hlabelFlag, hlabel, ite_self,
    Option.or_none]
  rfl

/-- **The certificate that is found.** -/
theorem find_certificate (operator : List (Text × Text)) (words : List Text) :
    findInjectedEnvValue (argsBeforeOneCli host x operator ++ words) (ofString "SSL_CERT_FILE") =
      (findInjectedEnvValue words (ofString "SSL_CERT_FILE")).or
        (findInjectedEnvValue (envArgs (operator ++ x.providerEnv)) (ofString "SSL_CERT_FILE")) := by
  have hother : ∀ name ∈ ownKeys ++ traceKeys, name ≠ ofString "SSL_CERT_FILE" := by
    intro name hname
    exact (keys_apart.2.1 name hname _ (by simp)).symm
  have hown : ∀ name ∈ ownKeys, name ∈ keys ∧ name ≠ ofString "SSL_CERT_FILE" :=
    fun name hname => ⟨ownKeys_sublist.subset hname, hother name (List.mem_append_left _ hname)⟩
  have htrace : ∀ name ∈ traceKeys, name ∈ keys ∧ name ≠ ofString "SSL_CERT_FILE" :=
    fun name hname => ⟨traceKeys_sublist.subset hname, hother name (List.mem_append_right _ hname)⟩
  have hownForeign := (foreign_keys certificate_mem (own_keys host x.provider) hown).silent
  have htraceForeign := (foreign_keys certificate_mem (trace_keys x.carrier host.env) htrace).silent
  rw [← findInjectedEnvValue] at hownForeign htraceForeign
  rw [find_before, hownForeign, htraceForeign, find_firstArgs (keys_isKey _ certificate_mem), find_envArgs_append]
  simp only [Option.none_or, Option.or_none]

end Find

/-! ### The values that are kept -/

/-- **No entry comes after the image.** -/
theorem entries_before_image (flags : List Text) (imageTag : Text) (i : ℕ) (key value : Text)
    (hflag : (flags ++ imageArgs imageTag)[i]? = some dashE)
    (hentry : (flags ++ imageArgs imageTag)[i + 1]? = some (entry key value)) :
    i + 1 < (flags ++ imageArgs imageTag).length - 3 := by
  have hlength : (flags ++ imageArgs imageTag).length = flags.length + 5 := List.length_append
  have hbash : ofString "bash" ≠ dashE := by decide
  have hcommand : unit '=' ∉ ofString "-c" := by decide
  have hc : ofString "-c" ≠ dashE := by decide
  rw [hlength]
  by_contra hlate
  obtain ⟨j, rfl⟩ := Nat.exists_eq_add_of_le (show flags.length + 1 ≤ i by omega)
  rw [List.getElem?_append_right (by omega)] at hflag hentry
  have hj : flags.length + 1 + j - flags.length = j + 1 := by omega
  have hj' : flags.length + 1 + j + 1 - flags.length = j + 2 := by omega
  rw [hj] at hflag
  rw [hj'] at hentry
  rcases j with _ | _ | _ | j
  · exact hbash (Option.some.inj hflag)
  · have hword : ofString "-c" = entry key value := Option.some.inj hentry
    exact hcommand (by simp [hword, entry])
  · exact hc (Option.some.inj hflag)
  · cases hentry

section Kept

variable {host : Host} {oneCli : OneCli} {x : Spawn} {argv : List Text}

theorem find_proxy {p : Text × Text} (hp : p ∈ proxyEnv x.signingProxy) (args : List Text) {noProxy : List (Text × Text)}
    (hnoProxy : (noProxy.map (·.1)).Sublist noProxyKeys) (imageTag : Text) :
    findInjectedEnvValue (args ++ envArgs (proxyEnv x.signingProxy) ++
      (envArgs noProxy ++ mountArgs x.mounts ++ imageArgs imageTag)) p.1 = some p.2 := by
  have hkey := (proxy_keys x.signingProxy).subset (List.mem_map_of_mem hp)
  have hend := foreign_end (proxyKeys_sublist.subset hkey) (keys_apart.2.2.1 _ hkey) hnoProxy x.mounts imageTag
  have hfound := find_keys (proxy_keys x.signingProxy) proxyKeys_sublist.subset (proxyKeys_sublist.nodup keys_nodup) hp
  rw [find_append_foreign _ hend, find_append_env, hfound, Option.some_or]

theorem find_home {p : Text × Text} (hp : p ∈ homeEnv host) (args : List Text) {noProxy : List (Text × Text)}
    (hnoProxy : (noProxy.map (·.1)).Sublist noProxyKeys) (imageTag : Text) :
    findInjectedEnvValue (args ++ envArgs (homeEnv host) ++ (buildSecurityArgs host.env ++
      buildNetworkArgs x.config host.env ++ envArgs (proxyEnv x.signingProxy) ++
        (envArgs noProxy ++ mountArgs x.mounts ++ imageArgs imageTag))) p.1 = some p.2 := by
  have hkey := List.mem_singleton.mp ((home_keys host).subset (List.mem_map_of_mem hp))
  have hlate : Foreign p.1 (buildSecurityArgs host.env ++ buildNetworkArgs x.config host.env ++
      envArgs (proxyEnv x.signingProxy) ++ (envArgs noProxy ++ mountArgs x.mounts ++ imageArgs imageTag)) :=
    foreign_late (hkey ▸ home_mem) (hkey ▸ keys_apart.2.2.2.1) (hkey ▸ keys_apart.2.2.2.2) hnoProxy imageTag
  have hfound := find_keys (home_keys host) (List.cons_subset.mpr ⟨home_mem, List.nil_subset _⟩)
    (List.nodup_singleton _) hp
  rw [find_append_foreign _ hlate, find_append_env, hfound, Option.some_or]

/-- **A container has the host's values exactly when nothing pushed later has others**, and when the certificate of
the vault is not one of the group's or the provider's. -/
theorem host_env_iff (h : buildContainerArgs host oneCli x = some argv) :
    HostEnvKept host oneCli x argv ↔
      ∀ operator, operatorEnv x.config.env = some operator → Unopposed host oneCli x operator := by
  obtain ⟨operator, ca, noProxy, hoperator, hca, hnoProxy, hvault, hargv⟩ := buildContainerArgs_eq h
  have hmiddle : ∀ key ∈ ownKeys ++ traceKeys, findInjectedEnvValue argv key =
      findInjectedEnvValue (argsBeforeOneCli host x operator ++ appendedArgs host oneCli x operator) key := by
    intro key hkey
    have hafter := find_append_foreign (argsBeforeOneCli host x operator ++ appendedArgs host oneCli x operator)
      (foreign_after host x hkey hca hnoProxy (orText x.config.imageTag host.image))
    rw [hargv]
    simp only [List.append_assoc] at hafter ⊢
    exact hafter
  have hown : ∀ p ∈ ownEnv host x.provider, findInjectedEnvValue argv p.1 = some p.2 ↔
      ∀ v, findInjectedEnvValue (envArgs (operator ++ x.providerEnv) ++ appendedArgs host oneCli x operator) p.1 =
        some v → v = p.2 := by
    intro p hp
    have hkey : p.1 ∈ ownKeys := (own_keys host x.provider).subset (List.mem_map_of_mem hp)
    rw [hmiddle p.1 (List.mem_append_left _ hkey), find_own hp, or_some_iff]
  have htrace : ∀ p ∈ buildRunnerTracingEnv x.carrier host.env, findInjectedEnvValue argv p.1 = some p.2 ↔
      ∀ v, findInjectedEnvValue (envArgs x.providerEnv ++ appendedArgs host oneCli x operator) p.1 = some v →
        v = p.2 := by
    intro p hp
    have hkey : p.1 ∈ traceKeys := (trace_keys x.carrier host.env).subset (List.mem_map_of_mem hp)
    rw [hmiddle p.1 (List.mem_append_right _ hkey), find_trace hp, or_some_iff]
  constructor
  · intro hkept operator' hoperator'
    obtain rfl := Option.some.inj (hoperator.symm.trans hoperator')
    refine ⟨fun p hp => (hown p hp).mp (hkept.values p ?_), fun p hp => (htrace p hp).mp (hkept.values p ?_),
      fun hv => .inl (hkept.vault hv operator hoperator)⟩
    · exact List.mem_append_left _ (List.mem_append_left _ (List.mem_append_left _ hp))
    · exact List.mem_append_left _ (List.mem_append_left _ (List.mem_append_right _ hp))
  · intro hall
    obtain ⟨hunopposed, htraceUnopposed, hcertificate⟩ := hall operator hoperator
    refine ⟨?_, ?_, ?_, ?_⟩
    · rw [hargv, List.length_append, List.getElem?_append_right (by simp [imageArgs])]
      simp [imageArgs]
    · intro i key value hflag hentry
      rw [hargv] at hflag hentry ⊢
      exact entries_before_image _ _ i key value hflag hentry
    · intro p hp
      rcases List.mem_append.mp hp with hp | hp
      · rcases List.mem_append.mp hp with hp | hp
        · rcases List.mem_append.mp hp with hp | hp
          · exact (hown p hp).mpr (hunopposed p hp)
          · exact (htrace p hp).mpr (htraceUnopposed p hp)
        · have hhome := find_home (x := x) hp (argsBeforeOneCli host x operator ++ appendedArgs host oneCli x operator ++
            envArgs ca ++ hostGatewayArgs host ++ userFlag host) hnoProxy (orText x.config.imageTag host.image)
          rw [hargv]
          simp only [List.append_assoc] at hhome ⊢
          exact hhome
      · have hproxy := find_proxy hp (argsBeforeOneCli host x operator ++ appendedArgs host oneCli x operator ++
          envArgs ca ++ hostGatewayArgs host ++ userFlag host ++ envArgs (homeEnv host) ++ buildSecurityArgs host.env ++
          buildNetworkArgs x.config host.env) hnoProxy (orText x.config.imageTag host.image)
        rw [hargv]
        simp only [List.append_assoc] at hproxy ⊢
        exact hproxy
    · intro hv operator' hoperator'
      obtain rfl := Option.some.inj (hoperator.symm.trans hoperator')
      rcases hcertificate hv with hinjected | hempty
      · exact hinjected
      · -- without one from OneCLI there would be none, and no container
        obtain ⟨path, hpath, hfound⟩ := hvault hv
        rw [find_certificate] at hfound
        cases hinjected : findInjectedEnvValue (appendedArgs host oneCli x operator) (ofString "SSL_CERT_FILE") with
        | some v => rfl
        | none =>
          rw [hinjected, Option.none_or] at hfound
          exact absurd (hempty path hfound) hpath

end Kept

/-- A host without settings. -/
def plainHost : Host where
  timezone := ofString "UTC"
  protocolNamespace := ofString "agentdesk"
  installLabel := ofString "agentdesk-install=main"
  image := ofString "agentdesk-agent:latest"
  linux := true
  uid := some 1000
  gid := some 1000
  env := fun _ => none
  dotenv := fun _ => none

def noOneCli : OneCli := ⟨fun _ => true, fun _ => none⟩

/-- A container of the offline provider, with one entry in its group's environment. -/
def mockSpawn (key value : String) : Spawn where
  mounts := [⟨ofString "/data/session", ofString "/workspace", false⟩]
  containerName := ofString "agentdesk-v2-main-1"
  config := ⟨none, none, none, none, some (.obj [(ofString key, .str (ofString value))]), none, none, none⟩
  provider := ofString "mock"
  providerEnv := []
  agentIdentifier := some (ofString "ag-1")
  signingProxy := none
  carrier := ⟨none, none⟩

theorem host_env_iff_camera : ∃ argv,
    buildContainerArgs plainHost noOneCli (mockSpawn "CAMERA_BASE_URL" "http://camera") = some argv ∧
      (HostEnvKept plainHost noOneCli (mockSpawn "CAMERA_BASE_URL" "http://camera") argv ↔
        ∀ operator, operatorEnv (mockSpawn "CAMERA_BASE_URL" "http://camera").config.env = some operator →
          Unopposed plainHost noOneCli (mockSpawn "CAMERA_BASE_URL" "http://camera") operator) := by
  have hbuilt : (buildContainerArgs plainHost noOneCli (mockSpawn "CAMERA_BASE_URL" "http://camera")).isSome := by
    decide
  obtain ⟨argv, hargv⟩ := Option.isSome_iff_exists.mp hbuilt
  exact ⟨argv, hargv, host_env_iff hargv⟩

/-- A group whose `container.json` has an entry `TZ` runs in that time zone. -/
theorem timezone_overridden : ¬ ∀ host oneCli x argv, buildContainerArgs host oneCli x = some argv →
    HostEnvKept host oneCli x argv := by
  intro h
  have hfound : (buildContainerArgs plainHost noOneCli (mockSpawn "TZ" "Asia/Tokyo")).bind
      (fun argv => findInjectedEnvValue argv (ofString "TZ")) = some (ofString "Asia/Tokyo") := by
    decide
  obtain ⟨argv, hargv, hvalue⟩ := Option.bind_eq_some_iff.mp hfound
  have hkept := (h _ _ _ _ hargv).values (ofString "TZ", ofString "UTC") List.mem_cons_self
  have hsame : ofString "Asia/Tokyo" = ofString "UTC" := Option.some.inj (hvalue.symm.trans hkept)
  exact absurd hsame (by decide)

end AgentDesk.Docker
