/-
# Requests of an agent to change itself

An agent asks for packages, or for an MCP server, and an admin approves it on a card. The request is the
container's own JSON; the host checks each field, writes it as JSON between two fence lines into the question, and
keeps it as the payload that the approval is about. The card rewrites the question before it shows it.

An approved payload is put into the container config: the packages are appended to the two lists, the server is
set under its name.

Key definitions: `handleInstallPackages`, `handleAddMcpServer`, `applyInstallPackages`, `applyAddMcpServer`.
-/
import AgentDesk.ContainerConfig
import AgentDesk.Feishu
import AgentDesk.JsonCoercion
import AgentDesk.OutboundFields

namespace AgentDesk

open JsonText Js OutboundFields

/-! ### Texts that are taken -/

def within (lo hi : Char) (c : UInt16) : Bool := unit lo ≤ c && c ≤ unit hi

def lowerOrDigit (c : UInt16) : Bool := within 'a' 'z' c || within '0' '9' c

def letter (c : UInt16) : Bool := within 'a' 'z' c || within 'A' 'Z' c

/-- A name: its first unit, and what its other units are. -/
def matchesName (first more : UInt16 → Bool) : Text → Bool
  | [] => false
  | c :: cs => first c && cs.all more

/-- `/^[a-z0-9][a-z0-9._+-]*$/`. -/
def aptName : Text → Bool :=
  matchesName lowerOrDigit fun c => lowerOrDigit c || ['.', '_', '+', '-'].any fun d => c = unit d

/-- `[a-z0-9][a-z0-9._-]*`. -/
def npmPart : Text → Bool :=
  matchesName lowerOrDigit fun c => lowerOrDigit c || ['.', '_', '-'].any fun d => c = unit d

/-- `/^(@[a-z0-9][a-z0-9._-]*\/)?[a-z0-9][a-z0-9._-]*$/`. -/
def npmName (t : Text) : Bool :=
  match t with
  | [] => false
  | c :: cs =>
    if c = unit '@' then
      npmPart (cs.takeWhile fun d => d ≠ unit '/') && npmPart ((cs.dropWhile fun d => d ≠ unit '/').drop 1)
    else npmPart t

/-- `/^[A-Za-z0-9][A-Za-z0-9._-]{0,63}$/`. -/
def mcpName (t : Text) : Bool :=
  t.length ≤ 64 && matchesName (fun c => letter c || within '0' '9' c)
    (fun c => letter c || within '0' '9' c || ['.', '_', '-'].any fun d => c = unit d) t

/-- `/^[A-Za-z_][A-Za-z0-9_]{0,63}$/`. -/
def envKey (t : Text) : Bool :=
  t.length ≤ 64 && matchesName (fun c => letter c || c = unit '_')
    (fun c => letter c || within '0' '9' c || c = unit '_') t

/-- `\p{Cc}`. -/
def controlPoint (n : ℕ) : Bool := n < 0x20 || (0x7f ≤ n && n < 0xa0)

/-- `\p{Cf}`. -/
def formatRanges : List (ℕ × ℕ) :=
  [(0xad, 0xad), (0x600, 0x605), (0x61c, 0x61c), (0x6dd, 0x6dd), (0x70f, 0x70f), (0x890, 0x891), (0x8e2, 0x8e2),
    (0x180e, 0x180e), (0x200b, 0x200f), (0x202a, 0x202e), (0x2060, 0x2064), (0x2066, 0x206f), (0xfeff, 0xfeff),
    (0xfff9, 0xfffb), (0x110bd, 0x110bd), (0x110cd, 0x110cd), (0x13430, 0x1343f), (0x1bca0, 0x1bca3),
    (0x1d173, 0x1d17a), (0xe0001, 0xe0001), (0xe0020, 0xe007f)]

def formatPoint (n : ℕ) : Bool := formatRanges.any fun r => r.1 ≤ n && n ≤ r.2

/-- A code point of `[^\p{Cc}\p{Cf}\p{Zl}\p{Zp}`\\]`. -/
def safePoint (n : ℕ) : Bool :=
  !(controlPoint n || formatPoint n || n = 0x2028 || n = 0x2029 || n = '`'.toNat || n = '\\'.toNat)

/-- `SAFE_TEXT_RE.test`. -/
def safeText (t : Text) : Bool := (characters t).all fun ch => safePoint (codePoint ch)

/-! ### The question -/

def fence : Text := ofString "```"

def disclose (payload : Value) : Text := fence ++ 0x0a :: (pretty 0 payload ++ 0x0a :: fence)

def scrubDisplayName (name : Text) : Text :=
  let trimmed := (trimText ((characters name).filter safeText).flatten).take 64
  if trimmed = [] then ofString "unnamed agent" else trimmed

structure ApprovalRequest where
  agentName : Text
  action : String
  payload : List (Text × Value)
  title : String
  question : Text

/-- What the agent is told of a request that is not taken. -/
def refusal (action : String) (reason : Text) : Text := ofString action ++ ofString " failed: " ++ reason ++ ofString "."

def maxPackages : ℕ := 20

def texts (l : List Text) : Value := .arr (l.map fun t => .str t)

def packageFields (apt npm : List Text) : List (Text × Value) :=
  [(ofString "apt", texts apt), (ofString "npm", texts npm)]

def installQuestion (agentName : Text) (apt npm : List Text) (reason : Text) : Text :=
  ofString "Agent \"" ++ scrubDisplayName agentName ++
    ofString "\" wants to install packages and rebuild its container image.\n" ++
    ofString "This applies to the agent GROUP — every user of this agent gets the new image.\n\n" ++
    ofString "Exactly this will be added to container.json:\n" ++ disclose (.obj (packageFields apt npm)) ++
    if reason = [] then [] else ofString "\n\nReason given by the agent:\n" ++ disclose (.str reason)

/-- A request for packages: what is asked, or what the agent is told. -/
def handleInstallPackages (agentGroup : Option Text) (content : List (Text × Value)) : Except Text ApprovalRequest :=
  match agentGroup with
  | none => .error (ofString "install_packages failed: agent group not found.")
  | some agentName =>
    let refuse := refusal "install_packages"
    let aptOpts : ArrayOpts := { maxItems := some maxPackages, maxLength := some 128, pattern := some aptName }
    let npmOpts : ArrayOpts := { maxItems := some maxPackages, maxLength := some 128, pattern := some npmName }
    let reasonOpts : StringOpts := { maxLength := some 1024, pattern := some safeText }
    (readStringArray content "apt" aptOpts).mapError refuse >>= fun apt =>
    (readStringArray content "npm" npmOpts).mapError refuse >>= fun npm =>
    (OutboundFields.readString content "reason" reasonOpts).mapError refuse >>= fun reason =>
    if apt.length + npm.length = 0 then
      .error (refuse (ofString "at least one apt or npm package is required"))
    else if maxPackages < apt.length + npm.length then
      .error (refuse (ofString "max " ++ decimalText maxPackages ++ ofString " packages per request"))
    else
      .ok { agentName, action := "install_packages"
            payload := packageFields apt npm ++ [(ofString "reason", .str reason)]
            title := "Install Packages Request"
            question := installQuestion agentName apt npm reason }

def entryFields (command : Text) (args : List Text) (env : List (Text × Text)) : List (Text × Value) :=
  [(ofString "command", .str command), (ofString "args", texts args),
    (ofString "env", .obj (env.map fun e => (e.1, .str e.2)))]

def mcpQuestion (agentName name command : Text) (args : List Text) (env : List (Text × Text)) : Text :=
  ofString "Agent \"" ++ scrubDisplayName agentName ++
    ofString "\" wants to wire a new MCP server into its runtime.\n" ++
    ofString "This applies to the agent GROUP — it will run in every user's container for this " ++
    ofString "agent, with the arguments and environment shown below.\n\n" ++
    ofString "Exactly this will be written to container.json under mcpServers.\"" ++ name ++ ofString "\":\n" ++
    disclose (.obj (entryFields command args env))

/-- A request for an MCP server. -/
def handleAddMcpServer (agentGroup : Option Text) (content : List (Text × Value)) : Except Text ApprovalRequest :=
  match agentGroup with
  | none => .error (ofString "add_mcp_server failed: agent group not found.")
  | some agentName =>
    let refuse := refusal "add_mcp_server"
    let nameOpts : StringOpts := { required := true, maxLength := some 64, pattern := some mcpName }
    let commandOpts : StringOpts := { required := true, maxLength := some 256, pattern := some safeText }
    let argsOpts : ArrayOpts := { maxItems := some 32, maxLength := some 512, pattern := some safeText }
    let envOpts : RecordOpts :=
      { maxEntries := some 32, maxLength := some 512, keyPattern := some envKey, valuePattern := some safeText }
    (OutboundFields.readString content "name" nameOpts).mapError refuse >>= fun name =>
    (OutboundFields.readString content "command" commandOpts).mapError refuse >>= fun command =>
    if command = [] then .error (refuse (ofString "\"command\" must not be empty"))
    else
      (readStringArray content "args" argsOpts).mapError refuse >>= fun args =>
      (readStringRecord content "env" envOpts).mapError refuse >>= fun env =>
      .ok { agentName, action := "add_mcp_server"
            payload := (ofString "name", .str name) :: entryFields command args env
            title := "Add MCP Request"
            question := mcpQuestion agentName name command args env }

/-! ### What is applied -/

/-- `...v`: a text is taken apart into its characters. -/
def spread : Value → Except String (List Value)
  | .arr l => .ok l
  | .str t => .ok ((characters t).map fun ch => .str ch)
  | _ => .error "Spread syntax requires an iterable"

/-- `list.push(...items)`. -/
def pushValues (list : Option Value) (items : List Value) : Except String Value :=
  match list with
  | some (.arr l) => .ok (.arr (l ++ items))
  | _ => .error "push is not a function"

/-- One of the lists, when there are packages for it. -/
def pushPackages (key : String) (items : Option Value) (packages : List (Text × Value)) :
    Except String (List (Text × Value)) :=
  match items with
  | none => .ok packages
  | some v =>
    if truthyValue (some v) then
      spread v >>= fun items =>
      (pushValues (field packages key) items).map fun list => insertField packages (ofString key) list
    else .ok packages

/-- The change of the config that an approved request for packages makes. -/
def applyInstallPackages (payload : JsonObject) (config : Properties) : Except String Properties :=
  match config.get (ofString "packages") with
  | some (.obj packages) =>
    (pushPackages "apt" (payload.get (ofString "apt")) packages >>=
      pushPackages "npm" (payload.get (ofString "npm"))).map fun packages =>
        config.set "packages" (some (.obj packages))
  | _ => .error "packages is undefined"

theorem orFallback_ordered {v : Option Value} {fallback : Value} (hv : ∀ x, v = some x → x.Ordered)
    (hfallback : fallback.Ordered) : (orFallback v fallback).Ordered := by
  unfold orFallback
  split
  · cases v with
    | none => exact hfallback
    | some x => exact hv x rfl
  · exact hfallback

/-- The entry that an approved request for a server writes. -/
def mcpEntry (payload : JsonObject) : JsonObject :=
  JsonObject.literal [(ofString "command", payload.get (ofString "command")),
      (ofString "args", some (orFallback (payload.get (ofString "args")) (.arr []))),
      (ofString "env", some (orFallback (payload.get (ofString "env")) (.obj [])))]
    (by
      show InOrder (["command", "args", "env"].map ofString)
      unfold InOrder
      decide +kernel)
    (by
      have hget : ∀ key x, payload.get key = some x → x.Ordered := fun key x hx => lookup_ordered payload.ordered hx
      have hsome : ∀ {x : Value}, x.Ordered → ∀ v, some x = some v → v.Ordered := by
        intro x hx v hv
        obtain rfl := Option.some.inj hv
        exact hx
      have hempty : (Json.obj [] : Value).Ordered := ⟨List.Pairwise.nil, trivial⟩
      simp only [List.forall_mem_cons, List.not_mem_nil, false_implies, implies_true, and_true]
      exact ⟨hget _, hsome (orFallback_ordered (hget _) trivial), hsome (orFallback_ordered (hget _) hempty)⟩)

/-- The change of the config that an approved request for a server makes. No request keeps a payload whose name is
no text. -/
def applyAddMcpServer (payload : JsonObject) (config : Properties) : Except String Properties :=
  match payload.get (ofString "name") with
  | some (.str name) => setMcpServer name (mcpEntry payload) config
  | _ => .error "name is no text"

/-! ### What the card makes of the question -/

/-- `normalizeCardText`, on units. -/
def normalizeCardUnits (t : Text) : Text :=
  JsonText.replaceAll [ofString "\\r\\n", ofString "\\n", ofString "\\r"] [0x0a] 0
    (JsonText.replaceAll [[0x0d, 0x0a], [0x0d]] [0x0a] 0 t)

end AgentDesk
