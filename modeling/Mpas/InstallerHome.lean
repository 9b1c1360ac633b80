import Mpas.InstallerUpdate
import Mpas.Json

/-!
# The files of an MPAS home

`account.json`, the signing key, and the configs that the installer manages: the
signer config and one bridge config for each application, as `mpas init` and
`mpas mcp add` write them.

* `Account`, `signerConfig`, `bridgeConfig`: what the files say;
* `Texts`: how values are written to files, and read back;
* `keyProblems`, `signerProblems`, `bridgeProblems`: the checks of `mpas config validate`.
-/

namespace Mpas.Installer

/-! ## Paths -/

/-- `join(directory, name)` -/
def join (directory name : Path) : Path := directory ++ "/" ++ name

namespace homePaths

variable (home : Path)

def account : Path := join home "account.json"

def keys : Path := join home "keys"

def key : Path := join home "keys/signing-key.json"

def mcpConfigs : Path := join home "mcp-server-configs"

def signerConfig : Path := join home "mcp-server-configs/maintainer-signer-config.json"

def bridgeConfig (app : String) : Path :=
  join home ("mcp-server-configs/" ++ app ++ "-mcp-bridge-config.json")

/-- `artifact` is the artifact's DID without `did:artifact:`. -/
def plugin (app artifact : String) : Path :=
  join home ("plugins/" ++ app ++ "-plugin-" ++ artifact ++ ".json")

def installed (app : String) : Path := join home ("installed/" ++ app ++ ".json")

def liveConfig (app : String) : Path := join home ("config/" ++ app ++ "-adapter-config.json")

def draftConfig (app : String) : Path :=
  join home ("config/drafts/" ++ app ++ "-adapter-config.json")

def workflowDb (app : String) : Path := join home ("workflows/" ++ app ++ ".db")

end homePaths

/-- Where a rotation keeps the key that it replaces. -/
def retiredKey (home : Path) (timestamp : String) : Path :=
  join home ("keys/signing-key.retired-" ++ timestamp ++ ".json")

/-- The rest of a path in the directory or below it. -/
def below? (directory path : Path) : Option (List Char) :=
  if (directory ++ "/").toList.isPrefixOf path.toList then
    some (path.toList.drop (directory ++ "/").toList.length)
  else none

/-- The path is that of a file in the directory itself, with a name that ends so. -/
def isFileIn (directory : Path) (ending : String) (path : Path) : Bool :=
  match below? directory path with
  | some name => !name.contains '/' && endsWith ending path
  | none => false

def isBridgeConfig (home : Path) : Path → Bool :=
  isFileIn (homePaths.mcpConfigs home) "-mcp-bridge-config.json"

/-! ## Texts -/

/-- Of such names `JSON.parse` does not keep the order. -/
def isArrayIndex (name : String) : Bool := name.toList.all Char.isDigit

mutual

/-- The values that are read back as they were written. No file of the home has a number. -/
def isWritten : Json → Bool
  | .num _ => false
  | .arr items => itemsWritten items
  | .obj members => membersWritten members
  | _ => true

def itemsWritten : List Json → Bool
  | [] => true
  | item :: rest => isWritten item && itemsWritten rest

def membersWritten : List (String × Json) → Bool
  | [] => true
  | (name, value) :: rest =>
    (rest.all fun member => decide (member.1 ≠ name)) && !isArrayIndex name && isWritten value &&
      membersWritten rest

end

structure Texts where
  /-- `JSON.stringify(value, null, 2)` and a newline, in UTF-8 -/
  json : Json → List UInt8
  /-- `JSON.parse(text)`; `none` when it throws -/
  parse : List UInt8 → Option Json
  parse_json : ∀ value, isWritten value = true → parse (json value) = some value

/-- `{ ...object, [name]: value }`; of what is not an object nothing is spread. -/
def assign (object : Option Json) (name : String) (value : Json) : Json :=
  match object with
  | some (.obj members) => .obj (OrderedMap.write name value members)
  | _ => .obj [(name, value)]

/-- `value?.[a]?.[b]` -/
def member₂ (value : Json) (a b : String) : Option Json := (value.member a).bind (·.member b)

/-- A member that `JSON.stringify` leaves out when it is undefined. -/
def defined (name : String) (value : Option String) : List (String × Json) :=
  value.toList.map fun s => (name, .str s)

/-! ## The account -/

inductive Role
  | proposer
  | maintainer
  | verifier
  deriving DecidableEq, Repr

def Role.text : Role → String
  | .proposer => "proposer"
  | .maintainer => "maintainer"
  | .verifier => "verifier"

def Role.ofJson : Json → Option Role
  | .str "proposer" => some .proposer
  | .str "maintainer" => some .maintainer
  | .str "verifier" => some .verifier
  | _ => none

inductive VerifierMode
  | direct
  | relay
  deriving DecidableEq, Repr

def VerifierMode.text : VerifierMode → String
  | .direct => "direct"
  | .relay => "relay"

def VerifierMode.ofText : String → Option VerifierMode
  | "direct" => some .direct
  | "relay" => some .relay
  | _ => none

structure Account where
  did : String
  roles : List Role
  coordinationUrl : Option String := none
  actionUrl : Option String := none
  verifierMode : Option VerifierMode := none
  /-- the Proposer's designated Verifier DID -/
  verifierDid : Option String := none
  deriving DecidableEq, Repr

/-- In one order of the members, which no reader looks at. -/
def Account.toJson (account : Account) : Json :=
  .obj ([("version", .str "1"), ("type", .str "MpasAccount"), ("did", .str account.did),
      ("roles", .arr (account.roles.map fun role => .str role.text))] ++
    defined "coordinationUrl" account.coordinationUrl ++
    defined "actionUrl" account.actionUrl ++
    defined "verifierMode" (account.verifierMode.map VerifierMode.text) ++
    defined "verifierDid" account.verifierDid)

/-- A member that is absent or a string. -/
def optionalMember (value : Json) (name : String) : Option (Option String) :=
  match value.member name with
  | none => some none
  | some (.str s) => some (some s)
  | some _ => none

def rolesOf (value : Json) : Option (List Role) :=
  match value.member "roles" with
  | some (.arr items) => items.mapM Role.ofJson
  | _ => none

def modeOf (value : Json) : Option (Option VerifierMode) :=
  match optionalMember value "verifierMode" with
  | some none => some none
  | some (some text) => (VerifierMode.ofText text).map some
  | none => none

def Account.ofJson (value : Json) : Option Account := do
  let did ← (value.member "did").bind Json.asString
  let roles ← rolesOf value
  let coordinationUrl ← optionalMember value "coordinationUrl"
  let actionUrl ← optionalMember value "actionUrl"
  let verifierMode ← modeOf value
  let verifierDid ← optionalMember value "verifierDid"
  return { did, roles, coordinationUrl, actionUrl, verifierMode, verifierDid }

/-! ## The configs -/

/-- What `mpas init maintainer` writes. -/
def signerConfig (home : Path) (account : Account) : Json :=
  .obj [("agent", .obj [("did", .str account.did), ("keyFile", .str (homePaths.key home))]),
    ("coordination", .obj (defined "url" account.coordinationUrl))]

/-- What a bridge config says of its application. -/
structure Application where
  plugin : Path
  applicationDid : String
  dbPath : Path
  deriving DecidableEq, Repr

/-- What `mpas mcp add` writes. -/
def bridgeConfig (home : Path) (app : Application) (account : Account) : Json :=
  .obj [("mode", .str "proposer"), ("plugin", .str app.plugin),
    ("agent", .obj [("did", .str account.did), ("keyFile", .str (homePaths.key home))]),
    ("target", .obj [("applicationDid", .str app.applicationDid)]),
    ("coordination", .obj (defined "url" account.coordinationUrl)),
    ("actionEndpoint", .obj (defined "url" account.actionUrl ++
      defined "verifierDid" account.verifierDid)),
    ("workflow", .obj [("dbPath", .str app.dbPath)])]

/-- A key as it is generated. -/
structure KeyFile where
  did : String
  kid : String
  privateJwk : Json
  publicJwk : Json
  written : isWritten privateJwk = true ∧ isWritten publicJwk = true

def KeyFile.toJson (key : KeyFile) : Json :=
  .obj [("did", .str key.did), ("kid", .str key.kid), ("privateJwk", key.privateJwk),
    ("publicJwk", key.publicJwk)]

/-! ## `mpas config validate` -/

/-- The problems whose condition is true. -/
def problems (found : List (Bool × String)) : List String :=
  found.filterMap fun problem => if problem.1 then some problem.2 else none

/-- What `checkKey` reports before it loads the key; `none` where it throws. -/
def keyProblems (texts : Texts) (account : Account) : Option File → Option (List String)
  | none => some ["the signing key is missing"]
  | some ⟨.bytes bytes, mode⟩ =>
    if permissions mode ≠ 0o600 then
      some ["mode is " ++ String.ofList (Nat.toDigits 8 (permissions mode)) ++ "; it must be 600"]
    else (texts.parse bytes).map fun key =>
      problems [(decide (key.member "did" ≠ some (.str account.did)),
        "the key's DID does not match account.json")]
  | some ⟨.marker _, _⟩ => none

/-- `checkSignerConfig`, of a config that has been read -/
def signerProblems (home : Path) (account : Account) (config : Json) : List String :=
  problems [
    (decide (member₂ config "agent" "did" ≠ some (.str account.did)),
      "agent.did does not match the account DID"),
    (decide (member₂ config "agent" "keyFile" ≠ some (.str (homePaths.key home))),
      "agent.keyFile is not this account's key"),
    (decide (member₂ config "coordination" "url" ≠ account.coordinationUrl.map .str),
      "coordination.url does not match the account's Coordination URL")]

/-- `checkBridges`, of a config that has been read and without its plugin file -/
def bridgeProblems (home : Path) (account : Account) (config : Json) : List String :=
  let verifierDid := member₂ config "actionEndpoint" "verifierDid"
  let given := (verifierDid.map Json.truthy).getD false
  problems [
    (decide (member₂ config "agent" "did" ≠ some (.str account.did)),
      "agent.did does not match the account DID"),
    (decide (member₂ config "agent" "keyFile" ≠ some (.str (homePaths.key home))),
      "agent.keyFile is not this account's key"),
    (decide (member₂ config "coordination" "url" ≠ account.coordinationUrl.map .str),
      "coordination.url does not match the account's Coordination URL"),
    (decide (config.member "adapter" ≠ none),
      "has an adapter field; bridge configs use actionEndpoint"),
    (decide (member₂ config "actionEndpoint" "url" ≠ account.actionUrl.map .str),
      "actionEndpoint.url does not match the account's Action URL"),
    (!given, "actionEndpoint.verifierDid is missing"),
    (given && decide (verifierDid ≠ account.verifierDid.map .str),
      "actionEndpoint.verifierDid is " ++ ((verifierDid.bind Json.asString).getD "") ++
        ", not the account's Verifier DID " ++ account.verifierDid.getD "(not set)")]

end Mpas.Installer
