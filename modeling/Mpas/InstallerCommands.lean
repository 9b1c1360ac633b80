import Mpas.InstallerHome

/-!
# The commands of the installer

`mpas init`, `mpas config`, `mpas key rotate` and `mpas mcp add` for a Proposer:
each reads what it needs, refuses or builds its changes, and commits them in one
update. A command starts by recovering an update that was interrupted.

* `runInit`, `runConfig`, `runKeyRotate`, `addProposerBridge`: the commands;
* `runCommand`: any of them, after the recovery.
-/

namespace Mpas.Installer

open Faulty (attempt glance)

structure Deps where
  texts : Texts
  /-- `resolve(path)` of `node:path` -/
  resolve : Path → Path
  /-- `new URL(text)` does not throw. -/
  validUrl : String → Bool
  /-- the key in a `did:jwk`; `none` for any other DID, and where it does not decode -/
  didJwkToJwk : String → Option Json
  /-- the DID that `KeyManager.fromFile` derives; `none` when it throws -/
  runtimeDid : List UInt8 → Option String
  /-- ` --home <home>` for a printed command, or nothing -/
  homeFlag : String

/-- `/^[A-Za-z0-9_/.:=@%+,-]+$/` -/
def isSafe (c : Char) : Bool := c.isAlphanum || "_/.:=@%+,-".toList.contains c

/-- Quotes one argument for a POSIX shell, only when it needs it. -/
def shellQuote (arg : String) : String :=
  if !arg.isEmpty && arg.toList.all isSafe then arg
  else "'" ++ "'\\''".intercalate (arg.splitOn "'") ++ "'"

/-- The steps that bring a home set up by hand into the managed layout. -/
def migrationSteps (deps : Deps) (home : Path) (keyFileHint : String) : String :=
  "\n".intercalate [
    "To bring the home into the managed layout without changing its DID:",
    "  1. Back up " ++ home ++ " and stop the processes that use it.",
    "  2. Keep the participant's existing key at " ++ homePaths.key home ++
      ". For a home without account.json, run `mpas init <role>" ++ deps.homeFlag ++ " --use-key " ++
      keyFileHint ++ "`, which copies the key there; if the key is already there, pass that path.",
    "  3. Point each bridge and signer config at that key: agent.keyFile " ++ homePaths.key home ++
      " and agent.did the account's DID. Or regenerate a bridge config with `mpas mcp add" ++
      deps.homeFlag ++ " <url> --name <name> --replace-config`, where <name> is the name the " ++
      "existing config uses, as in <name>-mcp-bridge-config.json. A config that belongs to another " ++
      "participant moves to that participant's own home.",
    "  4. Run `mpas config validate" ++ deps.homeFlag ++ "`, then restart the processes."]

/-- A failure outside the home: a prompt, a download, a directory, the harness. -/
def outside : Script Unit := attempt .failed fun files => .ok ((), files)

def refuse {α : Type} (text : String) : Script α := throw (.message text)

def refuseIf (condition : Bool) (text : String) : Script Unit :=
  if condition then refuse text else return ()

def liftExcept {α : Type} : Except String α → Script α
  | .ok a => return a
  | .error text => refuse text

/-! ## Values -/

def trimText (text : String) : String := String.ofList (JsNumber.trim text.toList)

def startsWith (start text : String) : Bool := start.toList.isPrefixOf text.toList

/-- `/^https?:\/\//i` -/
def hasHttpScheme (text : String) : Bool :=
  startsWith "http://" (String.ofList (text.toList.map Char.toLower)) ||
    startsWith "https://" (String.ofList (text.toList.map Char.toLower))

def defaultCoordinationUrl : String := "http://127.0.0.1:7545"

def defaultActionUrl : String := "http://127.0.0.1:7544"

def parseUrl (deps : Deps) (value defaultUrl label : String) : Except String String :=
  let trimmed := trimText value
  if trimmed = "local" ∨ trimmed = "localhost" then .ok defaultUrl
  else if !hasHttpScheme trimmed then
    .error (label ++ " must include http:// or https:// (for example https://" ++
      (if trimmed = "" then "api.example.com" else trimmed) ++ ").")
  else if !deps.validUrl trimmed then .error (label ++ " is not a valid URL: " ++ trimmed)
  else .ok trimmed

def isMethodChar (c : Char) : Bool := c.isDigit || ('a' ≤ c && c ≤ 'z')

/-- `.` matches no line terminator. -/
def isLineTerminator (c : Char) : Bool :=
  c.toNat = 10 || c.toNat = 13 || c.toNat = 0x2028 || c.toNat = 0x2029

/-- `/^did:[a-z0-9]+:.+/` -/
def isDid (text : String) : Bool :=
  let rest := text.toList.drop 4
  startsWith "did:" text && (rest.takeWhile isMethodChar).length != 0 &&
    match rest.dropWhile isMethodChar with
    | ':' :: c :: _ => !isLineTerminator c
    | _ => false

def parseDid (deps : Deps) (value label : String) : Except String String :=
  let trimmed := trimText value
  if !isDid trimmed then .error (label ++ " is not a DID: " ++ trimmed)
  else if startsWith "did:jwk:" trimmed && (deps.didJwkToJwk trimmed).isNone then
    .error (label ++ " must be a valid did:jwk: " ++ trimmed)
  else .ok trimmed

/-- `asker.url`, of the last of up to three answers -/
def askedUrl (deps : Deps) (answer label defaultUrl : String) (saved : Option String) :
    Except String String :=
  if trimText answer = "" then .ok (saved.getD defaultUrl) else parseUrl deps answer defaultUrl label

/-- `asker.optionalDid` -/
def askedDid (deps : Deps) (answer label : String) (saved : Option String) :
    Except String (Option String) :=
  if trimText answer = "" then .ok saved else (parseDid deps answer label).map some

section Files

variable (deps : Deps) (home : Path)

/-! ## Reading -/

def parseText : Contents → Script Json
  | .bytes bytes => match deps.texts.parse bytes with
    | some value => return value
    | none => throw .unreadable
  | .marker _ => throw .unreadable

def readJsonFile (path : Path) : Script Json := do
  let contents ← readFile path
  parseText deps contents

/-- `as Account`: JSON of another shape counts as unreadable. -/
def asAccount (value : Json) : Script (Option Account) :=
  match Account.ofJson value with
  | some account => return some account
  | none => throw .unreadable

def readAccount : Script (Option Account) := do
  if ← fileExists (homePaths.account home) then do
    let value ← readJsonFile deps (homePaths.account home)
    asAccount value
  else return none

def requireAccount : Script Account := do
  match ← readAccount deps home with
  | some account => return account
  | none => refuse ("No MPAS account at " ++ home ++ ". Run `mpas init <role>" ++ deps.homeFlag ++
      "` first.")

/-- `readdir` of one directory, sorted; a failure passes for an empty directory. -/
def listFiles (directory : Path) (ending : String) : Script (List Path) :=
  glance [] fun files => (files.keys.filter (isFileIn directory ending)).mergeSort
    fun a b => decide (a ≤ b)

def listBridgeConfigs : Script (List Path) :=
  listFiles (homePaths.mcpConfigs home) "-mcp-bridge-config.json"

/-- Key files in a home that has no `account.json`. -/
def handMadeKeyFiles : Script (List Path) := listFiles (homePaths.keys home) ".json"

def readConfig (path : Path) : Script Json :=
  tryCatch (readJsonFile deps path) fun _ =>
    refuse ("Nothing was changed, because " ++ path ++ " could not be read.")

/-! ## Key files -/

/-- What is wrong with a key file. -/
def keyFileProblem (bytes : List UInt8) (key : Json) : Option String :=
  match (key.member "did").bind Json.asString with
  | none => some "did is not a did:jwk"
  | some did =>
    match deps.didJwkToJwk did with
    | none => some "did is not a did:jwk"
    | some embedded =>
      match ["kty", "crv", "x", "y"].find? fun field =>
          !Json.strictEquals (embedded.member field) (member₂ key "publicJwk" field) with
      | some field => some ("publicJwk." ++ field ++ " does not match the DID")
      | none =>
        if ((member₂ key "privateJwk" "d").bind Json.asString).isNone then
          some "privateJwk is missing"
        else match deps.runtimeDid bytes with
          | none => some "the runtime cannot load this key"
          | some derived =>
            if derived ≠ did then some "the private key does not derive the stored DID" else none

/-- A key with the text that goes to `signing-key.json`. -/
structure GivenKey where
  did : String
  text : List UInt8

def usableKey (path : Path) (bytes : List UInt8) (key : Json) : Script GivenKey :=
  match keyFileProblem deps bytes key with
  | some problem => refuse (path ++ " is not a usable MPAS key file: " ++ problem)
  | none => return ⟨((key.member "did").bind Json.asString).getD "", bytes⟩

def keyText : Contents → Script (List UInt8)
  | .bytes bytes => return bytes
  | .marker _ => throw .unreadable

def readKeyFile (path : Path) : Script GivenKey := do
  let contents ← readFile path
  let bytes ← keyText contents
  let key ← parseText deps (.bytes bytes)
  usableKey deps path bytes key

/-- A generated key, with `keyFileText(key)`. -/
def generated (key : KeyFile) : GivenKey := ⟨key.did, deps.texts.json key.toJson⟩

/-! ## Updates of the configs -/

/-- A config with the value that was read and the one that is written. -/
structure Rewritten where
  path : Path
  value : Json
  updated : Json

def Rewritten.change (file : Rewritten) : FileChange := ⟨file.path, deps.texts.json file.updated, none⟩

/-- What `assertManagedConfigs` has against one config. -/
def layoutProblems (account : Account) (file : Rewritten) : List String :=
  let keyFile := member₂ file.value "agent" "keyFile"
  let did := member₂ file.value "agent" "did"
  let shown (value : Option Json) : String := ((value.bind Json.asString).getD "(missing)")
  let ownKey := match keyFile with
    | some (.str path) => decide (path ≠ "") && decide (deps.resolve path = homePaths.key home)
    | _ => false
  problems [
    (!ownKey, "  " ++ file.path ++ ": agent.keyFile is " ++ shown keyFile),
    (decide (did ≠ some (.str account.did)), "  " ++ file.path ++ ": agent.did is " ++ shown did)]

def assertManagedConfigs (account : Account) (configs : List Rewritten) : Script Unit :=
  let found := configs.flatMap (layoutProblems deps home account)
  refuseIf (!found.isEmpty) ("Nothing was changed. These configs do not use this account's key (" ++
    homePaths.key home ++ ", DID " ++ account.did ++ "):\n" ++ "\n".intercalate found ++ "\n" ++
    migrationSteps deps home "<this participant's key file>")

def rewriteAll (update : Json → Json) : List Path → Script (List Rewritten)
  | [] => return []
  | path :: rest => do
    let value ← readConfig deps path
    let files ← rewriteAll update rest
    return ⟨path, value, update value⟩ :: files

def accountChange (account : Account) : FileChange :=
  ⟨homePaths.account home, deps.texts.json account.toJson, some 0o600⟩

/-- The signer config, if there is one. -/
def signerPath : Script (List Path) := do
  if ← fileExists (homePaths.signerConfig home) then return [homePaths.signerConfig home]
  else return []

/-! ## `mpas config` -/

structure Settings where
  coordinationUrl : Option String := none
  actionUrl : Option String := none
  verifierMode : Option VerifierMode := none
  verifierDid : Option String := none

/-- `keyof Settings` -/
inductive Setting
  | coordinationUrl
  | actionUrl
  | verifierMode
  | verifierDid
  deriving DecidableEq

/-- `changes[key] !== undefined && changes[key] !== account[key]` -/
def Settings.isChange (changes : Settings) (account : Account) : Setting → Bool
  | .coordinationUrl =>
    changes.coordinationUrl.isSome && decide (changes.coordinationUrl ≠ account.coordinationUrl)
  | .actionUrl => changes.actionUrl.isSome && decide (changes.actionUrl ≠ account.actionUrl)
  | .verifierMode =>
    changes.verifierMode.isSome && decide (changes.verifierMode ≠ account.verifierMode)
  | .verifierDid => changes.verifierDid.isSome && decide (changes.verifierDid ≠ account.verifierDid)

def Settings.changed (changes : Settings) (account : Account) : List Setting :=
  [.coordinationUrl, .actionUrl, .verifierMode, .verifierDid].filter (changes.isChange account)

/-- `Object.assign(updated, { [key]: changes[key] })` -/
def Settings.assignTo (changes : Settings) (account : Account) : Setting → Account
  | .coordinationUrl => { account with coordinationUrl := changes.coordinationUrl }
  | .actionUrl => { account with actionUrl := changes.actionUrl }
  | .verifierMode => { account with verifierMode := changes.verifierMode }
  | .verifierDid => { account with verifierDid := changes.verifierDid }

def Settings.apply (changes : Settings) (account : Account) : Account :=
  (changes.changed account).foldl changes.assignTo account

/-- `config[name] = { ...config[name], [key]: value }` -/
def assignIn (config : Json) (name key : String) (value : Option String) : Json :=
  match value with
  | some s => assign (some config) name (assign (config.member name) key (.str s))
  | none => config

def updateSigner (updated : Account) (signer : Json) : Json :=
  assignIn signer "coordination" "url" updated.coordinationUrl

def updateBridge (changed : List Setting) (updated : Account) (config : Json) : Json :=
  let config := if changed.contains .coordinationUrl then
    assignIn config "coordination" "url" updated.coordinationUrl else config
  let config := if changed.contains .actionUrl then
    assignIn config "actionEndpoint" "url" updated.actionUrl else config
  if changed.contains .verifierDid then
    assignIn config "actionEndpoint" "verifierDid" updated.verifierDid else config

def signerRewrites (changed : List Setting) (updated : Account) : Script (List Rewritten) := do
  if changed.contains .coordinationUrl then do
    let paths ← signerPath home
    rewriteAll deps (updateSigner updated) paths
  else return []

def bridgeRewrites (changed : List Setting) (updated : Account) : Script (List Rewritten) := do
  if changed.any fun key => key = .coordinationUrl || key = .actionUrl || key = .verifierDid then do
    let paths ← listBridgeConfigs home
    rewriteAll deps (updateBridge changed updated) paths
  else return []

def applySettings (account : Account) (changes : Settings) : Script Unit := do
  let changed := changes.changed account
  if changed.isEmpty then return ()
  else do
    let updated := changes.apply account
    let signer ← signerRewrites deps home changed updated
    let bridges ← bridgeRewrites deps home changed updated
    assertManagedConfigs deps home account (signer ++ bridges)
    commitChanges home (accountChange deps home updated ::
      (signer ++ bridges).map (Rewritten.change deps))

/-- The flags of `mpas config`, and the answers where it asks; `none` without a terminal. -/
structure ConfigRequest where
  coordination : Option String := none
  action : Option String := none
  mode : Option VerifierMode := none
  verifierDid : Option String := none
  answers : Option (String × String × String) := none

def usesCoordination (account : Account) : Bool :=
  account.roles.contains .proposer || account.roles.contains .maintainer

def usesAction (account : Account) : Bool :=
  account.roles.contains .proposer || account.roles.contains .verifier

/-- The flags that are given and do not apply to the roles. -/
def ConfigRequest.unused (request : ConfigRequest) (account : Account) : List String :=
  problems [(request.coordination.isSome && !usesCoordination account, "--coordination"),
    (request.action.isSome && !usesAction account, "--action"),
    (request.mode.isSome && !account.roles.contains .verifier, "--mode"),
    (request.verifierDid.isSome && !account.roles.contains .proposer, "--verifier-did")]

def flagError (account : Account) (flag : String) : String :=
  flag ++ " does not apply to this account's roles (" ++
    ", ".intercalate (account.roles.map Role.text) ++ ")."

/-- A flag's value, if it is given. -/
def given {α : Type} (flag : Option String) (parse : String → Except String α) :
    Except String (Option α) :=
  match flag with
  | some value => (parse value).map some
  | none => .ok none

def ConfigRequest.flagSettings (request : ConfigRequest) : Except String Settings := do
  let coordinationUrl ← given request.coordination fun value =>
    parseUrl deps value defaultCoordinationUrl "--coordination"
  let actionUrl ← given request.action fun value => parseUrl deps value defaultActionUrl "--action"
  let verifierDid ← given request.verifierDid fun value => parseDid deps value "--verifier-did"
  return { coordinationUrl, actionUrl, verifierMode := request.mode, verifierDid }

/-- The answers to the questions that apply to the roles. -/
def answerSettings (account : Account) (answers : String × String × String) :
    Except String Settings := do
  let coordinationUrl ← given (if usesCoordination account then some answers.1 else none)
    fun answer => askedUrl deps answer "Coordination URL" defaultCoordinationUrl
      account.coordinationUrl
  let actionUrl ← given (if usesAction account then some answers.2.1 else none) fun answer =>
    askedUrl deps answer "Action URL" defaultActionUrl account.actionUrl
  let verifierDid ← given (if account.roles.contains .proposer then some answers.2.2 else none)
    fun answer => askedDid deps answer "Verifier DID" account.verifierDid
  return { coordinationUrl, actionUrl, verifierDid := verifierDid.join }

def ConfigRequest.isBare (request : ConfigRequest) : Bool :=
  request.coordination.isNone && request.action.isNone && request.mode.isNone &&
    request.verifierDid.isNone

def ConfigRequest.settings (request : ConfigRequest) (account : Account) :
    Except String Settings :=
  match request.unused account with
  | flag :: _ => .error (flagError account flag)
  | [] =>
    match request.isBare, request.answers with
    | true, some answers => answerSettings deps account answers
    | _, _ => request.flagSettings deps

def runConfig (request : ConfigRequest) : Script Unit := do
  let account ← requireAccount deps home
  outside
  let changes ← liftExcept (request.settings deps account)
  applySettings deps home account changes

/-! ## `mpas key rotate` -/

structure RotateRequest where
  useKey : Option Path := none
  /-- the key that is generated where none is given -/
  fresh : KeyFile
  /-- the time, as it goes into a file's name -/
  timestamp : String

def didOf (key : Json) : String := ((key.member "did").bind Json.asString).getD ""

def otherKey (path : Path) (current : Json) (key : GivenKey) : Script GivenKey :=
  if key.did = didOf current then
    refuse (path ++ " holds the current key. Use a new key made with `mpas key generate`.")
  else return key

def nextKey (request : RotateRequest) (current : Json) : Script GivenKey :=
  match request.useKey with
  | some path => do
    let key ← readKeyFile deps (deps.resolve path)
    otherKey (deps.resolve path) current key
  | none => return generated deps request.fresh

/-- `value.agent = { ...value.agent, did: next.did }` -/
def updateAgent (did : String) (config : Json) : Json := assignIn config "agent" "did" (some did)

/-- `rm(path)` -/
def rmFile (path : Path) : Script Unit := attempt .failed fun files =>
  if files.has path then .ok ((), files.delete path) else .error .noSuchFile

def removeGiven (useKey : Option Path) : Script Unit :=
  match useKey with
  | some path => rmFile (deps.resolve path)
  | none => return ()

def runKeyRotate (request : RotateRequest) : Script Unit := do
  let account ← requireAccount deps home
  let currentContents ← readFile (homePaths.key home)
  let currentText ← keyText currentContents
  let current ← parseText deps (.bytes currentText)
  let next ← nextKey deps request current
  let updated : Account := { account with did := next.did }
  let signer ← signerPath home
  let bridges ← listBridgeConfigs home
  let rewritten ← rewriteAll deps (updateAgent next.did) (signer ++ bridges)
  assertManagedConfigs deps home account rewritten
  commitChanges home (⟨retiredKey home request.timestamp, currentText, some 0o600⟩ ::
    ⟨homePaths.key home, next.text, some 0o600⟩ :: accountChange deps home updated ::
      rewritten.map (Rewritten.change deps))
  removeGiven deps request.useKey

/-! ## `mpas init` -/

/-- The flags of `mpas init`; a question that is answered has its answer in place of the flag. -/
structure InitRequest where
  role : Role
  /-- `--suite` is given. -/
  suite : Bool := false
  useKey : Option Path := none
  coordination : Option String := none
  action : Option String := none
  mode : Option VerifierMode := none
  verifierDid : Option String := none
  /-- answers to the questions for the two URLs and the DID; `none` without a terminal -/
  answers : Option (String × String × String) := none
  /-- `--add-role`, or the question is confirmed -/
  addRole : Bool := false
  fresh : KeyFile

/-- The flags that are given and do not apply to the role. -/
def InitRequest.unused (request : InitRequest) : List String :=
  problems [(request.coordination.isSome && request.role = .verifier, "--coordination"),
    (request.action.isSome && request.role = .maintainer, "--action"),
    (request.mode.isSome && request.role ≠ .verifier, "--mode"),
    (request.verifierDid.isSome && request.role ≠ .proposer, "--verifier-did")]

def roleTitle : Role → String
  | .proposer => "Proposer"
  | .maintainer => "Maintainer"
  | .verifier => "Verifier"

def savedOrAsked (flag : Option String) (answer : Option String)
    (name label defaultUrl : String) (saved : Option String) : Except String (Option String) :=
  match flag with
  | some value => do
    let url ← parseUrl deps value defaultUrl name
    if saved.isSome ∧ saved ≠ some url then
      .error ("This account already has a " ++ label ++ " (" ++ saved.getD "" ++
        "). Change it with `mpas config" ++ deps.homeFlag ++ " " ++ name ++ " <url>`.")
    else .ok (some url)
  | none =>
    if saved.isSome then .ok none
    else match answer with
      | some answer => (askedUrl deps answer label defaultUrl none).map some
      | none => .error (name ++ " is required without a terminal. Use " ++ name ++ " local for " ++
          defaultUrl ++ ".")

def InitRequest.coordinationValue (request : InitRequest) (saved : Option String) :
    Except String (Option String) :=
  if request.role = .proposer ∨ request.role = .maintainer then
    savedOrAsked deps request.coordination (request.answers.map (·.1)) "--coordination"
      "Coordination URL" defaultCoordinationUrl saved
  else .ok none

def InitRequest.actionValue (request : InitRequest) (saved : Option String) :
    Except String (Option String) :=
  if request.role = .proposer ∨ request.role = .verifier then
    savedOrAsked deps request.action (request.answers.map (·.2.1)) "--action" "Action URL"
      defaultActionUrl saved
  else .ok none

def InitRequest.verifierDidValue (request : InitRequest) (saved : Option String) :
    Except String (Option String) :=
  if request.role = .proposer then
    match request.verifierDid with
    | some flag => (parseDid deps flag "--verifier-did").map some
    | none =>
      match saved, request.answers with
      | none, some answers => askedDid deps answers.2.2 "Verifier DID" none
      | _, _ => .ok none
  else .ok none

/-- Saved values are kept; only unsaved ones are asked or required. -/
def InitRequest.gatherRoleValues (request : InitRequest) (saved : Settings) :
    Except String Settings := do
  let coordinationUrl ← request.coordinationValue deps saved.coordinationUrl
  let actionUrl ← request.actionValue deps saved.actionUrl
  let verifierDid ← request.verifierDidValue deps saved.verifierDid
  return { coordinationUrl, actionUrl, verifierMode := request.mode, verifierDid }

/-- `if (values.key !== undefined) account.key = values.key` -/
def applyValues (account : Account) (values : Settings) : Account :=
  { account with
    coordinationUrl := values.coordinationUrl <|> account.coordinationUrl
    actionUrl := values.actionUrl <|> account.actionUrl
    verifierMode := values.verifierMode <|> account.verifierMode
    verifierDid := values.verifierDid <|> account.verifierDid }

/-- An existing signer config is never replaced. -/
def roleFiles (role : Role) (account : Account) : Script (List FileChange) := do
  if role = .maintainer then do
    if ← fileExists (homePaths.signerConfig home) then return []
    else return [⟨homePaths.signerConfig home, deps.texts.json (signerConfig home account), none⟩]
  else return []

def adoptedKey (request : InitRequest) : Script GivenKey :=
  match request.useKey with
  | some path => readKeyFile deps (deps.resolve path)
  | none => return generated deps request.fresh

/-- A signer config that was there before is left as it is. -/
def keptSignerConfig (role : Role) : Script Bool :=
  if role = .maintainer then fileExists (homePaths.signerConfig home) else return false

def handMadeMessage (handMade : List Path) : String :=
  let hint := match handMade with
    | [path] => shellQuote path
    | _ => "<one of those files>"
  home ++ " has key files but no account.json, so it was set up by hand: " ++
    ", ".intercalate handMade ++ ".\n" ++ migrationSteps deps home hint ++
    "\nOr use a different --home for a new account."

def createAccount (request : InitRequest) : Script Unit := do
  let handMade ← handMadeKeyFiles home
  refuseIf (!handMade.isEmpty && request.useKey.isNone) (handMadeMessage deps home handMade)
  let key ← adoptedKey deps request
  -- The harness is asked for, and the directories are made.
  outside
  let values ← liftExcept (request.gatherRoleValues deps {})
  let _kept ← keptSignerConfig home request.role
  let created := applyValues { did := key.did, roles := [request.role] } values
  let files ← roleFiles deps home request.role created
  commitChanges home (⟨homePaths.key home, key.text, some 0o600⟩ ::
    accountChange deps home created :: files)
  -- `registerSigner`
  outside

def addRole (request : InitRequest) (account : Account) : Script Unit := do
  refuseIf (request.suite || request.useKey.isSome)
    ("--suite and --use-key apply only when a new account is created. This account already has a " ++
      "key; use `mpas key rotate" ++ deps.homeFlag ++ "` to replace it.")
  refuseIf (!request.addRole) ("This account already has the " ++
    ", ".intercalate (account.roles.map Role.text) ++ " role. Add the " ++ request.role.text ++
    " role to this account. It uses the existing key " ++ account.did ++
    ". Pass --add-role to confirm.")
  outside
  let saved : Settings := ⟨account.coordinationUrl, account.actionUrl, account.verifierMode,
    account.verifierDid⟩
  let values ← liftExcept (request.gatherRoleValues deps saved)
  let _kept ← keptSignerConfig home request.role
  let updated := applyValues { account with roles := account.roles ++ [request.role] } values
  let files ← roleFiles deps home request.role updated
  commitChanges home (accountChange deps home updated :: files)
  outside

def initAccount (request : InitRequest) : Option Account → Script Unit
  | none => createAccount deps home request
  | some account =>
    if account.roles.contains request.role then
      refuseIf request.useKey.isSome ("This account already has the " ++ roleTitle request.role ++
        " role and a key. Replace the key with `mpas key rotate" ++ deps.homeFlag ++
        " --use-key <file>`.")
    else addRole deps home request account

def runInit (request : InitRequest) : Script Unit := do
  match request.unused with
  | flag :: _ => refuse (flag ++ " does not apply to the " ++ roleTitle request.role ++ " role.")
  | [] => do
    refuseIf (request.suite && request.useKey.isSome)
      "--suite and --use-key cannot be combined. An existing key file already has its suite."
    let account ← readAccount deps home
    initAccount deps home request account

/-! ## `mpas mcp add` for a Proposer -/

/-- What comes with the request, and what is downloaded from the application's folder. -/
structure AddRequest where
  name : String
  sourceUrl : String
  replace : Bool := false
  pluginBytes : List UInt8
  pluginFrom : String
  /-- the artifact's DID, without `did:artifact:` -/
  artifact : String
  applicationDid : String
  packageName : String
  version : String
  bridgeFrom : String
  published : Bool
  cliVersion : String
  installedAt : String
  harness : String
  /-- whether the harness has a server of the name, and then whether it runs this bridge config -/
  server : Option Bool := none

def isNameChar (c : Char) : Bool := c.isDigit || ('a' ≤ c && c ≤ 'z')

/-- `/^[a-z0-9]+(?:-[a-z0-9]+)*$/` -/
def checkApplicationName (name : String) : Bool :=
  (name.toList.splitOn '-').all fun part => !part.isEmpty && part.all isNameChar

def installRecord (request : AddRequest) : Json :=
  .obj [("version", .str "2"), ("type", .str "MpasInstalledApplication"), ("name", .str request.name),
    ("role", .str "proposer"), ("source", .str request.sourceUrl),
    ("files", .obj [("plugin", .str request.pluginFrom), ("bridgePackage", .str request.bridgeFrom)]),
    ("plugin", .obj [("artifactDid", .str ("did:artifact:" ++ request.artifact)),
      ("applicationDid", .str request.applicationDid)]),
    ("bridge", .obj [("package", .str request.packageName), ("version", .str request.version)]),
    ("cliVersion", .str request.cliVersion), ("installedAt", .str request.installedAt)]

/-- The install record of the name, if it has one. -/
def readRecord (name : String) : Script (Option Json) := do
  if ← fileExists (homePaths.installed home name) then do
    let record ← readJsonFile deps (homePaths.installed home name)
    return some record
  else return none

/-- What the home and the harness already have under the name. -/
def nameUses (request : AddRequest) (record : Option Json) (configs : List String) : List String :=
  let installed := match record with
    | some record => ["an installed application from " ++
        ((record.member "source").bind Json.asString).getD "an earlier CLI version"]
    | none => []
  let server := match request.server with
    | some true => ["the server " ++ request.name ++ "-mpas in " ++ request.harness]
    | some false => ["a server named " ++ request.name ++ "-mpas in " ++ request.harness ++
        " that does not run this home's bridge config"]
    | none => []
  installed ++ configs ++ server

/-- `--replace-config` reinstalls the same source, or takes over configs set up by hand. -/
def refuseName (request : AddRequest) (record : Option Json) (configs : List String) : Script Unit :=
  let uses := nameUses request record configs
  let serverIsOurs := request.server.getD true
  let sameSource := match record with
    | some record => decide (record.member "source" = some (.str request.sourceUrl))
    | none => false
  let takeover := record.isNone && !configs.isEmpty
  let reinstall := if sameSource && serverIsOurs then
    " To reinstall " ++ request.sourceUrl ++ " under this name, pass --replace-config." else ""
  refuseIf (!uses.isEmpty && !(request.replace && (sameSource || takeover) && serverIsOurs))
    ("The name \"" ++ request.name ++ "\" is already used in this home: " ++
      "; ".intercalate uses ++ ". Choose another name with --name <name>." ++ reinstall)

def checkNameFree (request : AddRequest) : Script Unit := do
  let record ← readRecord deps home request.name
  let bridge ← fileExists (homePaths.bridgeConfig home request.name)
  let draft ← fileExists (homePaths.draftConfig home request.name)
  let live ← fileExists (homePaths.liveConfig home request.name)
  refuseName request record (problems [
    (bridge, "the bridge config " ++ homePaths.bridgeConfig home request.name),
    (draft, "the draft " ++ homePaths.draftConfig home request.name),
    (live, "the deployment config " ++ homePaths.liveConfig home request.name)])

def bridgeApplication (request : AddRequest) : Application where
  plugin := homePaths.plugin home request.name request.artifact
  applicationDid := request.applicationDid
  dbPath := homePaths.workflowDb home request.name

def addProposerBridge (request : AddRequest) : Script Unit := do
  let account ← requireAccount deps home
  refuseIf (!account.roles.contains .proposer) "This account does not have the proposer role."
  refuseIf (account.verifierDid.getD "" = "")
    ("Store the Verifier's DID before adding a bridge: mpas config" ++ deps.homeFlag ++
      " --verifier-did <did>")
  -- The source, the harness and its options.
  outside
  refuseIf (!checkApplicationName request.name)
    ("\"" ++ request.name ++ "\" is not a valid application name. Use lowercase letters, digits, and " ++
      "hyphens, for example --name github-work.")
  checkNameFree deps home request
  -- The downloads, and the directory of the workflows.
  outside
  let app := bridgeApplication home request
  commitChanges home [⟨app.plugin, request.pluginBytes, none⟩,
    ⟨homePaths.installed home request.name, deps.texts.json (installRecord request), none⟩,
    ⟨homePaths.bridgeConfig home request.name, deps.texts.json (bridgeConfig home app account), none⟩]
  refuseIf (!request.published) ("The bridge package " ++ request.packageName ++ "@" ++
    request.version ++ " is not published on npm. The plugin and bridge config were saved, " ++
    "but " ++ request.name ++ "-mpas was not registered.")
  -- `registerServer`
  outside

/-! ## Commands -/

inductive Command
  | init (request : InitRequest)
  | config (request : ConfigRequest)
  | keyRotate (request : RotateRequest)
  | mcpAdd (request : AddRequest)

def runSelected : Command → Script Unit
  | .init request => runInit deps home request
  | .config request => runConfig deps home request
  | .keyRotate request => runKeyRotate deps home request
  | .mcpAdd request => addProposerBridge deps home request

/-- `runInstallerCommand`, under the home lock -/
def runCommand (command : Command) : Script Unit := do
  let _recovered ← recoverInterruptedUpdate home
  runSelected deps home command

end Files

end Mpas.Installer
