import Mpas.Library.Checks
import Mpas.Routing

/-!
# The session binding of a managed credential

What an operator login writes of a deployment configuration into the session,
what the daemon expects of the session from the same configuration, and the
comparison of the two.

* `loadManagedOAuth`: what the loader accepts of a managed credential;
* `operatorLogin`: the session that a login leaves;
* `sessionMatchesExpectation`, `prepareTarget`: the comparison at dispatch.
-/

namespace Mpas.SessionBinding

open Checks (throwIf)

/-! ## Values of the language -/

structure Url where
  protocol : String
  pathname : String
  href : String
  deriving DecidableEq

structure Runtime where
  numberText : JsNumber → String
  /-- `new URL(text)`; `none` when it throws -/
  newUrl : String → Option Url

section Texts

variable (numberText : JsNumber → String)

mutual

/-- `String(value)` -/
def toText : Json → String
  | .null => "null"
  | .bool b => if b then "true" else "false"
  | .num n => numberText n
  | .str s => s
  | .arr items => ",".intercalate (itemTexts items)
  | .obj _ => "[object Object]"

def itemTexts : List Json → List String
  | [] => []
  | .null :: rest => "" :: itemTexts rest
  | item :: rest => toText item :: itemTexts rest

end

end Texts

mutual

/-- `JSON.stringify(value)`, kept as the value that its text stands for: of two values it has the
same text if they are the same but for numbers that are not finite. -/
def stringify : Json → Json
  | .num (.finite q) => .num (.finite q)
  | .num _ => .null
  | .arr items => .arr (stringifyItems items)
  | .obj members => .obj (stringifyMembers members)
  | value => value

def stringifyItems : List Json → List Json
  | [] => []
  | item :: rest => stringify item :: stringifyItems rest

def stringifyMembers : List (String × Json) → List (String × Json)
  | [] => []
  | (name, value) :: rest => (name, stringify value) :: stringifyMembers rest

end

def trim (text : String) : String := String.ofList (JsNumber.trim text.toList)

/-- An array of strings. -/
def stringArray : Json → Option (List String)
  | .arr items => items.mapM Json.asString
  | _ => none

/-- `Object.entries(value)` -/
def entries : Json → List (String × Json)
  | .obj members => members
  | .arr items => items.zipIdx.map fun item => (toString item.2, item.1)
  | .str s => s.toList.zipIdx.map fun c => (toString c.2, .str (String.ofList [c.1]))
  | _ => []

/-- `/^[A-Za-z0-9][A-Za-z0-9._-]{0,127}$/` -/
def isSessionName (text : List Char) : Bool :=
  match text with
  | [] => false
  | first :: rest => first.isAlphanum && decide (rest.length ≤ 127) &&
      rest.all fun c => c.isAlphanum || c == '.' || c == '_' || c == '-'

/-- `/^\x7b\x7bcredential:[A-Za-z0-9][A-Za-z0-9._-]{0,127}\x7d\x7d$/` -/
def isCredentialReference (text : List Char) : Bool :=
  let opening := "\x7b\x7bcredential:".toList
  let closing := "\x7d\x7d".toList
  opening.isPrefixOf text && closing.isSuffixOf text &&
    isSessionName ((text.drop opening.length).dropLast.dropLast)

/-! ## Configurations -/

structure CredentialBinding where
  credentialHandle : String
  provider : String
  deriving DecidableEq

/-- What both sides read of a deployment configuration with an `mcp.http` target and of its
plugin. -/
structure DeploymentConfig where
  applicationDid : String
  url : String
  /-- the members of `executionTarget.auth`, in the order of the file -/
  auth : List (String × Json)
  credentialBindings : List CredentialBinding
  /-- the `refreshScope` of each of the plugin's credential requirements -/
  refreshScopes : List (Option String)

namespace DeploymentConfig

def member (config : DeploymentConfig) (name : String) : Option Json := config.auth.lookup name

def scopes (config : DeploymentConfig) : Option (List String) :=
  (config.member "scopes").bind stringArray

def owner (config : DeploymentConfig) : Option String := (config.member "owner").bind Json.asString

end DeploymentConfig

inductive OAuthClientConfiguration
  | auto (clientId clientSecret clientIdMetadataDocument : Option String)
  | static (clientId : String) (clientSecret : Option String)
  | cimd (clientIdMetadataDocument : String)
  | dynamic
  deriving DecidableEq

def optionalMember (name : String) (value : Option String) : List (String × Json) :=
  match value with
  | some text => [(name, .str text)]
  | none => []

/-- The object, with the members in the order of its literal. -/
def OAuthClientConfiguration.toJson : OAuthClientConfiguration → Json
  | .auto clientId clientSecret clientIdMetadataDocument =>
    .obj ([("type", .str "auto")] ++ optionalMember "clientId" clientId ++
      optionalMember "clientSecret" clientSecret ++
      optionalMember "clientIdMetadataDocument" clientIdMetadataDocument)
  | .static clientId clientSecret =>
    .obj ([("type", .str "static"), ("clientId", .str clientId)] ++
      optionalMember "clientSecret" clientSecret)
  | .cimd clientIdMetadataDocument =>
    .obj [("type", .str "cimd"), ("clientIdMetadataDocument", .str clientIdMetadataDocument)]
  | .dynamic => .obj [("type", .str "dynamic")]

/-- `Partial<OAuthSharingPolicy>` -/
structure SharingSettings where
  applicationDids : Option (List String)
  operatorPrincipals : Option (List String)
  deriving DecidableEq

structure OAuthSharingPolicy where
  applicationDids : List String
  operatorPrincipals : List String
  deriving DecidableEq

/-! ## The loader's checks -/

section

variable (runtime : Runtime)

def text (value : Json) : String := toText runtime.numberText value

def isCimdUrl (value : Json) : Bool :=
  match runtime.newUrl (text runtime value) with
  | some url => decide (url.protocol = "https:") && decide (url.pathname ≠ "/")
  | none => false

def isHttpsUrl (value : Json) : Bool :=
  match runtime.newUrl (text runtime value) with
  | some url => decide (url.protocol = "https:")
  | none => false

/-- An array of strings that are not empty. -/
def isNonEmptyStringArray (value : Json) : Bool :=
  match stringArray value with
  | some texts => texts.all (· ≠ "")
  | none => false

def isNonEmptyString (value : Json) : Bool :=
  match value with
  | .str s => decide (s ≠ "")
  | _ => false

def isTextWithin (p : List Char → Bool) (value : Json) : Bool := p (text runtime value).toList

def validateClient (client : Json) : Except String Unit := do
  let type := (client.member "type").getD .null
  let clientId := client.member "clientId"
  throwIf (type ∉ ["auto", "static", "cimd", "dynamic"].map Json.str)
    "Managed OAuth client mode is invalid."
  throwIf ((type = .str "static" ∨ type = .str "auto" ∧ clientId.isSome) ∧
      ¬ clientId.any isNonEmptyString)
    "Managed OAuth static client mode requires clientId."
  throwIf ((type = .str "static" ∨ type = .str "auto") ∧
      ¬ (client.member "clientSecret").all (isTextWithin runtime isCredentialReference))
    "Managed OAuth clientSecret must be an exact credential reference."
  let cimd := if type = .str "cimd" ∨ type = .str "auto"
    then client.member "clientIdMetadataDocument" else none
  throwIf (type = .str "cimd" ∧ (cimd.bind Json.asString).isNone)
    "Managed OAuth CIMD mode requires clientIdMetadataDocument."
  throwIf (¬ cimd.all (isCimdUrl runtime))
    "Managed OAuth clientIdMetadataDocument must use HTTPS and contain a non-root path."

def validateRefresh (refresh : Option Json) (name : String) (most : Nat) (message : String) :
    Except String Unit :=
  throwIf (¬ (refresh.bind (·.member name)).all fun value => match value with
      | .num n => n.isInteger && JsNumber.le (.ofNat 0) n && JsNumber.le n (.ofNat most)
      | _ => false)
    message

/-- An error is its message. -/
def validateManagedOAuthConfiguration (config : DeploymentConfig) : Except String Unit := do
  throwIf (config.credentialBindings.map CredentialBinding.provider ≠ ["file"])
    "Managed OAuth requires exactly one file-backed OAuth session binding."
  throwIf (¬ (config.member "scopePolicy").all (· = .str "fixed"))
    "Managed OAuth scopePolicy currently supports only fixed."
  throwIf (¬ (config.member "scopes").all isNonEmptyStringArray)
    "Managed OAuth scopes must be non-empty strings."
  throwIf (¬ (config.member "issuer").all (isHttpsUrl runtime))
    "Managed OAuth issuer must be an HTTPS URL."
  validateClient runtime (Json.nullish (config.member "client") (.obj [("type", .str "auto")]))
  throwIf (¬ (config.member "owner").all isNonEmptyString)
    "Managed OAuth owner must be a non-empty operator principal."
  (entries (Json.nullish (config.member "sharing") (.obj []))).forM fun entry =>
    throwIf (¬ isNonEmptyStringArray entry.2)
      ("Managed OAuth sharing." ++ entry.1 ++ " must contain non-empty strings.")
  throwIf (¬ (((config.member "sharing").bind (·.member "applicationDids")).bind stringArray).all
      (·.contains config.applicationDid))
    "Managed OAuth sharing must authorize the deployment Application DID."
  validateRefresh (config.member "refresh") "safetyWindowMs" 300000
    "Managed OAuth refresh safetyWindowMs must be from 0 to 300000."
  validateRefresh (config.member "refresh") "jitterMaxMs" 60000
    "Managed OAuth refresh jitterMaxMs must be from 0 to 60000."

/-- What `loadDeploymentConfigFile` checks of a managed credential. -/
def loadManagedOAuth (config : DeploymentConfig) : Except String Unit := do
  throwIf (¬ isTextWithin runtime isSessionName (Json.nullish (config.member "session") (.str "")))
    "executionTarget.auth.session must identify the configured OAuth token session."
  validateManagedOAuthConfiguration runtime config

end

/-! ## The operator's reading -/

def DEFAULT_OAUTH_REFRESH_SCOPE : String := "offline_access"

/-- The first refresh scope that the plugin declares. -/
def DeploymentConfig.declaredRefreshScope (config : DeploymentConfig) : Option String :=
  (config.refreshScopes.filterMap id).find? fun scope => trim scope ≠ ""

/-- `text || DEFAULT_OAUTH_REFRESH_SCOPE` -/
def orDefaultScope (text : String) : String :=
  if text = "" then DEFAULT_OAUTH_REFRESH_SCOPE else text

def refreshScopeFromPlugin (config : DeploymentConfig) : String :=
  orDefaultScope ((config.declaredRefreshScope.map trim).getD "")

section

variable (runtime : Runtime)

def assertCimdUrl (value : String) : Except String Unit :=
  match runtime.newUrl value with
  | none => throw "OAuth Client ID Metadata Document URL is invalid"
  | some url => throwIf (url.protocol ≠ "https:" ∨ url.pathname = "/")
      "OAuth Client ID Metadata Document URL must use HTTPS and contain a non-root path"

def requiredText (value : Json) (name message : String) : Except String String :=
  match value.member name with
  | some (.str s) => .ok s
  | _ => .error message

/-- A member that is absent or a string within `p`. -/
def optionalText (value : Json) (name : String) (p : String → Bool) (message : String) :
    Except String (Option String) :=
  match value.member name with
  | none => .ok none
  | some (.str s) => if p s then .ok (some s) else .error message
  | some _ => .error message

def parseCimdClient (value : Json) : Except String OAuthClientConfiguration := do
  let document ← requiredText value "clientIdMetadataDocument"
    "OAuth CIMD mode requires clientIdMetadataDocument"
  assertCimdUrl runtime document
  return .cimd document

def parseStaticClient (value : Json) : Except String OAuthClientConfiguration := do
  let clientId ← requiredText value "clientId" "OAuth static client mode requires clientId"
  throwIf (clientId = "") "OAuth static client mode requires clientId"
  let clientSecret ← optionalText value "clientSecret" (fun _ => true)
    "OAuth static clientSecret must be a credential reference"
  return .static clientId clientSecret

def parseAutoClient (value : Json) : Except String OAuthClientConfiguration := do
  let document ← optionalText value "clientIdMetadataDocument" (fun _ => true)
    "OAuth auto clientIdMetadataDocument must be a string"
  document.toList.forM (assertCimdUrl runtime)
  let clientId ← optionalText value "clientId" (· ≠ "")
    "OAuth auto clientId must be a non-empty string"
  let clientSecret ← optionalText value "clientSecret" (fun _ => true)
    "OAuth auto clientSecret must be a credential reference"
  return .auto clientId clientSecret document

def isRecord : Json → Bool
  | .obj _ => true
  | _ => false

/-- The type that a client configuration names, and `undefined` as a text that names none. -/
def clientType (value : Json) : Json := (value.member "type").getD (.str "undefined")

/-- The reading of a client configuration in the mode that it names. -/
def parseClientMode (value : Json) : Except String OAuthClientConfiguration :=
  if clientType value = .str "dynamic" then .ok .dynamic
  else if clientType value = .str "cimd" then parseCimdClient runtime value
  else if clientType value = .str "static" then parseStaticClient value
  else parseAutoClient runtime value

def parseOAuthClientConfiguration (value : Option Json) :
    Except String OAuthClientConfiguration :=
  match value with
  | none => .ok (.auto none none none)
  | some value => do
    throwIf (¬ isRecord value ∨
        text runtime (clientType value) ∉ ["auto", "static", "cimd", "dynamic"])
      "OAuth client configuration must select auto, static, cimd, or dynamic mode"
    parseClientMode runtime value

end

def parseStringArray (value : Option Json) (name : String) : Except String (Option (List String)) :=
  match value with
  | none => return none
  | some value => match stringArray value with
    | some texts =>
      if texts.all (· ≠ "") then return some texts
      else throw (name ++ " must be an array of non-empty strings")
    | none => throw (name ++ " must be an array of non-empty strings")

def parseSharingPolicy (value : Option Json) : Except String (Option SharingSettings) := do
  match value with
  | none => return none
  | some (.obj members) =>
    let applicationDids ← parseStringArray (members.lookup "applicationDids")
      "OAuth sharing applicationDids"
    let operatorPrincipals ← parseStringArray (members.lookup "operatorPrincipals")
      "OAuth sharing operatorPrincipals"
    return some ⟨applicationDids, operatorPrincipals⟩
  | some _ => throw "OAuth sharing policy must be an object"

/-- What an operator's command is about. -/
structure OAuthOperatorRequest where
  applicationDid : String
  resourceUrl : String
  session : String
  credentialHandle : String
  scopes : Option (List String)
  refreshScope : String
  issuer : Option String
  client : OAuthClientConfiguration
  owner : Option String
  sharing : Option SharingSettings

/-- `executionTarget.auth.session` -/
def oauthSession (config : DeploymentConfig) : Except String String :=
  let message := "OAuth application must configure a valid executionTarget.auth.session: " ++
    config.applicationDid
  match config.member "session" with
  | some (.str session) => if isSessionName session.toList then .ok session else .error message
  | _ => .error message

def fileCredentialHandle (config : DeploymentConfig) : Except String String :=
  match config.credentialBindings with
  | [⟨credentialHandle, "file"⟩] => .ok credentialHandle
  | _ => .error ("OAuth application must configure one file credential binding: " ++
      config.applicationDid)

/-- The reading of the one configuration that targets the application. -/
def resolveOAuthApplication (runtime : Runtime) (config : DeploymentConfig) :
    Except String OAuthOperatorRequest := do
  let session ← oauthSession config
  let client ← parseOAuthClientConfiguration runtime (config.member "client")
  let sharing ← parseSharingPolicy (config.member "sharing")
  let credentialHandle ← fileCredentialHandle config
  return { applicationDid := config.applicationDid
           resourceUrl := config.url
           session
           credentialHandle
           scopes := config.scopes
           refreshScope := refreshScopeFromPlugin config
           issuer := (config.member "issuer").bind Json.asString
           client
           owner := config.owner
           sharing }

/-! ## Login -/

structure ScopeConfiguration where
  scopes : List String
  refreshScope : String
  deriving DecidableEq

structure OAuthAuthorizationBinding where
  applicationDid : String
  resourceUrl : String
  issuer : String
  clientConfiguration : Json
  scopeConfiguration : ScopeConfiguration
  deriving DecidableEq

/-- The members of a stored session that the comparison reads. -/
structure StoredOAuthSession where
  applicationDid : String
  resourceUrl : String
  owner : Option String
  sharing : Option OAuthSharingPolicy
  binding : Option OAuthAuthorizationBinding
  deriving DecidableEq

/-- The text of a client configuration, as the value it stands for. -/
def canonicalClientConfiguration (client : Json) : Json := stringify client

def canonicalScopes (scopes : List String) : List String :=
  Routing.sorted (scopes.filter (· ≠ "")).eraseDups

def canonicalScopeConfiguration (scopes : Option (List String)) (refreshScope : Option String) :
    ScopeConfiguration :=
  ⟨canonicalScopes (scopes.getD []), orDefaultScope ((refreshScope.map trim).getD "")⟩

def canonicalResourceUrl (runtime : Runtime) (value : String) : Except String String :=
  match runtime.newUrl value with
  | some url => return url.href
  | none => throw "Invalid URL"

def normalizeSharingPolicy (applicationDid : String) (sharing : Option SharingSettings)
    (owner : String) : Except String OAuthSharingPolicy := do
  let applicationDids := (sharing.bind (·.applicationDids)).getD [applicationDid]
  let operatorPrincipals := (sharing.bind (·.operatorPrincipals)).getD [owner]
  throwIf (applicationDid ∉ applicationDids)
    "OAuth sharing policy must authorize the selected Application DID"
  throwIf (owner ∉ operatorPrincipals) "OAuth sharing policy must authorize the session owner"
  return ⟨applicationDids.eraseDups, operatorPrincipals.eraseDups⟩

def assertOperatorAccess (principal applicationDid owner : String) (sharing : OAuthSharingPolicy) :
    Except String Unit :=
  throwIf (applicationDid ∉ sharing.applicationDids ∨
      principal ≠ owner ∧ principal ∉ sharing.operatorPrincipals)
    "OAuth session access denied by owner sharing policy"

def localOperatorPrincipal (uid : String) : String := "local-os-user:" ++ uid

/-- What discovery found, and whether the checks on its documents pass: that the issuer is the
exact one, and that a client can be selected. -/
structure OAuthDiscoveryState where
  authorizationServerUrl : String
  usable : Bool
  deriving DecidableEq

def saveDiscoveryState (runtime : Runtime) (request : OAuthOperatorRequest)
    (session : StoredOAuthSession) (value : OAuthDiscoveryState) :
    Except String StoredOAuthSession := do
  throwIf (¬ value.usable) "OAuth discovery failed"
  throwIf (request.issuer.any fun issuer =>
      issuer ≠ "" && value.authorizationServerUrl ≠ issuer)
    "OAuth discovered issuer does not match the operator-pinned issuer"
  let resourceUrl ← canonicalResourceUrl runtime session.resourceUrl
  return { session with
    binding := some
      { applicationDid := session.applicationDid
        resourceUrl
        issuer := value.authorizationServerUrl
        clientConfiguration := canonicalClientConfiguration request.client.toJson
        scopeConfiguration := canonicalScopeConfiguration request.scopes request.refreshScope } }

/-- A login that succeeds, with what each discovery of the client library saves. -/
def login (runtime : Runtime) (operatorPrincipal : String) (request : OAuthOperatorRequest)
    (discoveries : List OAuthDiscoveryState) : Except String StoredOAuthSession := do
  let owner := request.owner.getD operatorPrincipal
  throwIf (owner ≠ operatorPrincipal) "OAuth login is restricted to the configured session owner"
  let sharing ← normalizeSharingPolicy request.applicationDid request.sharing owner
  assertOperatorAccess operatorPrincipal request.applicationDid owner sharing
  let session ← discoveries.foldlM (saveDiscoveryState runtime request)
    { applicationDid := request.applicationDid
      resourceUrl := request.resourceUrl
      owner := some owner
      sharing := some sharing
      binding := none }
  -- `redirectToAuthorization`
  throwIf (session.binding.isNone) "OAuth authorization tuple is incomplete"
  return session

/-- `mpas oauth login` -/
def operatorLogin (runtime : Runtime) (uid : String) (config : DeploymentConfig)
    (discoveries : List OAuthDiscoveryState) : Except String StoredOAuthSession := do
  let request ← resolveOAuthApplication runtime config
  login runtime (localOperatorPrincipal uid) request discoveries

/-! ## Dispatch -/

/-- What dispatch expects. The loader has checked the types of scopes, owner and the members of
`sharing`; the issuer and the client are as the file has them. -/
structure OAuthPrepareOptions where
  scopes : Option (List String)
  refreshScope : Option String
  issuer : Option Json
  client : Option Json
  owner : Option String
  sharing : Option Json

def prepareTarget (config : DeploymentConfig) : OAuthPrepareOptions where
  scopes := config.scopes
  refreshScope := some ((config.declaredRefreshScope.map trim).getD "offline_access")
  issuer := config.member "issuer"
  client := config.member "client"
  owner := config.owner
  sharing := config.member "sharing"

def sharingSettings (value : Json) : SharingSettings :=
  ⟨(value.member "applicationDids").bind stringArray,
    (value.member "operatorPrincipals").bind stringArray⟩

def equalSets (left right : List String) : Bool :=
  left.length == right.length && left.all right.contains

def equalSharingPolicy (left right : OAuthSharingPolicy) : Bool :=
  equalSets left.applicationDids right.applicationDids &&
    equalSets left.operatorPrincipals right.operatorPrincipals

/-- `value && test(value)` -/
def whenTruthy (value : Option Json) (test : Json → Bool) : Bool :=
  value.any fun value => value.truthy && test value

def sharingDiffers (session : StoredOAuthSession) (expected : OAuthPrepareOptions) :
    Except String Bool :=
  match expected.sharing.filter Json.truthy, session.owner, session.sharing with
  | some value, some owner, some sharing => do
    let configured ← normalizeSharingPolicy session.applicationDid (some (sharingSettings value))
      (expected.owner.getD owner)
    return !equalSharingPolicy sharing configured
  | _, _, _ => return false

def sessionMatchesExpectation (runtime : Runtime) (session : StoredOAuthSession)
    (expected : OAuthPrepareOptions) : Except String Bool :=
  match session.binding with
  -- `prepareTarget` gives every member, if only as `undefined`.
  | none => .ok false
  | some binding =>
    let hasConfiguredExpectation := expected.issuer.isSome || expected.client.isSome ||
      expected.scopes.isSome || expected.refreshScope.isSome || expected.owner.isSome ||
      expected.sharing.isSome
    if hasConfiguredExpectation && (!session.owner.any (· ≠ "") || session.sharing.isNone) then
      .ok false
    else if expected.owner.any fun owner => owner ≠ "" && session.owner ≠ some owner then .ok false
    else do
      let sharingDiffers ← sharingDiffers session expected
      if sharingDiffers then return false
      else if whenTruthy expected.issuer (· ≠ .str binding.issuer) then return false
      else if whenTruthy expected.client fun client =>
          binding.clientConfiguration ≠ canonicalClientConfiguration client then return false
      else if (expected.scopes.isSome || expected.refreshScope.any (· ≠ "")) &&
          binding.scopeConfiguration ≠
            canonicalScopeConfiguration expected.scopes expected.refreshScope then return false
      else
        let resourceUrl ← canonicalResourceUrl runtime session.resourceUrl
        return binding.applicationDid = session.applicationDid && binding.resourceUrl = resourceUrl

end Mpas.SessionBinding
