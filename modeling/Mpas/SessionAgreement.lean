import Mathlib.Data.List.DropRight
import Mpas.SessionBinding

/-!
# Login and dispatch on one configuration

A login writes its own reading of the configuration into the session, and
dispatch compares that with the configuration as the file has it.

* `OAuthClientConfiguration.parse_toJson`: a client configuration that is written in the
  members and the order of the login's own is read as itself;
* `operatorLogin_binds`, `meets_iff`: what a session is bound to, and when it meets the
  expectation of any configuration;
* `binding_agrees`: when a session meets that of its own configuration, and of a changed one.
-/

namespace Mpas.SessionBinding

open Checks (throwIf)

/-! ## Client configurations -/

variable {runtime : Runtime} {client : OAuthClientConfiguration}

/-- The members of a client configuration are texts. -/
theorem OAuthClientConfiguration.toJson_texts (client : OAuthClientConfiguration) :
    ∃ members, client.toJson = .obj members ∧ ∀ entry ∈ members, ∃ s, entry.2 = .str s := by
  have hoptional : ∀ (name : String) (value : Option String),
      ∀ entry ∈ optionalMember name value, ∃ s, entry.2 = .str s := by
    intro name value entry hmem
    cases value with
    | none => cases hmem
    | some s =>
      obtain rfl := List.mem_singleton.mp hmem
      exact ⟨s, rfl⟩
  cases client with
  | auto clientId clientSecret document =>
    refine ⟨_, rfl, ?_⟩
    simp only [List.forall_mem_append, List.forall_mem_singleton]
    exact ⟨⟨⟨⟨_, rfl⟩, hoptional _ _⟩, hoptional _ _⟩, hoptional _ _⟩
  | static clientId clientSecret =>
    refine ⟨_, rfl, ?_⟩
    simp only [List.forall_mem_append, List.forall_mem_cons]
    exact ⟨⟨⟨_, rfl⟩, ⟨_, rfl⟩, fun _ hmem => absurd hmem List.not_mem_nil⟩, hoptional _ _⟩
  | cimd document => exact ⟨_, rfl, by simp⟩
  | dynamic => exact ⟨_, rfl, by simp⟩

theorem stringify_eq_str {value : Json} {s : String} (h : stringify value = .str s) :
    value = .str s := by
  cases value with
  | str t => simpa [stringify] using h
  | num n => cases n <;> simp [stringify] at h
  | null | bool | arr | obj => simp [stringify] at h

theorem stringifyMembers_texts {members written : List (String × Json)}
    (htexts : ∀ entry ∈ members, ∃ s, entry.2 = .str s)
    (h : stringifyMembers written = members) : written = members := by
  induction written generalizing members with
  | nil => exact h
  | cons entry rest ih =>
    subst h
    obtain ⟨hfirst, hrest⟩ := List.forall_mem_cons.mp htexts
    obtain ⟨s, hs⟩ := hfirst
    have hvalue : entry.2 = .str s := stringify_eq_str hs
    have hentry : (entry.1, stringify entry.2) = entry := by
      rw [show stringify entry.2 = .str s from hs, ← hvalue]
    simp only [stringifyMembers]
    rw [hentry, ← ih hrest rfl]

theorem stringifyMembers_of_texts {members : List (String × Json)}
    (htexts : ∀ entry ∈ members, ∃ s, entry.2 = .str s) :
    stringifyMembers members = members := by
  induction members with
  | nil => rfl
  | cons entry rest ih =>
    obtain ⟨⟨s, hs⟩, hrest⟩ := List.forall_mem_cons.mp htexts
    have hentry : (entry.1, stringify entry.2) = entry := by
      rw [hs]
      simp only [stringify]
      rw [← hs]
    simp only [stringifyMembers]
    rw [hentry, ih hrest]

/-- The text of a client configuration is that of one value. -/
theorem stringify_eq_toJson {value : Json} :
    stringify value = stringify client.toJson ↔ value = client.toJson := by
  obtain ⟨members, hjson, htexts⟩ := client.toJson_texts
  have hself : stringify client.toJson = .obj members := by
    rw [hjson]
    simp only [stringify]
    rw [stringifyMembers_of_texts htexts]
  constructor
  · intro h
    rw [hself] at h
    rw [hjson]
    cases value with
    | obj written =>
      simp only [stringify, Json.obj.injEq] at h ⊢
      exact stringifyMembers_texts htexts h
    | num n => cases n <;> simp [stringify] at h
    | null | bool | str | arr => simp [stringify] at h
  · rintro rfl
    rfl

theorem requiredText_eq_ok {value : Json} {name message s : String} :
    requiredText value name message = .ok s ↔ value.member name = some (.str s) := by
  unfold requiredText
  split
  · next heq => simp [heq]
  · next hne =>
    constructor
    · intro h
      cases h
    · intro h
      exact absurd h (hne s)

theorem optionalText_eq_ok {value : Json} {name message : String} {p : String → Bool}
    {result : Option String} :
    optionalText value name p message = .ok result ↔
      value.member name = result.map .str ∧ result.all p = true := by
  unfold optionalText
  split
  · next heq =>
    rw [heq]
    cases result <;> simp
  · next s heq =>
    rw [heq]
    by_cases hp : p s = true
    · rw [if_pos hp]
      cases result with
      | none => simp
      | some t =>
        constructor
        · intro h
          cases h
          exact ⟨rfl, hp⟩
        · rintro ⟨h, _⟩
          cases h
          rfl
    · rw [if_neg hp]
      constructor
      · intro h
        cases h
      · rintro ⟨h, hall⟩
        cases result with
        | none => cases h
        | some t =>
          cases h
          exact absurd hall hp
  · next value' hne heq =>
    rw [heq]
    constructor
    · intro h
      cases h
    · rintro ⟨h, _⟩
      cases result with
      | none => cases h
      | some t =>
        cases h
        exact absurd rfl (hne t)

section Members

variable (a b c : Option String) (s : String)

theorem member_auto :
    clientType (OAuthClientConfiguration.auto a b c).toJson = .str "auto" ∧
      (OAuthClientConfiguration.auto a b c).toJson.member "clientId" = a.map .str ∧
      (OAuthClientConfiguration.auto a b c).toJson.member "clientSecret" = b.map .str ∧
      (OAuthClientConfiguration.auto a b c).toJson.member "clientIdMetadataDocument" =
        c.map .str := by
  cases a <;> cases b <;> cases c <;>
    simp [OAuthClientConfiguration.toJson, optionalMember, clientType, Json.member, List.lookup_cons]

theorem member_static :
    clientType (OAuthClientConfiguration.static s a).toJson = .str "static" ∧
      (OAuthClientConfiguration.static s a).toJson.member "clientId" = some (.str s) ∧
      (OAuthClientConfiguration.static s a).toJson.member "clientSecret" = a.map .str := by
  cases a <;>
    simp [OAuthClientConfiguration.toJson, optionalMember, clientType, Json.member, List.lookup_cons]

end Members

theorem parseAutoClient_eq_ok {value : Json} {a b c : Option String} :
    parseAutoClient runtime value = .ok (.auto a b c) ↔
      value.member "clientIdMetadataDocument" = c.map .str ∧
        c.toList.forM (assertCimdUrl runtime) = .ok () ∧
        (value.member "clientId" = a.map .str ∧ a.all (fun s => s ≠ "") = true) ∧
        value.member "clientSecret" = b.map .str := by
  have hall : ∀ o : Option String, o.all (fun _ => true) = true := by
    intro o
    cases o <;> rfl
  unfold parseAutoClient
  simp only [Checks.bind_eq_ok, optionalText_eq_ok, hall, and_true]
  constructor
  · rintro ⟨document, hdocument, _, hurl, clientId, hclientId, clientSecret, hclientSecret, hclient⟩
    cases hclient
    exact ⟨hdocument, hurl, hclientId, hclientSecret⟩
  · rintro ⟨hdocument, hurl, hclientId, hclientSecret⟩
    exact ⟨c, hdocument, (), hurl, a, hclientId, b, hclientSecret, rfl⟩

theorem parseStaticClient_eq_ok {value : Json} {s : String} {b : Option String} :
    parseStaticClient value = .ok (.static s b) ↔
      value.member "clientId" = some (.str s) ∧ s ≠ "" ∧
        value.member "clientSecret" = b.map .str := by
  have hall : ∀ o : Option String, o.all (fun _ => true) = true := by
    intro o
    cases o <;> rfl
  unfold parseStaticClient
  simp only [Checks.bind_eq_ok, requiredText_eq_ok, Checks.throwIf_eq_ok, optionalText_eq_ok, hall,
    and_true]
  constructor
  · rintro ⟨clientId, hclientId, _, hne, clientSecret, hclientSecret, hclient⟩
    cases hclient
    exact ⟨hclientId, hne, hclientSecret⟩
  · rintro ⟨hclientId, hne, hclientSecret⟩
    exact ⟨s, hclientId, (), hne, b, hclientSecret, rfl⟩

theorem parseCimdClient_eq_ok {value : Json} {s : String} :
    parseCimdClient runtime value = .ok (.cimd s) ↔
      value.member "clientIdMetadataDocument" = some (.str s) ∧
        assertCimdUrl runtime s = .ok () := by
  unfold parseCimdClient
  simp only [Checks.bind_eq_ok, requiredText_eq_ok]
  constructor
  · rintro ⟨document, hdocument, _, hurl, hclient⟩
    cases hclient
    exact ⟨hdocument, hurl⟩
  · rintro ⟨hdocument, hurl⟩
    exact ⟨s, hdocument, (), hurl, rfl⟩

/-- Each reader returns its own mode. -/
theorem mode_of_parse {value : Json} :
    (∀ client, parseAutoClient runtime value = .ok client → ∃ a b c, client = .auto a b c) ∧
      (∀ client, parseStaticClient value = .ok client → ∃ s b, client = .static s b) ∧
      ∀ client, parseCimdClient runtime value = .ok client → ∃ s, client = .cimd s := by
  refine ⟨fun client h => ?_, fun client h => ?_, fun client h => ?_⟩
  · simp only [parseAutoClient, Checks.bind_eq_ok] at h
    obtain ⟨document, _, _, _, clientId, _, clientSecret, _, hclient⟩ := h
    cases hclient
    exact ⟨clientId, clientSecret, document, rfl⟩
  · simp only [parseStaticClient, Checks.bind_eq_ok] at h
    obtain ⟨clientId, _, _, _, clientSecret, _, hclient⟩ := h
    cases hclient
    exact ⟨clientId, clientSecret, rfl⟩
  · simp only [parseCimdClient, Checks.bind_eq_ok] at h
    obtain ⟨document, _, _, _, hclient⟩ := h
    cases hclient
    exact ⟨document, rfl⟩

/-- What the login has read, it reads again of what it writes. -/
theorem parseClientMode_toJson {value : Json} (h : parseClientMode runtime value = .ok client) :
    parseClientMode runtime client.toJson = .ok client := by
  obtain ⟨hauto, hstatic, hcimd⟩ := @mode_of_parse runtime value
  unfold parseClientMode at h
  by_cases hdynamic : clientType value = .str "dynamic"
  · rw [if_pos hdynamic] at h
    cases h
    rfl
  rw [if_neg hdynamic] at h
  by_cases htype : clientType value = .str "cimd"
  · rw [if_pos htype] at h
    obtain ⟨s, rfl⟩ := hcimd client h
    have hurl := (parseCimdClient_eq_ok.mp h).2
    exact parseCimdClient_eq_ok.mpr ⟨rfl, hurl⟩
  rw [if_neg htype] at h
  by_cases htype' : clientType value = .str "static"
  · rw [if_pos htype'] at h
    obtain ⟨s, b, rfl⟩ := hstatic client h
    have hne := (parseStaticClient_eq_ok.mp h).2.1
    obtain ⟨hmode, hclientId, hclientSecret⟩ := member_static b s
    unfold parseClientMode
    simp only [hmode, Json.str.injEq, String.reduceEq, if_false, if_true]
    exact parseStaticClient_eq_ok.mpr ⟨hclientId, hne, hclientSecret⟩
  · rw [if_neg htype'] at h
    obtain ⟨a, b, c, rfl⟩ := hauto client h
    obtain ⟨_, hurl, ⟨_, hne⟩, _⟩ := parseAutoClient_eq_ok.mp h
    obtain ⟨hmode, hclientId, hclientSecret, hdocument⟩ := member_auto a b c
    unfold parseClientMode
    simp only [hmode, Json.str.injEq, String.reduceEq, if_false]
    exact parseAutoClient_eq_ok.mpr ⟨hdocument, hurl, ⟨hclientId, hne⟩, hclientSecret⟩

theorem clientType_toJson (client : OAuthClientConfiguration) :
    ∃ type ∈ ["auto", "static", "cimd", "dynamic"], clientType client.toJson = .str type := by
  cases client with
  | auto a b c => exact ⟨"auto", by simp, (member_auto a b c).1⟩
  | static s b => exact ⟨"static", by simp, (member_static b s).1⟩
  | cimd s => exact ⟨"cimd", by simp, rfl⟩
  | dynamic => exact ⟨"dynamic", by simp, rfl⟩

/-- A client configuration that is written as the login writes it is read as itself. -/
theorem OAuthClientConfiguration.parse_toJson {value : Option Json}
    (h : parseOAuthClientConfiguration runtime value = .ok client) :
    parseOAuthClientConfiguration runtime (some client.toJson) = .ok client := by
  have hmode : parseClientMode runtime client.toJson = .ok client := by
    cases value with
    | none =>
      cases h
      exact parseAutoClient_eq_ok.mpr ⟨rfl, rfl, ⟨rfl, rfl⟩, rfl⟩
    | some value => exact parseClientMode_toJson (Checks.throwIf_bind_eq_ok.mp h).2
  refine Checks.throwIf_bind_eq_ok.mpr ⟨?_, hmode⟩
  obtain ⟨members, hjson, _⟩ := client.toJson_texts
  obtain ⟨type, hmem, htype⟩ := clientType_toJson client
  rw [htype, hjson]
  rintro (hrecord | hnot)
  · exact hrecord rfl
  · exact hnot hmem

/-! ## Texts and lists -/

theorem trim_trim (text : String) : trim (trim text) = trim text := by
  have hlist : ∀ chars, JsNumber.trim (JsNumber.trim chars) = JsNumber.trim chars := by
    intro chars
    let space := JsNumber.isStrWhiteSpace
    let left := chars.dropWhile space
    have hleft : left.dropWhile space = left := List.dropWhile_idempotent space chars
    have hstart : left.rdropWhile space <+: left := List.rdropWhile_prefix space left
    -- What is taken off the end leaves the first character.
    have hfirst : (left.rdropWhile space).dropWhile space = left.rdropWhile space := by
      rw [List.dropWhile_eq_self_iff] at hleft ⊢
      intro hlength
      have hlength' : 0 < left.length := Nat.lt_of_lt_of_le hlength hstart.length_le
      rw [hstart.getElem hlength]
      exact hleft hlength'
    show ((left.rdropWhile space).dropWhile space).rdropWhile space = left.rdropWhile space
    rw [hfirst]
    exact List.rdropWhile_idempotent space left
  unfold trim
  rw [String.toList_ofList, hlist]

theorem trim_declared {config : DeploymentConfig} {scope : String}
    (h : config.declaredRefreshScope = some scope) : trim scope ≠ "" := by
  have hfound := List.find?_some h
  simpa using hfound

/-- The two sides find the same refresh scope, and it is trimmed. -/
theorem refreshScope_agrees (config : DeploymentConfig) :
    (prepareTarget config).refreshScope = some (refreshScopeFromPlugin config) ∧
      orDefaultScope (trim (refreshScopeFromPlugin config)) = refreshScopeFromPlugin config ∧
      refreshScopeFromPlugin config ≠ "" := by
  unfold prepareTarget refreshScopeFromPlugin
  cases hdeclared : config.declaredRefreshScope with
  | none => exact ⟨rfl, by decide +kernel, by decide +kernel⟩
  | some scope =>
    have hne := trim_declared hdeclared
    have hself : orDefaultScope (trim scope) = trim scope := if_neg hne
    simp only [Option.map_some, Option.getD_some, hself, trim_trim]
    exact ⟨trivial, trivial, hne⟩

theorem nodup_eraseDups (texts : List String) : texts.eraseDups.Nodup := by
  induction hlength : texts.length using Nat.strong_induction_on generalizing texts with
  | _ n ih =>
    cases texts with
    | nil => simp
    | cons first rest =>
      rw [List.eraseDups_cons, List.nodup_cons]
      have hshorter : (rest.filter fun text => !text == first).length < n := by
        have hle := List.length_filter_le (fun text => !text == first) rest
        rw [List.length_cons] at hlength
        omega
      refine ⟨?_, ih _ hshorter _ rfl⟩
      simp [List.mem_eraseDups, List.mem_filter]

theorem equalSets_iff {left right : List String} (hleft : left.Nodup) (hright : right.Nodup) :
    equalSets left right = true ↔ ∀ text, text ∈ left ↔ text ∈ right := by
  simp only [equalSets, Bool.and_eq_true, beq_iff_eq, List.all_eq_true, List.contains_iff_mem]
  constructor
  · rintro ⟨hlength, hsubset⟩ text
    have hperm : left.Perm right :=
      (List.subperm_of_subset hleft hsubset).perm_of_length_le (Nat.le_of_eq hlength.symm)
    exact hperm.mem_iff
  · intro hsame
    have hperm : left.Perm right := (List.perm_ext_iff_of_nodup hleft hright).mpr hsame
    exact ⟨hperm.length_eq, fun text hmem => (hsame text).mp hmem⟩

/-- The scopes of two configurations with one text are the same. -/
theorem mem_canonicalScopes {scope : String} {scopes : List String} :
    scope ∈ canonicalScopes scopes ↔ scope ∈ scopes ∧ scope ≠ "" := by
  unfold canonicalScopes Routing.sorted
  rw [(List.mergeSort_perm _ _).mem_iff, List.mem_eraseDups, List.mem_filter]
  simp

/-! ## Sharing -/

def SamePolicy (left right : OAuthSharingPolicy) : Prop :=
  (∀ did, did ∈ left.applicationDids ↔ did ∈ right.applicationDids) ∧
    ∀ principal, principal ∈ left.operatorPrincipals ↔ principal ∈ right.operatorPrincipals

theorem normalizeSharingPolicy_nodup {applicationDid owner : String}
    {sharing : Option SharingSettings} {policy : OAuthSharingPolicy}
    (h : normalizeSharingPolicy applicationDid sharing owner = .ok policy) :
    policy.applicationDids.Nodup ∧ policy.operatorPrincipals.Nodup ∧
      applicationDid ∈ policy.applicationDids ∧ owner ∈ policy.operatorPrincipals := by
  unfold normalizeSharingPolicy at h
  obtain ⟨hdid, h⟩ := Checks.throwIf_bind_eq_ok.mp h
  obtain ⟨howner, h⟩ := Checks.throwIf_bind_eq_ok.mp h
  cases h
  refine ⟨nodup_eraseDups _, nodup_eraseDups _, ?_, ?_⟩
  · exact List.mem_eraseDups.mpr (Decidable.not_not.mp hdid)
  · exact List.mem_eraseDups.mpr (Decidable.not_not.mp howner)

theorem equalSharingPolicy_iff {applicationDid owner applicationDid' owner' : String}
    {sharing sharing' : Option SharingSettings} {left right : OAuthSharingPolicy}
    (hleft : normalizeSharingPolicy applicationDid sharing owner = .ok left)
    (hright : normalizeSharingPolicy applicationDid' sharing' owner' = .ok right) :
    equalSharingPolicy left right = true ↔ SamePolicy left right := by
  obtain ⟨hdids, hprincipals, _⟩ := normalizeSharingPolicy_nodup hleft
  obtain ⟨hdids', hprincipals', _⟩ := normalizeSharingPolicy_nodup hright
  unfold equalSharingPolicy SamePolicy
  rw [Bool.and_eq_true, equalSets_iff hdids hdids', equalSets_iff hprincipals hprincipals']

/-- What the login reads of a sharing policy is what dispatch reads of it. -/
theorem parseSharingPolicy_settings {value : Option Json} {settings : Option SharingSettings}
    (h : parseSharingPolicy value = .ok settings) : settings = value.map sharingSettings := by
  have harray : ∀ {value : Option Json} {name : String} {texts : Option (List String)},
      parseStringArray value name = .ok texts → texts = value.bind stringArray := by
    intro value name texts h
    cases value with
    | none =>
      cases h
      rfl
    | some value =>
      simp only [parseStringArray] at h
      cases harray : stringArray value with
      | none =>
        rw [harray] at h
        cases h
      | some found =>
        rw [harray] at h
        dsimp only at h
        split at h
        · cases h
          exact harray.symm
        · cases h
  unfold parseSharingPolicy at h
  cases value with
  | none =>
    cases h
    rfl
  | some value =>
    cases value with
    | obj members =>
      obtain ⟨dids, hdids, h⟩ := Checks.bind_eq_ok.mp h
      obtain ⟨principals, hprincipals, h⟩ := Checks.bind_eq_ok.mp h
      cases h
      rw [harray hdids, harray hprincipals]
      rfl
    | null | bool | num | str | arr => cases h

/-! ## Login -/

variable {config config' : DeploymentConfig} {discoveries : List OAuthDiscoveryState}
  {session : StoredOAuthSession} {request : OAuthOperatorRequest}

/-- The issuer that a discovery found is the one the request pins, if it pins one. -/
def Pinned (issuer : Option String) (found : String) : Prop :=
  ∀ text, issuer = some text → text ≠ "" → found = text

/-- The binding that a request writes, with the issuer that was discovered. -/
def bindingOf (request : OAuthOperatorRequest) (applicationDid resourceUrl issuer : String) :
    OAuthAuthorizationBinding where
  applicationDid
  resourceUrl
  issuer
  clientConfiguration := canonicalClientConfiguration request.client.toJson
  scopeConfiguration := canonicalScopeConfiguration request.scopes request.refreshScope

theorem saveDiscoveryState_eq_ok {value : OAuthDiscoveryState} {session' : StoredOAuthSession}
    (h : saveDiscoveryState runtime request session value = .ok session') :
    Pinned request.issuer value.authorizationServerUrl ∧
      ∃ url, canonicalResourceUrl runtime session.resourceUrl = .ok url ∧
        session' = { session with
          binding :=
            some (bindingOf request session.applicationDid url value.authorizationServerUrl) } := by
  unfold saveDiscoveryState at h
  obtain ⟨_, h⟩ := Checks.throwIf_bind_eq_ok.mp h
  obtain ⟨hissuer, h⟩ := Checks.throwIf_bind_eq_ok.mp h
  obtain ⟨url, hurl, h⟩ := Checks.bind_eq_ok.mp h
  cases h
  refine ⟨fun text htext hne => ?_, url, hurl, rfl⟩
  rw [htext] at hissuer
  by_contra hother
  exact hissuer (by simp [hne, hother])

/-- The last discovery is the one that a session is bound to. -/
theorem saveDiscoveries_eq_ok {session' : StoredOAuthSession}
    (h : discoveries.foldlM (saveDiscoveryState runtime request) session = .ok session') :
    discoveries = [] ∧ session' = session ∨
      ∃ found url, discoveries.getLast? = some found ∧
        Pinned request.issuer found.authorizationServerUrl ∧
        canonicalResourceUrl runtime session.resourceUrl = .ok url ∧
        session' = { session with
          binding :=
            some (bindingOf request session.applicationDid url found.authorizationServerUrl) } := by
  induction discoveries generalizing session with
  | nil =>
    cases h
    exact Or.inl ⟨rfl, rfl⟩
  | cons value rest ih =>
    rw [List.foldlM_cons] at h
    obtain ⟨saved, hsaved, hrest⟩ := Checks.bind_eq_ok.mp h
    obtain ⟨hpinned, url, hurl, rfl⟩ := saveDiscoveryState_eq_ok hsaved
    obtain ⟨rfl, rfl⟩ | ⟨found, url', hlast, hfound⟩ := ih hrest
    · exact Or.inr ⟨value, url, rfl, hpinned, hurl, rfl⟩
    · exact Or.inr ⟨found, url', by rw [List.getLast?_cons, hlast]; rfl, hfound⟩

/-- A request is the operator's reading of a configuration. -/
structure Reads (runtime : Runtime) (config : DeploymentConfig) (request : OAuthOperatorRequest) :
    Prop where
  applicationDid : request.applicationDid = config.applicationDid
  resourceUrl : request.resourceUrl = config.url
  scopes : request.scopes = config.scopes
  refreshScope : request.refreshScope = refreshScopeFromPlugin config
  issuer : request.issuer = (config.member "issuer").bind Json.asString
  owner : request.owner = config.owner
  client : parseOAuthClientConfiguration runtime (config.member "client") = .ok request.client
  sharing : request.sharing = (config.member "sharing").map sharingSettings

theorem resolveOAuthApplication_reads
    (h : resolveOAuthApplication runtime config = .ok request) : Reads runtime config request := by
  unfold resolveOAuthApplication at h
  obtain ⟨session, _, h⟩ := Checks.bind_eq_ok.mp h
  obtain ⟨client, hclient, h⟩ := Checks.bind_eq_ok.mp h
  obtain ⟨sharing, hsharing, h⟩ := Checks.bind_eq_ok.mp h
  obtain ⟨credentialHandle, _, h⟩ := Checks.bind_eq_ok.mp h
  cases h
  exact ⟨rfl, rfl, rfl, rfl, rfl, rfl, hclient, parseSharingPolicy_settings hsharing⟩

/-- The sharing policy of a configuration, for an owner. -/
def sharingOf (config : DeploymentConfig) (owner : String) : Except String OAuthSharingPolicy :=
  normalizeSharingPolicy config.applicationDid ((config.member "sharing").map sharingSettings) owner

/-- A session is bound to a configuration, at the issuer that was discovered. -/
structure Bound (runtime : Runtime) (principal : String) (config : DeploymentConfig)
    (request : OAuthOperatorRequest) (issuer : String) (session : StoredOAuthSession) : Prop where
  reads : Reads runtime config request
  pinned : Pinned request.issuer issuer
  applicationDid : session.applicationDid = config.applicationDid
  owner : config.owner.getD principal = principal ∧ session.owner = some principal
  sharing : ∃ policy, sharingOf config principal = .ok policy ∧ session.sharing = some policy
  binding : ∃ url, canonicalResourceUrl runtime session.resourceUrl = .ok url ∧
    session.binding = some (bindingOf request config.applicationDid url issuer)

/-- The issuer that the last discovery of a login found. -/
def discoveredIssuer (discoveries : List OAuthDiscoveryState) : String :=
  (discoveries.getLast?.map OAuthDiscoveryState.authorizationServerUrl).getD ""

theorem operatorLogin_binds {uid : String}
    (h : operatorLogin runtime uid config discoveries = .ok session) :
    ∃ request, Bound runtime (localOperatorPrincipal uid) config request
      (discoveredIssuer discoveries) session := by
  unfold operatorLogin at h
  obtain ⟨request, hrequest, h⟩ := Checks.bind_eq_ok.mp h
  have hreads := resolveOAuthApplication_reads hrequest
  unfold login at h
  obtain ⟨howner, h⟩ := Checks.throwIf_bind_eq_ok.mp h
  obtain ⟨policy, hpolicy, h⟩ := Checks.bind_eq_ok.mp h
  obtain ⟨_, _, h⟩ := Checks.bind_eq_ok.mp h
  obtain ⟨saved, hsaved, h⟩ := Checks.bind_eq_ok.mp h
  obtain ⟨hbound, h⟩ := Checks.throwIf_bind_eq_ok.mp h
  cases h
  have hself : request.owner.getD (localOperatorPrincipal uid) = localOperatorPrincipal uid :=
    Decidable.not_not.mp howner
  rw [hself, hreads.sharing, hreads.applicationDid] at hpolicy
  obtain ⟨_, rfl⟩ | ⟨found, url, hlast, hpinned, hurl, rfl⟩ := saveDiscoveries_eq_ok hsaved
  · exact absurd rfl hbound
  · have hissuer : discoveredIssuer discoveries = found.authorizationServerUrl := by
      rw [discoveredIssuer, hlast]
      rfl
    rw [hissuer]
    refine ⟨request, hreads, hpinned, hreads.applicationDid, ⟨?_, ?_⟩, ⟨policy, hpolicy, rfl⟩, url,
      hurl, ?_⟩
    · rw [← hreads.owner, hself]
    · rw [hself]
    · rw [hreads.applicationDid]

/-! ## Dispatch -/

variable {principal issuer : String}

def Meets (runtime : Runtime) (session : StoredOAuthSession) (config : DeploymentConfig) : Prop :=
  sessionMatchesExpectation runtime session (prepareTarget config) = .ok true

def scopeConfigurationOf (config : DeploymentConfig) : ScopeConfiguration :=
  canonicalScopeConfiguration config.scopes (some (refreshScopeFromPlugin config))

/-- The policy that `config'` has, if it has one, is the policy of `config`. -/
def SharingAgrees (principal : String) (config config' : DeploymentConfig) : Prop :=
  ∀ value, config'.member "sharing" = some value → value.truthy = true →
    ∃ policy configured, sharingOf config principal = .ok policy ∧
      normalizeSharingPolicy config.applicationDid (some (sharingSettings value))
        (config'.owner.getD principal) = .ok configured ∧ SamePolicy policy configured

/-- What `config'` expects of a session that is bound to `config`. -/
structure Agrees (principal issuer : String) (config : DeploymentConfig)
    (request : OAuthOperatorRequest) (config' : DeploymentConfig) : Prop where
  owner : ∀ owner, config'.owner = some owner → owner ≠ "" → owner = principal
  sharing : SharingAgrees principal config config'
  issuer : ∀ value, config'.member "issuer" = some value → value.truthy = true →
    value = .str issuer
  client : ∀ value, config'.member "client" = some value → value.truthy = true →
    value = request.client.toJson
  scopes : scopeConfigurationOf config = scopeConfigurationOf config'

theorem whenTruthy_eq_false {value : Option Json} {test : Json → Bool} :
    whenTruthy value test = false ↔
      ∀ v, value = some v → v.truthy = true → test v = false := by
  cases value with
  | none => simp [whenTruthy]
  | some v =>
    simp only [whenTruthy, Option.any_some, Bool.and_eq_false_imp, Option.some.injEq]
    constructor
    · rintro h _ rfl
      exact h
    · intro h
      exact h v rfl

theorem sharingDiffers_eq_ok (hbound : Bound runtime principal config request issuer session) :
    sharingDiffers session (prepareTarget config') = .ok false ↔
      SharingAgrees principal config config' := by
  obtain ⟨policy, hpolicy, hsharing⟩ := hbound.sharing
  unfold sharingDiffers SharingAgrees
  rw [hbound.owner.2, hsharing, hbound.applicationDid]
  cases hmember : config'.member "sharing" with
  | none => simp [prepareTarget, hmember, pure, Except.pure]
  | some value =>
    cases htruthy : value.truthy with
    | false =>
      simp [prepareTarget, hmember, Option.filter, htruthy, pure, Except.pure]
    | true =>
      have hfilter : (prepareTarget config').sharing.filter Json.truthy = some value := by
        simp [prepareTarget, hmember, Option.filter, htruthy]
      rw [hfilter]
      dsimp only
      rw [Checks.bind_eq_ok]
      constructor
      · rintro ⟨configured, hconfigured, hsame⟩ _ hvalue _
        cases hvalue
        have hequal : equalSharingPolicy policy configured = true := by
          simpa [pure, Except.pure] using hsame
        exact ⟨policy, configured, hpolicy, hconfigured,
          (equalSharingPolicy_iff hpolicy hconfigured).mp hequal⟩
      · intro hagrees
        obtain ⟨policy', configured, hpolicy', hconfigured, hsame⟩ := hagrees value rfl htruthy
        rw [hpolicy] at hpolicy'
        cases hpolicy'
        have hequal := (equalSharingPolicy_iff hpolicy hconfigured).mpr hsame
        exact ⟨configured, hconfigured, by simp [hequal, pure, Except.pure]⟩

/-- A comparison that a check can end goes on where the check does not apply. -/
theorem refusal_eq_ok {refused : Prop} [Decidable refused] {rest : Except String Bool} :
    (if refused then .ok false else rest) = .ok true ↔ ¬ refused ∧ rest = .ok true := by
  by_cases h : refused
  · simp [h]
  · simp [h]

/-- When a session that is bound to one configuration meets the expectation of another. -/
theorem meets_iff (hbound : Bound runtime principal config request issuer session)
    (hprincipal : principal ≠ "") :
    Meets runtime session config' ↔ Agrees principal issuer config request config' := by
  obtain ⟨policy, _, hsharing⟩ := hbound.sharing
  obtain ⟨url, hurl, hbinding⟩ := hbound.binding
  obtain ⟨hrefreshScope, _, hne⟩ := refreshScope_agrees config'
  have hscopes : (bindingOf request config.applicationDid url issuer).scopeConfiguration =
      scopeConfigurationOf config := by
    rw [bindingOf, hbound.reads.scopes, hbound.reads.refreshScope]
    rfl
  have hexpected : canonicalScopeConfiguration (prepareTarget config').scopes
      (prepareTarget config').refreshScope = scopeConfigurationOf config' := by
    rw [hrefreshScope]
    rfl
  have hpresent : (!session.owner.any (· ≠ "") || session.sharing.isNone) = false := by
    rw [hbound.owner.2, hsharing]
    simp [hprincipal]
  have hchecked : (prepareTarget config').refreshScope.any (· ≠ "") = true := by
    rw [hrefreshScope]
    simp [hne]
  have howner : (prepareTarget config').owner.any
      (fun owner => owner ≠ "" && session.owner ≠ some owner) = false ↔
      ∀ owner, config'.owner = some owner → owner ≠ "" → owner = principal := by
    rw [hbound.owner.2]
    unfold prepareTarget
    cases config'.owner with
    | none => simp
    | some owner =>
      simp only [Option.any_some, Bool.and_eq_false_imp, decide_eq_true_eq,
        decide_eq_false_iff_not, Decidable.not_not, Option.some.injEq]
      constructor
      · rintro h _ rfl hnonempty
        exact (h hnonempty).symm
      · intro h hnonempty
        exact (h owner rfl hnonempty).symm
  have hissuer : whenTruthy (prepareTarget config').issuer
      (· ≠ .str (bindingOf request config.applicationDid url issuer).issuer) = false ↔
      ∀ value, config'.member "issuer" = some value → value.truthy = true → value = .str issuer := by
    rw [whenTruthy_eq_false]
    constructor
    · intro h value hvalue htruthy
      exact Decidable.not_not.mp (of_decide_eq_false (h value hvalue htruthy))
    · intro h value hvalue htruthy
      exact decide_eq_false (not_not_intro (h value hvalue htruthy))
  have hclient : whenTruthy (prepareTarget config').client
      (fun client => (bindingOf request config.applicationDid url issuer).clientConfiguration ≠
        canonicalClientConfiguration client) = false ↔
      ∀ value, config'.member "client" = some value → value.truthy = true →
        value = request.client.toJson := by
    rw [whenTruthy_eq_false]
    have hsame : ∀ value : Json, decide
        ((bindingOf request config.applicationDid url issuer).clientConfiguration ≠
          canonicalClientConfiguration value) = false ↔ value = request.client.toJson := by
      intro value
      rw [decide_eq_false_iff_not, Decidable.not_not]
      exact eq_comm.trans stringify_eq_toJson
    simp only [hsame, prepareTarget]
  have hlast : (decide ((bindingOf request config.applicationDid url issuer).applicationDid =
      session.applicationDid) &&
        decide ((bindingOf request config.applicationDid url issuer).resourceUrl = url)) = true := by
    rw [hbound.applicationDid]
    simp [bindingOf]
  unfold Meets sessionMatchesExpectation
  rw [hbinding]
  simp only [hpresent, Bool.and_false, Bool.false_eq_true, if_false, hchecked, Bool.or_true,
    Bool.true_and, hscopes, hexpected, hurl, refusal_eq_ok, Checks.bind_eq_ok, pure, Except.pure,
    Bool.not_eq_true, howner, hissuer, hclient]
  constructor
  · rintro ⟨hownerAgrees, differs, hdiffers, hequal, hissuerAgrees, hclientAgrees, hscopesAgree, _⟩
    subst hequal
    refine ⟨hownerAgrees, (sharingDiffers_eq_ok hbound).mp hdiffers, hissuerAgrees, hclientAgrees,
      ?_⟩
    rw [decide_eq_false_iff_not, Decidable.not_not] at hscopesAgree
    exact hscopesAgree
  · intro hagrees
    refine ⟨hagrees.owner, false, (sharingDiffers_eq_ok hbound).mpr hagrees.sharing, rfl,
      hagrees.issuer, hagrees.client, ?_, url, rfl, ?_⟩
    · rw [decide_eq_false_iff_not, Decidable.not_not]
      exact hagrees.scopes
    · rw [hlast]

/-! ## The same configuration -/

/-- The issuer is absent or a text. -/
def IssuerWritten (config : DeploymentConfig) : Prop :=
  ∀ value, config.member "issuer" = some value → value.truthy = true → ∃ text, value = .str text

/-- The client configuration is absent or has the members that the login keeps of it, and no
others, in the login's order. -/
def ClientWritten (runtime : Runtime) (config : DeploymentConfig) : Prop :=
  ∀ value, config.member "client" = some value →
    ∃ client, parseOAuthClientConfiguration runtime (some value) = .ok client ∧
      value = client.toJson

theorem truthy_of_parse {value : Json}
    (h : parseOAuthClientConfiguration runtime (some value) = .ok client) :
    value.truthy = true := by
  obtain ⟨hrecord, _⟩ := Checks.throwIf_bind_eq_ok.mp h
  cases value with
  | obj members => rfl
  | null | bool | num | str | arr => exact absurd (Or.inl Bool.false_ne_true) hrecord

theorem Bound.owner_agrees (hbound : Bound runtime principal config request issuer session)
    (owner : String) (h : config.owner = some owner) : owner = principal := by
  have hself := hbound.owner.1
  rw [h] at hself
  exact hself

theorem Bound.sharing_agrees (hbound : Bound runtime principal config request issuer session) :
    SharingAgrees principal config config := by
  intro value hvalue _
  obtain ⟨policy, hpolicy, _⟩ := hbound.sharing
  refine ⟨policy, policy, hpolicy, ?_, fun _ => Iff.rfl, fun _ => Iff.rfl⟩
  rw [hbound.owner.1, ← hpolicy, sharingOf, hvalue]
  rfl

theorem Bound.issuer_agrees_iff (hbound : Bound runtime principal config request issuer session) :
    (∀ value, config.member "issuer" = some value → value.truthy = true → value = .str issuer) ↔
      IssuerWritten config := by
  constructor
  · intro h value hvalue htruthy
    exact ⟨issuer, h value hvalue htruthy⟩
  · intro h value hvalue htruthy
    obtain ⟨text, rfl⟩ := h value hvalue htruthy
    have hrequest : request.issuer = some text := by
      rw [hbound.reads.issuer, hvalue]
      rfl
    have hne : text ≠ "" := by simpa [Json.truthy] using htruthy
    rw [hbound.pinned text hrequest hne]

theorem Bound.client_agrees_iff (hbound : Bound runtime principal config request issuer session) :
    (∀ value, config.member "client" = some value → value.truthy = true →
      value = request.client.toJson) ↔ ClientWritten runtime config := by
  have hparse := hbound.reads.client
  constructor
  · intro h value hvalue
    rw [hvalue] at hparse
    exact ⟨request.client, hparse, h value hvalue (truthy_of_parse hparse)⟩
  · intro h value hvalue _
    obtain ⟨client, hclient, hsame⟩ := h value hvalue
    rw [hvalue, hclient] at hparse
    cases hparse
    exact hsame

/-! ## A changed configuration -/

inductive Field
  | issuer
  | client
  | scopes
  | refreshScope
  | owner
  | sharing
  deriving DecidableEq

/-- The member of `executionTarget.auth`; the refresh scope is the plugin's. -/
def Field.name : Field → Option String
  | .issuer => some "issuer"
  | .client => some "client"
  | .scopes => some "scopes"
  | .refreshScope => none
  | .owner => some "owner"
  | .sharing => some "sharing"

structure ChangedOnly (field : Field) (config config' : DeploymentConfig) : Prop where
  applicationDid : config'.applicationDid = config.applicationDid
  url : config'.url = config.url
  credentialBindings : config'.credentialBindings = config.credentialBindings
  refreshScopes : field ≠ .refreshScope → config'.refreshScopes = config.refreshScopes
  members : ∀ name, field.name ≠ some name → config'.member name = config.member name

def pinnedIssuer (config : DeploymentConfig) : Option String :=
  ((config.member "issuer").bind Json.asString).filter (· ≠ "")

/-- The two values of the field mean the same to a login: after its defaults, lists as sets, and
no scopes apart from any list of them. -/
def SameMeaning (runtime : Runtime) (principal : String) (config config' : DeploymentConfig) :
    Field → Prop
  | .issuer => pinnedIssuer config = pinnedIssuer config'
  | .client => (parseOAuthClientConfiguration runtime (config.member "client")).toOption =
      (parseOAuthClientConfiguration runtime (config'.member "client")).toOption
  | .scopes => match config.scopes, config'.scopes with
    | none, none => True
    | some scopes, some scopes' => ∀ scope, scope ∈ scopes ↔ scope ∈ scopes'
    | _, _ => False
  | .refreshScope => refreshScopeFromPlugin config = refreshScopeFromPlugin config'
  | .owner => config.owner.getD principal = config'.owner.getD principal
  | .sharing => match sharingOf config principal, sharingOf config' principal with
    | .ok policy, .ok policy' => SamePolicy policy policy'
    | .error _, .error _ => True
    | _, _ => False

/-- The change can be seen in what dispatch compares, or the session met nothing before it. -/
def Noticed (runtime : Runtime) (issuer : String) (config config' : DeploymentConfig) :
    Field → Prop
  | .issuer => ClientWritten runtime config →
      ∃ value, config'.member "issuer" = some value ∧ value.truthy = true ∧ value ≠ .str issuer
  | .client => IssuerWritten config →
      ∃ value, config'.member "client" = some value ∧ value.truthy = true
  | .scopes => IssuerWritten config → ClientWritten runtime config →
      ¬ (config.scopes.getD [] = [] ∧ config'.scopes.getD [] = [])
  | .refreshScope => True
  | .owner => True
  | .sharing => IssuerWritten config → ClientWritten runtime config →
      ∃ value, config'.member "sharing" = some value ∧ value.truthy = true

/-- What the loader has accepted of the scopes and of the owner. -/
theorem loadManagedOAuth_eq_ok (h : loadManagedOAuth runtime config = .ok ()) :
    (∀ scopes, config.scopes = some scopes → ∀ scope ∈ scopes, scope ≠ "") ∧
      ∀ owner, config.owner = some owner → owner ≠ "" := by
  obtain ⟨_, h⟩ := Checks.throwIf_bind_eq_ok.mp h
  unfold validateManagedOAuthConfiguration at h
  obtain ⟨_, h⟩ := Checks.throwIf_bind_eq_ok.mp h
  obtain ⟨_, h⟩ := Checks.throwIf_bind_eq_ok.mp h
  obtain ⟨hscopes, h⟩ := Checks.throwIf_bind_eq_ok.mp h
  obtain ⟨_, h⟩ := Checks.throwIf_bind_eq_ok.mp h
  obtain ⟨_, _, h⟩ := Checks.bind_eq_ok.mp h
  obtain ⟨howner, _⟩ := Checks.throwIf_bind_eq_ok.mp h
  rw [Decidable.not_not] at hscopes howner
  constructor
  · intro scopes hmember scope hmem
    obtain ⟨value, hvalue, harray⟩ := Option.bind_eq_some_iff.mp hmember
    rw [hvalue, Option.all_some, isNonEmptyStringArray, harray] at hscopes
    simpa using List.all_eq_true.mp hscopes scope hmem
  · intro owner hmember
    obtain ⟨value, hvalue, htext⟩ := Option.bind_eq_some_iff.mp hmember
    obtain rfl := Json.asString_eq_some.mp htext
    rw [hvalue] at howner
    simpa [isNonEmptyString] using howner

theorem canonicalScopes_eq_nil {scopes : List String} (h : ∀ scope ∈ scopes, scope ≠ "")
    (hnil : canonicalScopes scopes = canonicalScopes []) : scopes = [] := by
  refine List.eq_nil_iff_forall_not_mem.mpr fun scope hmem => ?_
  have hlisted : scope ∈ canonicalScopes [] := hnil ▸ mem_canonicalScopes.mpr ⟨hmem, h scope hmem⟩
  exact absurd (mem_canonicalScopes.mp hlisted).1 List.not_mem_nil

/-- Of two lists of scopes with different meanings only the empty one and none have one text. -/
theorem scopes_text_eq_iff (haccepted : loadManagedOAuth runtime config = .ok ())
    (haccepted' : loadManagedOAuth runtime config' = .ok ())
    (hmeaning : ¬ SameMeaning runtime principal config config' .scopes) :
    canonicalScopes (config.scopes.getD []) = canonicalScopes (config'.scopes.getD []) ↔
      config.scopes.getD [] = [] ∧ config'.scopes.getD [] = [] := by
  have hscopes := (loadManagedOAuth_eq_ok haccepted).1
  have hscopes' := (loadManagedOAuth_eq_ok haccepted').1
  constructor
  · intro hequal
    unfold SameMeaning at hmeaning
    cases hleft : config.scopes with
    | none =>
      cases hright : config'.scopes with
      | none =>
        rw [hleft, hright] at hmeaning
        exact absurd trivial hmeaning
      | some scopes' =>
        rw [hleft, hright] at hequal
        exact ⟨rfl, canonicalScopes_eq_nil (hscopes' scopes' hright) hequal.symm⟩
    | some scopes =>
      cases hright : config'.scopes with
      | none =>
        rw [hleft, hright] at hequal
        exact ⟨canonicalScopes_eq_nil (hscopes scopes hleft) hequal, rfl⟩
      | some scopes' =>
        rw [hleft, hright] at hmeaning hequal
        refine absurd (fun scope => ?_) hmeaning
        have hmem : ∀ list : List String, (∀ scope ∈ list, scope ≠ "") →
            (scope ∈ list ↔ scope ∈ canonicalScopes list) := by
          intro list hne
          rw [mem_canonicalScopes]
          exact ⟨fun h => ⟨h, hne scope h⟩, fun h => h.1⟩
        rw [hmem scopes (hscopes scopes hleft), hmem scopes' (hscopes' scopes' hright)]
        exact iff_of_eq (congrArg (scope ∈ ·) hequal)
  · rintro ⟨hleft, hright⟩
    rw [hleft, hright]

section Changed

variable (hbound : Bound runtime principal config request issuer session)

include hbound

theorem Bound.meets_self (hprincipal : principal ≠ "") :
    Meets runtime session config ↔ IssuerWritten config ∧ ClientWritten runtime config := by
  rw [meets_iff hbound hprincipal]
  constructor
  · intro hagrees
    exact ⟨hbound.issuer_agrees_iff.mp hagrees.issuer, hbound.client_agrees_iff.mp hagrees.client⟩
  · rintro ⟨hissuer, hclient⟩
    exact ⟨fun owner howner _ => hbound.owner_agrees owner howner, hbound.sharing_agrees,
      hbound.issuer_agrees_iff.mpr hissuer, hbound.client_agrees_iff.mpr hclient, rfl⟩

/-- What a change leaves of the expectation, by the members that stay. -/
theorem Bound.agrees_kept {field : Field} (hchanged : ChangedOnly field config config') :
    (field ≠ .owner → ∀ owner, config'.owner = some owner → owner ≠ "" → owner = principal) ∧
      (field ≠ .owner → field ≠ .sharing → SharingAgrees principal config config') ∧
      (field ≠ .issuer → ((∀ value, config'.member "issuer" = some value → value.truthy = true →
        value = .str issuer) ↔ IssuerWritten config)) ∧
      (field ≠ .client → ((∀ value, config'.member "client" = some value → value.truthy = true →
        value = request.client.toJson) ↔ ClientWritten runtime config)) ∧
      (field ≠ .scopes → field ≠ .refreshScope →
        scopeConfigurationOf config = scopeConfigurationOf config') := by
  have hkept : ∀ {other : Field} {name : String}, other.name = some name → field ≠ other →
      config'.member name = config.member name := by
    intro other name hname hother
    refine hchanged.members name fun hsame => hother ?_
    rw [← hname] at hsame
    cases field <;> cases other <;> first | rfl | simp [Field.name] at hsame hname
  have howner : field ≠ .owner → config'.owner = config.owner := by
    intro hother
    unfold DeploymentConfig.owner
    rw [hkept rfl hother]
  refine ⟨?_, ?_, ?_, ?_, ?_⟩
  · intro hother owner hmember _
    rw [howner hother] at hmember
    exact hbound.owner_agrees owner hmember
  · intro hother hother' value hvalue htruthy
    rw [hkept rfl hother'] at hvalue
    rw [howner hother]
    exact hbound.sharing_agrees value hvalue htruthy
  · intro hother
    rw [hkept rfl hother]
    exact hbound.issuer_agrees_iff
  · intro hother
    rw [hkept rfl hother]
    exact hbound.client_agrees_iff
  · intro hother hother'
    unfold scopeConfigurationOf DeploymentConfig.scopes refreshScopeFromPlugin
      DeploymentConfig.declaredRefreshScope
    rw [hkept rfl hother, hchanged.refreshScopes hother']

theorem Bound.issuer_noticed (hprincipal : principal ≠ "")
    (hchanged : ChangedOnly .issuer config config') :
    ¬ Meets runtime session config' ↔ Noticed runtime issuer config config' .issuer := by
  obtain ⟨howner, hsharing, _, hclient, hscopes⟩ := hbound.agrees_kept hchanged
  rw [meets_iff hbound hprincipal]
  constructor
  · intro hnot hwritten
    by_contra hnone
    refine hnot ⟨howner (by decide), hsharing (by decide) (by decide), ?_,
      (hclient (by decide)).mpr hwritten, hscopes (by decide) (by decide)⟩
    intro value hvalue htruthy
    by_contra hother
    exact hnone ⟨value, hvalue, htruthy, hother⟩
  · intro hnoticed hagrees
    obtain ⟨value, hvalue, htruthy, hother⟩ :=
      hnoticed ((hclient (by decide)).mp hagrees.client)
    exact hother (hagrees.issuer value hvalue htruthy)

theorem Bound.client_noticed (hprincipal : principal ≠ "")
    (hchanged : ChangedOnly .client config config')
    (hmeaning : ¬ SameMeaning runtime principal config config' .client) :
    ¬ Meets runtime session config' ↔ Noticed runtime issuer config config' .client := by
  obtain ⟨howner, hsharing, hissuer, _, hscopes⟩ := hbound.agrees_kept hchanged
  rw [meets_iff hbound hprincipal]
  constructor
  · intro hnot hwritten
    by_contra hnone
    refine hnot ⟨howner (by decide), hsharing (by decide) (by decide),
      (hissuer (by decide)).mpr hwritten, ?_, hscopes (by decide) (by decide)⟩
    intro value hvalue htruthy
    exact absurd ⟨value, hvalue, htruthy⟩ hnone
  · intro hnoticed hagrees
    obtain ⟨value, hvalue, htruthy⟩ := hnoticed ((hissuer (by decide)).mp hagrees.issuer)
    -- The login would read what it wrote, so the two configurations mean the same.
    have hread := OAuthClientConfiguration.parse_toJson hbound.reads.client
    rw [← hagrees.client value hvalue htruthy, ← hvalue] at hread
    refine hmeaning ?_
    show (parseOAuthClientConfiguration runtime (config.member "client")).toOption =
      (parseOAuthClientConfiguration runtime (config'.member "client")).toOption
    rw [hbound.reads.client, hread]

theorem Bound.owner_noticed (hprincipal : principal ≠ "")
    (haccepted' : loadManagedOAuth runtime config' = .ok ())
    (hmeaning : ¬ SameMeaning runtime principal config config' .owner) :
    ¬ Meets runtime session config' := by
  rw [meets_iff hbound hprincipal]
  intro hagrees
  have hother : principal ≠ config'.owner.getD principal := by
    have hself : ¬ config.owner.getD principal = config'.owner.getD principal := hmeaning
    rwa [hbound.owner.1] at hself
  cases howner : config'.owner with
  | none =>
    rw [howner] at hother
    exact hother rfl
  | some owner =>
    rw [howner] at hother
    have hne := (loadManagedOAuth_eq_ok haccepted').2 owner howner
    exact hother (hagrees.owner owner howner hne).symm

theorem Bound.refreshScope_noticed (hprincipal : principal ≠ "")
    (hmeaning : ¬ SameMeaning runtime principal config config' .refreshScope) :
    ¬ Meets runtime session config' := by
  rw [meets_iff hbound hprincipal]
  intro hagrees
  have htrimmed : ∀ config : DeploymentConfig,
      (scopeConfigurationOf config).refreshScope = refreshScopeFromPlugin config := by
    intro config
    simp only [scopeConfigurationOf, canonicalScopeConfiguration, Option.map_some,
      Option.getD_some]
    exact (refreshScope_agrees config).2.1
  have hsame := congrArg ScopeConfiguration.refreshScope hagrees.scopes
  rw [htrimmed config, htrimmed config'] at hsame
  exact hmeaning hsame

theorem Bound.sharing_noticed (hprincipal : principal ≠ "")
    (hchanged : ChangedOnly .sharing config config')
    (hmeaning : ¬ SameMeaning runtime principal config config' .sharing) :
    ¬ Meets runtime session config' ↔ Noticed runtime issuer config config' .sharing := by
  obtain ⟨howner, _, hissuer, hclient, hscopes⟩ := hbound.agrees_kept hchanged
  rw [meets_iff hbound hprincipal]
  constructor
  · intro hnot hwritten hwritten'
    by_contra hnone
    refine hnot ⟨howner (by decide), ?_, (hissuer (by decide)).mpr hwritten,
      (hclient (by decide)).mpr hwritten', hscopes (by decide) (by decide)⟩
    intro value hvalue htruthy
    exact absurd ⟨value, hvalue, htruthy⟩ hnone
  · intro hnoticed hagrees
    obtain ⟨value, hvalue, htruthy⟩ := hnoticed ((hissuer (by decide)).mp hagrees.issuer)
      ((hclient (by decide)).mp hagrees.client)
    obtain ⟨policy, configured, hpolicy, hconfigured, hsame⟩ :=
      hagrees.sharing value hvalue htruthy
    have hself : config'.owner.getD principal = principal := by
      cases hmember : config'.owner with
      | none => rfl
      | some owner =>
        have howner' : config.owner = some owner := by
          rw [← hmember]
          unfold DeploymentConfig.owner
          rw [hchanged.members "owner" (by simp [Field.name])]
        exact hbound.owner_agrees owner howner'
    have hconfigured' : sharingOf config' principal = .ok configured := by
      rw [hself, ← hchanged.applicationDid] at hconfigured
      rw [sharingOf, hvalue]
      exact hconfigured
    refine hmeaning ?_
    unfold SameMeaning
    rw [hpolicy, hconfigured']
    exact hsame

theorem Bound.scopes_noticed (hprincipal : principal ≠ "")
    (hchanged : ChangedOnly .scopes config config')
    (haccepted : loadManagedOAuth runtime config = .ok ())
    (haccepted' : loadManagedOAuth runtime config' = .ok ())
    (hmeaning : ¬ SameMeaning runtime principal config config' .scopes) :
    ¬ Meets runtime session config' ↔ Noticed runtime issuer config config' .scopes := by
  obtain ⟨howner, hsharing, hissuer, hclient, _⟩ := hbound.agrees_kept hchanged
  have hrefresh : refreshScopeFromPlugin config' = refreshScopeFromPlugin config := by
    unfold refreshScopeFromPlugin DeploymentConfig.declaredRefreshScope
    rw [hchanged.refreshScopes (by decide)]
  have htext := scopes_text_eq_iff haccepted haccepted' hmeaning
  have hscopes : scopeConfigurationOf config = scopeConfigurationOf config' ↔
      config.scopes.getD [] = [] ∧ config'.scopes.getD [] = [] := by
    rw [← htext]
    unfold scopeConfigurationOf canonicalScopeConfiguration
    rw [hrefresh, ScopeConfiguration.mk.injEq]
    exact and_iff_left rfl
  rw [meets_iff hbound hprincipal]
  constructor
  · intro hnot hwritten hwritten' hempty
    exact hnot ⟨howner (by decide), hsharing (by decide) (by decide),
      (hissuer (by decide)).mpr hwritten, (hclient (by decide)).mpr hwritten',
      hscopes.mpr hempty⟩
  · intro hnoticed hagrees
    exact hnoticed ((hissuer (by decide)).mp hagrees.issuer)
      ((hclient (by decide)).mp hagrees.client) (hscopes.mp hagrees.scopes)

end Changed

theorem localOperatorPrincipal_ne (uid : String) : localOperatorPrincipal uid ≠ "" := by
  intro h
  have hlist := congrArg String.toList h
  simp [localOperatorPrincipal, String.toList_append] at hlist

/-- A session meets the expectation of its own configuration exactly if the issuer and the client
configuration are written as the login writes them, and fails that of a configuration with one
other field exactly if dispatch compares that field. -/
theorem binding_agrees {uid : String} (haccepted : loadManagedOAuth runtime config = .ok ())
    (hlogin : operatorLogin runtime uid config discoveries = .ok session) :
    (Meets runtime session config ↔ IssuerWritten config ∧ ClientWritten runtime config) ∧
      ∀ (field : Field) (config' : DeploymentConfig),
        loadManagedOAuth runtime config' = .ok () → ChangedOnly field config config' →
        ¬ SameMeaning runtime (localOperatorPrincipal uid) config config' field →
        (¬ Meets runtime session config' ↔
          Noticed runtime (discoveredIssuer discoveries) config config' field) := by
  obtain ⟨request, hbound⟩ := operatorLogin_binds hlogin
  have hprincipal := localOperatorPrincipal_ne uid
  refine ⟨hbound.meets_self hprincipal, fun field config' haccepted' hchanged hmeaning => ?_⟩
  cases field with
  | issuer => exact hbound.issuer_noticed hprincipal hchanged
  | client => exact hbound.client_noticed hprincipal hchanged hmeaning
  | scopes => exact hbound.scopes_noticed hprincipal hchanged haccepted haccepted' hmeaning
  | refreshScope =>
    exact iff_of_true (hbound.refreshScope_noticed hprincipal hmeaning) trivial
  | owner => exact iff_of_true (hbound.owner_noticed hprincipal haccepted' hmeaning) trivial
  | sharing => exact hbound.sharing_noticed hprincipal hchanged hmeaning

/-! ## Instances -/

/-- URLs as they are written, on a server without a path. -/
def plainRuntime : Runtime where
  numberText _ := ""
  newUrl href := some ⟨"https:", "/mcp", href⟩

def configured (extra : List (String × Json)) : DeploymentConfig where
  applicationDid := "did:web:app.example"
  url := "https://app.example/mcp"
  auth := [("type", .str "oauth2"), ("session", .str "app")] ++ extra
  credentialBindings := [⟨"app", "file"⟩]
  refreshScopes := []

def staticClient : Json := (OAuthClientConfiguration.static "agent" none).toJson

def staticClientReordered : Json := .obj [("clientId", .str "agent"), ("type", .str "static")]

theorem login_of_isOk {α : Type} {x : Except String α} (h : x.toOption.isSome = true) :
    ∃ a, x = .ok a := by
  cases x with
  | ok a => exact ⟨a, rfl⟩
  | error e => cases h

theorem lookup_other {name other : String} {value : Json} (h : name ≠ other) :
    [(other, value)].lookup name = none := by
  rw [List.lookup_cons, beq_eq_false_iff_ne.mpr h]
  rfl

theorem configured_changedOnly {field : Field} {extra extra' : List (String × Json)}
    (h : ∀ name, field.name ≠ some name → extra'.lookup name = extra.lookup name) :
    ChangedOnly field (configured extra) (configured extra') := by
  refine ⟨rfl, rfl, rfl, fun _ => rfl, fun name hname => ?_⟩
  simp only [DeploymentConfig.member, configured, List.lookup_append]
  rw [h name hname]

/-- The daemon refuses the session of a login with the same configuration, where the client's
members are in another order; and it accepts the session of one client after the client is
removed, and that of an empty list of scopes after the list is removed. -/
theorem binding_disagrees :
    (∃ session, loadManagedOAuth plainRuntime (configured [("client", staticClientReordered)]) =
        .ok () ∧
      operatorLogin plainRuntime "501" (configured [("client", staticClientReordered)])
        [⟨"https://as.example", true⟩] = .ok session ∧
      ¬ Meets plainRuntime session (configured [("client", staticClientReordered)])) ∧
    (∃ session, operatorLogin plainRuntime "501" (configured [("client", staticClient)])
        [⟨"https://as.example", true⟩] = .ok session ∧
      loadManagedOAuth plainRuntime (configured []) = .ok () ∧
      ChangedOnly .client (configured [("client", staticClient)]) (configured []) ∧
      ¬ SameMeaning plainRuntime (localOperatorPrincipal "501")
        (configured [("client", staticClient)]) (configured []) .client ∧
      Meets plainRuntime session (configured [])) ∧
    ∃ session, operatorLogin plainRuntime "501" (configured [("scopes", .arr [])])
        [⟨"https://as.example", true⟩] = .ok session ∧
      loadManagedOAuth plainRuntime (configured []) = .ok () ∧
      ChangedOnly .scopes (configured [("scopes", .arr [])]) (configured []) ∧
      ¬ SameMeaning plainRuntime (localOperatorPrincipal "501")
        (configured [("scopes", .arr [])]) (configured []) .scopes ∧
      Meets plainRuntime session (configured []) := by
  have hloaded : loadManagedOAuth plainRuntime (configured []) = .ok () := by decide +kernel
  have hprincipal := localOperatorPrincipal_ne "501"
  refine ⟨?_, ?_, ?_⟩
  · obtain ⟨session, hlogin⟩ := login_of_isOk (x := operatorLogin plainRuntime "501"
      (configured [("client", staticClientReordered)]) [⟨"https://as.example", true⟩])
      (by decide +kernel)
    obtain ⟨request, hbound⟩ := operatorLogin_binds hlogin
    refine ⟨session, by decide +kernel, hlogin, fun hmeets => ?_⟩
    obtain ⟨client, hclient, hjson⟩ :=
      ((hbound.meets_self hprincipal).mp hmeets).2 staticClientReordered rfl
    have hread : parseOAuthClientConfiguration plainRuntime (some staticClientReordered) =
        .ok (.static "agent" none) := by decide +kernel
    rw [hread] at hclient
    cases hclient
    exact absurd hjson (by decide +kernel)
  · obtain ⟨session, hlogin⟩ := login_of_isOk (x := operatorLogin plainRuntime "501"
      (configured [("client", staticClient)]) [⟨"https://as.example", true⟩]) (by decide +kernel)
    obtain ⟨request, hbound⟩ := operatorLogin_binds hlogin
    have hchanged : ChangedOnly .client (configured [("client", staticClient)]) (configured []) :=
      configured_changedOnly fun name hname => by
        have hother : name ≠ "client" := fun hsame => hname (by rw [hsame]; rfl)
        rw [lookup_other hother]
        rfl
    have hmeaning : ¬ SameMeaning plainRuntime (localOperatorPrincipal "501")
        (configured [("client", staticClient)]) (configured []) .client := by
      unfold SameMeaning
      decide +kernel
    refine ⟨session, hlogin, hloaded, hchanged, hmeaning, ?_⟩
    by_contra hnot
    have hissuer : IssuerWritten (configured [("client", staticClient)]) := by
      intro value hvalue
      rw [show (configured [("client", staticClient)]).member "issuer" = none from rfl] at hvalue
      cases hvalue
    obtain ⟨value, hvalue, _⟩ := (hbound.client_noticed hprincipal hchanged hmeaning).mp hnot hissuer
    cases hvalue
  · obtain ⟨session, hlogin⟩ := login_of_isOk (x := operatorLogin plainRuntime "501"
      (configured [("scopes", .arr [])]) [⟨"https://as.example", true⟩]) (by decide +kernel)
    obtain ⟨request, hbound⟩ := operatorLogin_binds hlogin
    have hchanged : ChangedOnly .scopes (configured [("scopes", .arr [])]) (configured []) :=
      configured_changedOnly fun name hname => by
        have hother : name ≠ "scopes" := fun hsame => hname (by rw [hsame]; rfl)
        rw [lookup_other hother]
        rfl
    have hmeaning : ¬ SameMeaning plainRuntime (localOperatorPrincipal "501")
        (configured [("scopes", .arr [])]) (configured []) .scopes := id
    refine ⟨session, hlogin, hloaded, hchanged, hmeaning, ?_⟩
    by_contra hnot
    have hnone : ∀ name, name = "issuer" ∨ name = "client" →
        (configured [("scopes", .arr [])]).member name = none := by
      rintro name (rfl | rfl) <;> rfl
    have hissuer : IssuerWritten (configured [("scopes", .arr [])]) := by
      intro value hvalue
      rw [hnone "issuer" (Or.inl rfl)] at hvalue
      cases hvalue
    have hclient : ClientWritten plainRuntime (configured [("scopes", .arr [])]) := by
      intro value hvalue
      rw [hnone "client" (Or.inr rfl)] at hvalue
      cases hvalue
    exact (hbound.scopes_noticed hprincipal hchanged (by decide +kernel) hloaded hmeaning).mp hnot
      hissuer hclient ⟨rfl, rfl⟩

/-- A session that agrees, with a change that is noticed. -/
theorem binding_agrees_static :
    ∃ session, operatorLogin plainRuntime "501" (configured [("client", staticClient)])
        [⟨"https://as.example", true⟩] = .ok session ∧
      Meets plainRuntime session (configured [("client", staticClient)]) ∧
      ¬ Meets plainRuntime session (configured [("client", .obj [("type", .str "dynamic")])]) := by
  have haccepted : loadManagedOAuth plainRuntime (configured [("client", staticClient)]) = .ok () := by
    decide +kernel
  obtain ⟨session, hlogin⟩ := login_of_isOk (x := operatorLogin plainRuntime "501"
    (configured [("client", staticClient)]) [⟨"https://as.example", true⟩]) (by decide +kernel)
  obtain ⟨hself, hchange⟩ := binding_agrees haccepted hlogin
  refine ⟨session, hlogin, hself.mpr ⟨?_, ?_⟩, (hchange .client _ (by decide +kernel) ?_ ?_).mpr ?_⟩
  · intro value hvalue
    rw [show (configured [("client", staticClient)]).member "issuer" = none from rfl] at hvalue
    cases hvalue
  · intro value hvalue
    cases hvalue
    exact ⟨.static "agent" none, by decide +kernel, rfl⟩
  · refine configured_changedOnly fun name hname => ?_
    have hother : name ≠ "client" := fun hsame => hname (by rw [hsame]; rfl)
    rw [lookup_other hother, lookup_other hother]
  · unfold SameMeaning
    decide +kernel
  · intro _
    exact ⟨.obj [("type", .str "dynamic")], rfl, rfl⟩

end Mpas.SessionBinding
