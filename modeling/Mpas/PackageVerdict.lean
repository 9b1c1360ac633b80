import Mpas.PackageSoundness

/-!
# The verdict on an Action Package

The Approvals of a bundle are checked one by one, so their order decides
nothing. A package that is verified is what its signers approved, except where
an undeclared field has the empty name, or where the signed bytes are no text.

* `Alike.passes`: of two packages that differ in the order of their Approvals, both pass or none;
* `verified_order_and_soundness`: the order, and when a verified package is sound.
-/

namespace Mpas.PackageVerification

/-- `verifyActionPackage` answers `verified`. -/
def Verifies (platform : Platform) (config : VerificationConfig) (actionPackage : Json) : Prop :=
  ∃ verified, verifyActionPackage platform config actionPackage = .ok verified

/-! ## Another order -/

def replaced (name : String) (value : Json) (record : Members) : Members :=
  record.map fun entry => if entry.1 = name then (name, value) else entry

/-- An object with another value for one of its members. -/
def withMember (name : String) (value : Json) : Json → Json
  | .obj record => .obj (replaced name value record)
  | json => json

/-- The package with another list of Approvals. -/
def withApprovals (approvals : List Json) (actionPackage : Json) : Json :=
  withMember "approvalBundle" (withMember "approvals" (.arr approvals) (bundleOf actionPackage))
    actionPackage

theorem replaced_names (name : String) (value : Json) (record : Members) :
    (replaced name value record).map Prod.fst = record.map Prod.fst := by
  rw [replaced, List.map_map]
  refine List.map_congr_left fun entry _ => ?_
  by_cases hname : entry.1 = name <;> simp [hname]

theorem lookup_replaced (name : String) (value : Json) (record : Members) (key : String) :
    (replaced name value record).lookup key =
      if key = name then (record.lookup key).map fun _ => value else record.lookup key := by
  induction record with
  | nil => simp [replaced]
  | cons entry rest ih =>
    obtain ⟨name', old⟩ := entry
    have hcons : replaced name value ((name', old) :: rest) =
        (if name' = name then (name, value) else (name', old)) :: replaced name value rest := rfl
    rw [hcons, List.lookup_cons, List.lookup_cons, ih]
    by_cases hkey : key = name'
    · subst hkey
      by_cases hname : key = name <;> simp [hname]
    · have hbeq : (key == name') = false := beq_false_of_ne hkey
      by_cases hname : name' = name
      · subst hname
        simp [hbeq, hkey]
      · simp [hbeq, hname]

/-- Two objects with the same names, and the same values except under one name. -/
structure SameBut (name : String) (record record' : Members) : Prop where
  names : record.map Prod.fst = record'.map Prod.fst
  others : ∀ key ≠ name, record.lookup key = record'.lookup key

theorem SameBut.symm {name : String} {record record' : Members} (h : SameBut name record record') :
    SameBut name record' record :=
  ⟨h.names.symm, fun key hkey => (h.others key hkey).symm⟩

theorem sameBut_replaced (name : String) (value : Json) (record : Members) :
    SameBut name record (replaced name value record) :=
  ⟨(replaced_names name value record).symm, fun key hkey => by
    rw [lookup_replaced, if_neg hkey]⟩

theorem SameBut.rejectedKey {name : String} {record record' : Members}
    (h : SameBut name record record') (allowedKeys : List String) :
    rejectedKey record allowedKeys = rejectedKey record' allowedKeys := by
  simp only [PackageVerification.rejectedKey, firstUnexpectedKey, h.names]

/-- The packages differ in the order of their Approvals only. -/
structure Alike (record record' : Members) : Prop where
  package : SameBut "approvalBundle" record record'
  bundle : ∃ members members', record.lookup "approvalBundle" = some (.obj members) ∧
    record'.lookup "approvalBundle" = some (.obj members') ∧ SameBut "approvals" members members' ∧
      ∃ approvals approvals', members.lookup "approvals" = some (.arr approvals) ∧
        members'.lookup "approvals" = some (.arr approvals') ∧ approvals.Perm approvals'

theorem Alike.symm {record record' : Members} (h : Alike record record') :
    Alike record' record := by
  obtain ⟨members, members', hmembers, hmembers', hsame, approvals, approvals', happrovals,
    happrovals', hperm⟩ := h.bundle
  exact ⟨h.package.symm, members', members, hmembers', hmembers, hsame.symm, approvals', approvals,
    happrovals', happrovals, hperm.symm⟩

section

variable {platform : Platform}

theorem BundleShape.alike {members members' : Members} {approvals approvals' : List Json}
    (h : BundleShape platform members) (hsame : SameBut "approvals" members members')
    (happrovals : members.lookup "approvals" = some (.arr approvals))
    (happrovals' : members'.lookup "approvals" = some (.arr approvals'))
    (hperm : approvals.Perm approvals') : BundleShape platform members' := by
  have hother : ∀ key ≠ "approvals", members'.lookup key = members.lookup key :=
    hsame.symm.others
  refine ⟨hsame.rejectedKey bundleKeys ▸ h.undeclared, ?_, ?_, ?_, ?_, ?_, ?_⟩
  · rw [hother "version" (by decide)]
    exact h.version
  · rw [hother "type" (by decide)]
    exact h.type
  · rw [hother "actionEnvelopeHash" (by decide)]
    exact h.hash
  · rw [hasOwn, hother "assembledBy" (by decide)]
    exact h.assembledBy
  · rw [hasOwn, hother "createdAt" (by decide)]
    exact h.createdAt
  · obtain ⟨first, rest, hlist, hall⟩ := h.approvals
    cases Json.arr.inj (Option.some.inj (happrovals.symm.trans hlist))
    cases approvals' with
    | nil => exact absurd hperm.eq_nil (by simp)
    | cons first' rest' =>
      exact ⟨first', rest', happrovals',
        fun approval hmem => hall approval (hperm.mem_iff.mpr hmem)⟩

theorem PackageShape.alike {record record' : Members} (h : PackageShape platform record)
    (halike : Alike record record') : PackageShape platform record' := by
  have hother : ∀ key ≠ "approvalBundle", record'.lookup key = record.lookup key :=
    halike.package.symm.others
  refine ⟨halike.package.rejectedKey packageKeys ▸ h.undeclared, ?_, ?_, ?_, ?_, ?_, ?_, ?_⟩
  · rw [hother "version" (by decide)]
    exact h.version
  · rw [hother "type" (by decide)]
    exact h.type
  · rw [hasOwn, hother "executionPayload" (by decide)]
    exact h.payload
  · rw [hother "executionPayload" (by decide)]
    exact h.payload_ne_null
  · rw [hother "actionEnvelope" (by decide)]
    exact h.envelope
  · obtain ⟨members, members', hmembers, hmembers', hsame, approvals, approvals', happrovals,
      happrovals', hperm⟩ := halike.bundle
    obtain ⟨_, heq, hshape⟩ := h.bundle
    cases Json.obj.inj (Option.some.inj (hmembers.symm.trans heq))
    exact ⟨members', hmembers', hshape.alike hsame happrovals happrovals' hperm⟩
  · rw [hasOwn, hother "createdAt" (by decide)]
    exact h.createdAt

theorem Alike.part {record record' : Members} (h : Alike record record') {name : String}
    (hname : name ≠ "approvalBundle") : part (.obj record) name = part (.obj record') name := by
  simp only [PackageVerification.part, Json.member, h.package.others name hname]

theorem Alike.envelopeOf {record record' : Members} (h : Alike record record') :
    envelopeOf (.obj record) = envelopeOf (.obj record') :=
  h.part (by decide)

/-- What the checks in front of the bundle read is not the bundle. -/
theorem Alike.verifyAction {record record' : Members} (h : Alike record record')
    (config : VerificationConfig) :
    verifyAction platform config (.obj record) = verifyAction platform config (.obj record') := by
  unfold PackageVerification.verifyAction
  have henvelope := h.part (show "actionEnvelope" ≠ "approvalBundle" by decide)
  have hpayload := h.part (show "executionPayload" ≠ "approvalBundle" by decide)
  rw [henvelope, hpayload]

theorem Alike.bundleOf {record record' : Members} (h : Alike record record') :
    at? (some (bundleOf (.obj record))) ["actionEnvelopeHash"] =
        at? (some (bundleOf (.obj record'))) ["actionEnvelopeHash"] ∧
      (approvalsOf (bundleOf (.obj record))).Perm (approvalsOf (bundleOf (.obj record'))) := by
  obtain ⟨members, members', hmembers, hmembers', hsame, approvals, approvals', happrovals,
    happrovals', hperm⟩ := h.bundle
  have hbundle : PackageVerification.bundleOf (.obj record) = .obj members := by
    simp [PackageVerification.bundleOf, PackageVerification.part, Json.member, hmembers]
  have hbundle' : PackageVerification.bundleOf (.obj record') = .obj members' := by
    simp [PackageVerification.bundleOf, PackageVerification.part, Json.member, hmembers']
  rw [hbundle, hbundle']
  constructor
  · simp [at?, Json.member, hsame.others "actionEnvelopeHash" (by decide)]
  · simpa [approvalsOf, at?, Json.member, happrovals, happrovals'] using hperm

theorem Alike.acceptedIn {record record' : Members} (h : Alike record record')
    {config : VerificationConfig} {approval : Json} {signer : TrustedSigner}
    (haccepted : AcceptedIn platform config (.obj record) approval signer) :
    AcceptedIn platform config (.obj record') approval signer := by
  unfold AcceptedIn timeOptions at *
  rwa [← h.envelopeOf]

/-- **The order of the Approvals.** Of two packages that differ in it, both pass or none. -/
theorem Alike.passes {record record' : Members} (h : Alike record record')
    {config : VerificationConfig} (hpasses : Passes platform config (.obj record)) :
    Passes platform config (.obj record') := by
  obtain ⟨hhash, hperm⟩ := h.bundleOf
  obtain ⟨approval, hmem, signer, haccepted, hpropose, hproposer⟩ := hpasses.proposed
  obtain ⟨_, heq, hshape⟩ := hpasses.shape
  cases heq
  refine ⟨⟨record', rfl, hshape.alike h⟩, h.verifyAction config ▸ hpasses.action, ?_,
    fun approval hmem => ?_, ?_⟩
  · rw [← hhash, ← h.envelopeOf]
    exact hpasses.hash
  · obtain ⟨signer, haccepted⟩ := hpasses.approvals approval (hperm.mem_iff.mpr hmem)
    exact ⟨signer, h.acceptedIn haccepted⟩
  · refine ⟨approval, hperm.mem_iff.mp hmem, signer, h.acceptedIn haccepted, hpropose, ?_⟩
    rwa [← h.envelopeOf]

/-- The Approvals that a package carries, where it has the shape of one. -/
def Carries (record members : Members) (approvals : List Json) : Prop :=
  record.lookup "approvalBundle" = some (.obj members) ∧
    members.lookup "approvals" = some (.arr approvals)

theorem withApprovals_obj {record members : Members} {approvals : List Json}
    (hmembers : record.lookup "approvalBundle" = some (.obj members)) :
    withApprovals approvals (.obj record) =
      .obj (replaced "approvalBundle" (.obj (replaced "approvals" (.arr approvals) members))
        record) := by
  simp [withApprovals, withMember, bundleOf, part, Json.member, hmembers]

theorem Carries.alike {record members : Members} {approvals approvals' : List Json}
    (h : Carries record members approvals) (hperm : approvals.Perm approvals') :
    Alike record (replaced "approvalBundle" (.obj (replaced "approvals" (.arr approvals') members))
      record) where
  package := sameBut_replaced _ _ record
  bundle := by
    refine ⟨members, replaced "approvals" (.arr approvals') members, h.1, ?_,
      sameBut_replaced _ _ members, approvals, approvals', h.2, ?_, hperm⟩
    · rw [lookup_replaced, if_pos rfl, h.1, Option.map_some]
    · rw [lookup_replaced, if_pos rfl, h.2, Option.map_some]

theorem PackageShape.carries {record : Members} (h : PackageShape platform record) :
    ∃ members approvals, Carries record members approvals ∧ approvals ≠ [] := by
  obtain ⟨members, hmembers, hbundle⟩ := h.bundle
  obtain ⟨first, rest, happrovals, -⟩ := hbundle.approvals
  exact ⟨members, first :: rest, ⟨hmembers, happrovals⟩, List.cons_ne_nil first rest⟩

theorem Carries.approvalsOf {record members : Members} {approvals : List Json}
    (h : Carries record members approvals) : approvalsOf (bundleOf (.obj record)) = approvals := by
  simp [PackageVerification.approvalsOf, bundleOf, part, at?, Json.member, h.1, h.2]

/-- A package whose reordered form has a shape has one itself. -/
theorem carries_of_withApprovals {actionPackage : Json} {approvals : List Json}
    (hperm : approvals.Perm (approvalsOf (bundleOf actionPackage)))
    (h : ∃ record, withApprovals approvals actionPackage = .obj record ∧
      PackageShape platform record) :
    ∃ record members approvals', actionPackage = .obj record ∧
      Carries record members approvals' := by
  obtain ⟨reordered, hreordered, hshape⟩ := h
  obtain ⟨members', approvals', ⟨hmembers', happrovals'⟩, hne⟩ := hshape.carries
  cases actionPackage with
  | obj record =>
    cases hbundle : record.lookup "approvalBundle" with
    | none =>
      cases hreordered
      rw [lookup_replaced, if_pos rfl, hbundle] at hmembers'
      cases hmembers'
    | some bundle =>
      cases hreordered
      rw [lookup_replaced, if_pos rfl, hbundle, Option.map_some] at hmembers'
      have hof : bundleOf (.obj record) = bundle := by
        simp [bundleOf, part, Json.member, hbundle]
      rw [hof] at hmembers' hperm
      cases bundle with
      | obj members =>
        cases hmembers'
        rw [lookup_replaced, if_pos rfl, Option.map_eq_some_iff] at happrovals'
        obtain ⟨old, hold, heq⟩ := happrovals'
        cases heq
        cases old with
        | arr items => exact ⟨record, members, items, rfl, hbundle, hold⟩
        | _ =>
          -- what is no list has no Approvals, so none were given
          have hnone : PackageVerification.approvalsOf (.obj members) = [] := by
            simp [PackageVerification.approvalsOf, at?, Json.member, hold]
          rw [hnone] at hperm
          exact absurd hperm.eq_nil hne
      | _ => cases hmembers'
  | _ => cases hreordered

theorem verifies_withApprovals {config : VerificationConfig} {actionPackage : Json}
    {approvals : List Json} (hperm : approvals.Perm (approvalsOf (bundleOf actionPackage))) :
    Verifies platform config (withApprovals approvals actionPackage) ↔
      Verifies platform config actionPackage := by
  unfold Verifies
  rw [verifyActionPackage_eq_ok, verifyActionPackage_eq_ok]
  constructor
  · intro h
    obtain ⟨record, members, approvals', rfl, hcarries⟩ := carries_of_withApprovals hperm h.shape
    rw [hcarries.approvalsOf] at hperm
    rw [withApprovals_obj hcarries.1] at h
    exact (hcarries.alike hperm.symm).symm.passes h
  · intro h
    obtain ⟨record, rfl, hshape⟩ := h.shape
    obtain ⟨members, approvals', hcarries, -⟩ := hshape.carries
    rw [hcarries.approvalsOf] at hperm
    rw [withApprovals_obj hcarries.1]
    exact (hcarries.alike hperm.symm).passes h

end

/-! ## A package and its signer -/

/-- A compact JWS, put together from its parts. -/
def compact (header payload signature : String) : String :=
  header ++ "." ++ payload ++ "." ++ signature

theorem compact_parts {header payload signature : String}
    (hheader : isBase64urlText header.toList = true)
    (hpayload : isBase64urlText payload.toList = true)
    (hsignature : isBase64urlText signature.toList = true) :
    (compact header payload signature).toList.splitOn '.' =
      [header.toList, payload.toList, signature.toList] := by
  have hdot : ∀ {text : List Char}, isBase64urlText text = true → '.' ∉ text := by
    intro text htext hmem
    obtain ⟨-, hall⟩ := Bool.and_eq_true_iff.mp htext
    exact absurd (List.all_eq_true.mp hall '.' hmem) (by decide)
  have hlist : (compact header payload signature).toList =
      header.toList ++ '.' :: (payload.toList ++ '.' :: signature.toList) := by
    simp [compact]
  rw [hlist, List.splitOn_append_cons_self_of_not_mem (hdot hheader),
    List.splitOn_append_cons_self_of_not_mem (hdot hpayload),
    List.splitOn_eq_singleton (hdot hsignature)]

theorem base64url_of_ofList (text : String) {letters : List Char} (h : text = String.ofList letters)
    (hletters : isBase64urlText letters = true) : isBase64urlText text.toList = true := by
  rw [h, String.toList_ofList]
  exact hletters

theorem toUTF8_valid (text : String) : text.toUTF8.IsValidUTF8 := text.isValidUTF8

theorem text_toUTF8 (platform : Platform) (text : String) : platform.text text.toUTF8 = text := by
  have hdecode : String.fromUTF8? text.toUTF8 = some (String.fromUTF8 _ (toUTF8_valid text)) :=
    dif_pos (toUTF8_valid text)
  rw [Platform.text, hdecode]
  rfl

namespace Example

def payload : Json := .obj [("name", .str "send"), ("arguments", .obj [])]

def payloadHash : HashObject := ⟨"sha-256", "HNtbWT9sQc7h7CGkqsb33QpWUht5vvtW3qPURQuwzpg"⟩

def envelope : Json := .obj [
  ("version", .str "1"), ("type", .str "ActionEnvelope"),
  ("proposer", .obj [("did", .str "did:web:alice.example")]),
  ("target", .obj [("applicationDid", .str "did:web:app.example")]),
  ("executionProfile",
    .obj [("id", .str "did:web:profiles.oma3.org:mcp"), ("format", .str "mcp.toolsCall")]),
  ("executionPayloadHash", hashJson payloadHash),
  ("actionId", .obj [("value", .str "did:web:alice.example:actions:1")]),
  ("createdAt", .str "2026-01-01T00:00:00.000Z"), ("expiresAt", .str "2026-01-01T01:00:00.000Z")]

def envelopeHash : HashObject := ⟨"sha-256", "nmJrAy6faOhmxWS0URB2__GuqkZHafcjaZ6AnOn8sKo"⟩

def signedPayload : Json := .obj [
  ("type", .str "ApprovalPayload"), ("actionEnvelopeHash", hashJson envelopeHash),
  ("decision", .str "propose"), ("signerDid", .str "did:web:alice.example"),
  ("createdAt", .str "2026-01-01T00:00:00Z")]

def signedText : String :=
  "\x7b\"actionEnvelopeHash\":\x7b\"alg\":\"sha-256\",\"value\":\"nmJrAy6faOhmxWS0URB2__GuqkZHafcjaZ6AnOn8sKo\"\x7d,\"createdAt\":\"2026-01-01T00:00:00Z\",\"decision\":\"propose\",\"signerDid\":\"did:web:alice.example\",\"type\":\"ApprovalPayload\"\x7d"

/-- The header, the payload and the signature, in base64url. -/
def header : String :=
  "eyJhbGciOiJFZERTQSIsImtpZCI6ImRpZDp3ZWI6YWxpY2UuZXhhbXBsZSNrZXktMSJ9"

def middle : String :=
  "eyJhY3Rpb25FbnZlbG9wZUhhc2giOnsiYWxnIjoic2hhLTI1NiIsInZhbHVlIjoibm1KckF5NmZhT2hteFdTMFVSQjJfX0d1cWtaSGFmY2phWjZBbk9uOHNLbyJ9LCJjcmVhdGVkQXQiOiIyMDI2LTAxLTAxVDAwOjAwOjAwWiIsImRlY2lzaW9uIjoicHJvcG9zZSIsInNpZ25lckRpZCI6ImRpZDp3ZWI6YWxpY2UuZXhhbXBsZSIsInR5cGUiOiJBcHByb3ZhbFBheWxvYWQifQ"

def signature : String :=
  "zEfk0Dg-gsv3jPT2Y9nmZc0IDRT8S6hCkpO68YSnNsvB1C3zdaR6df7Fal9IVcvMx4b1-_iUNCqQzw_dUBt-Cw"

def jws : String := compact header middle signature

def key : Json := .obj [("kty", .str "OKP"), ("crv", .str "Ed25519"),
  ("x", .str "11qYAYKxCrfVS_7TyWQHOg7hcvPapiMlrwIaaPcHURo"),
  ("kid", .str "did:web:alice.example#key-1")]

def platform : Platform where
  dateParse text := ([
    ("2026-01-01T00:00:00.000Z", JsNumber.finite 1767225600000),
    ("2026-01-01T00:00:00Z", .finite 1767225600000),
    ("2026-01-01T01:00:00.000Z", .finite 1767229200000)].lookup text).getD .nan
  clock := .finite 1767225601000
  strictJsonParse text := if text = signedText then some signedPayload else none
  canonicalize json := if json = signedPayload then signedText else "null"
  computeJsonHash json := if json = envelope then envelopeHash else payloadHash
  decodeBase64url text := (if text = middle then signedText else "").toUTF8
  lossyText _ := ""
  didJwkToJwk _ := none
  samePublicKey left right := decide (left = right)
  verifySuiteCompactJws value jwk kid :=
    decide (value = jws ∧ jwk = key ∧ kid = "did:web:alice.example#key-1")

def config : VerificationConfig where
  trustedSigners := [⟨"did:web:alice.example", some key⟩]
  trustedApplicationDids := some ["did:web:app.example"]

def approvalMembers : Members := [
  ("version", .str "1"), ("type", .str "Approval"), ("actionEnvelopeHash", hashJson envelopeHash),
  ("decision", .str "propose"), ("signature", .obj [("format", .str "jws"), ("value", .str jws)]),
  ("createdAt", .str "2026-01-01T00:00:00Z")]

def bundleMembers : Members := [
  ("version", .str "1"), ("type", .str "ApprovalBundle"),
  ("actionEnvelopeHash", hashJson envelopeHash), ("approvals", .arr [.obj approvalMembers])]

/-- The package, with further members. -/
def packageMembers (others : Members) : Members := [
  ("version", .str "1"), ("type", .str "ActionPackage"), ("executionPayload", payload),
  ("actionEnvelope", envelope), ("approvalBundle", .obj bundleMembers)] ++ others

theorem header_base64url : isBase64urlText header.toList = true :=
  base64url_of_ofList header rfl rfl

set_option maxRecDepth 4000 in
theorem middle_base64url : isBase64urlText middle.toList = true :=
  base64url_of_ofList middle rfl rfl

theorem signature_base64url : isBase64urlText signature.toList = true :=
  base64url_of_ofList signature rfl rfl

theorem jws_parts : jws.toList.splitOn '.' = [header.toList, middle.toList, signature.toList] :=
  compact_parts header_base64url middle_base64url signature_base64url

theorem approval_shape : ApprovalShape platform approvalMembers where
  undeclared := by decide
  version := rfl
  type := rfl
  hash := rfl
  decision := by decide
  signature := by
    have hcompact : isCompactJws jws = true := by
      unfold isCompactJws
      rw [jws_parts]
      simp [header_base64url, middle_base64url, signature_base64url]
    change (isRecordOf ["format", "value"]
      (some (.obj [("format", .str "jws"), ("value", .str jws)])) && true &&
        isCompactJws jws) = true
    rw [hcompact]
    rfl
  createdAt := rfl
  expiresAt := by decide

theorem bundle_shape : BundleShape platform bundleMembers where
  undeclared := by decide
  version := rfl
  type := rfl
  hash := rfl
  assembledBy := by decide
  createdAt := by decide
  approvals := ⟨.obj approvalMembers, [], rfl, fun approval hmem =>
    ⟨approvalMembers, List.mem_singleton.mp hmem, approval_shape⟩⟩

theorem decoded_middle : platform.text (platform.decodeBase64url middle) = signedText := by
  have hdecode : platform.decodeBase64url middle = signedText.toUTF8 := by
    simp only [platform, if_true]
  rw [hdecode, text_toUTF8]

theorem parsed_text : platform.strictJsonParse signedText = some signedPayload := by
  simp only [platform, if_true]

theorem canonical_text : platform.canonicalize signedPayload = signedText := by
  simp only [platform, if_true]

theorem payloadPart_jws : payloadPart jws = some middle := by
  rw [payloadPart, jws_parts]
  simp only [List.getElem?_cons_succ, List.getElem?_cons_zero, Option.map_some,
    String.ofList_toList]

theorem signedPayload_shape : isCanonicalApprovalPayload platform signedPayload = true :=
  rfl

theorem approval_decodes : Decodes platform (.obj approvalMembers) signedPayload jws middle where
  carried := rfl
  parted := payloadPart_jws
  parsed := by rw [decoded_middle, parsed_text]
  shape := signedPayload_shape
  canonical := by rw [decoded_middle, canonical_text]

theorem signed_by : SignedBy platform ⟨"did:web:alice.example", some key⟩ jws :=
  ⟨key, "did:web:alice.example#key-1", rfl, rfl, by simp [platform]⟩

theorem approval_accepted : Accepts platform config.trustedSigners envelopeHash
    ⟨envelope, platform.clock, .finite 0⟩ (.obj approvalMembers)
    ⟨"did:web:alice.example", some key⟩ where
  hash := rfl
  trusted := rfl
  signed := ⟨signedPayload, jws, middle, approval_decodes, signed_by,
    ⟨rfl, rfl, rfl, rfl⟩, rfl⟩
  time := by decide +kernel

theorem package_shape {others : Members}
    (hundeclared : rejectedKey (packageMembers others) packageKeys = none)
    (hcreatedAt : others.lookup "createdAt" = none) :
    PackageShape platform (packageMembers others) where
  undeclared := hundeclared
  version := rfl
  type := rfl
  payload := rfl
  payload_ne_null := fun h => nomatch h
  envelope := ⟨_, rfl, rfl⟩
  bundle := ⟨_, rfl, bundle_shape⟩
  createdAt := by
    have hnone : (packageMembers others).lookup "createdAt" = none := hcreatedAt
    simp [hasOwn, hnone]

theorem package_verifies {others : Members}
    (hundeclared : rejectedKey (packageMembers others) packageKeys = none)
    (hcreatedAt : others.lookup "createdAt" = none) :
    Verifies platform config (.obj (packageMembers others)) := by
  have haction : verifyAction platform config (.obj (packageMembers [])) = .ok () := by
    decide +kernel
  have hhash : platform.computeJsonHash envelope = envelopeHash := by
    simp only [platform, if_true]
  have haccepted : AcceptedIn platform config (.obj (packageMembers others))
      (.obj approvalMembers) ⟨"did:web:alice.example", some key⟩ := by
    change Accepts platform config.trustedSigners (platform.computeJsonHash envelope)
      ⟨envelope, platform.clock, .finite 0⟩ _ _
    rw [hhash]
    exact approval_accepted
  refine verifyActionPackage_eq_ok.mpr ⟨⟨_, rfl, package_shape hundeclared hcreatedAt⟩, haction,
    ?_, fun approval hmem => ?_, .obj approvalMembers, List.mem_singleton_self _, _, haccepted,
    rfl, rfl⟩
  · change hashesEqual (some (hashJson envelopeHash))
      (some (hashJson (platform.computeJsonHash envelope))) = true
    rw [hhash]
    decide +kernel
  · cases List.mem_singleton.mp hmem
    exact ⟨_, haccepted⟩

end Example

/-! ## The verdict -/

/-- **What a verdict says.** The order of the Approvals does not matter, and a
verified package is what its signers approved exactly where no field of the
package, its bundle or an Approval has the empty name and the signed bytes are
UTF-8. -/
theorem verified_order_and_soundness (platform : Platform) (config : VerificationConfig)
    (actionPackage : Json) :
    (∀ approvals : List Json, approvals.Perm (approvalsOf (bundleOf actionPackage)) →
      (Verifies platform config (withApprovals approvals actionPackage) ↔
        Verifies platform config actionPackage)) ∧
    (Verifies platform config actionPackage →
      (Sound platform config actionPackage ↔ Plain platform actionPackage)) :=
  ⟨fun _ hperm => verifies_withApprovals hperm, fun hverified =>
    ⟨Sound.plain, (verifyActionPackage_eq_ok.mp hverified).sound⟩⟩

/-- A package with an undeclared field of the empty name is verified. -/
theorem unnamed_field_verified :
    Verifies Example.platform Example.config (.obj (Example.packageMembers [("", .null)])) ∧
      ¬Sound Example.platform Example.config (.obj (Example.packageMembers [("", .null)])) :=
  ⟨Example.package_verifies (by decide) rfl,
    fun h => absurd (h.declared.2 "" (by decide)) (by decide)⟩

end Mpas.PackageVerification
