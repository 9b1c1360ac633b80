import Mpas.PackageVerification

/-!
# What a verified Action Package is

* `verifyApproval_eq_ok`: when one Approval is accepted;
* `verifyActionPackage_eq_ok`: when a package is verified;
* `Passes.sound`, `Sound.plain`: what a verified package is, and where it is that.
-/

namespace Mpas.PackageVerification

open Checks

/-! ## Declared fields -/

def names : Option Json → List String
  | some (.obj record) => record.map Prod.fst
  | _ => []

/-- An object with declared fields only. -/
def Declared (allowedKeys : List String) (value : Option Json) : Prop :=
  (∃ record, value = some (.obj record)) ∧ ∀ key ∈ names value, key ∈ allowedKeys

theorem rejectUndeclared_eq_ok {record : Members} {allowedKeys : List String}
    {rejection : String → Rejection} {u : Unit} :
    rejectUndeclared record allowedKeys rejection = .ok u ↔
      rejectedKey record allowedKeys = none := by
  unfold rejectUndeclared
  cases rejectedKey record allowedKeys <;> simp

/-- What is not rejected has declared fields, except where the first of the
others has the empty name. -/
theorem declared_of_rejectedKey {record : Members} {allowedKeys : List String}
    (h : rejectedKey record allowedKeys = none) (hempty : "" ∉ record.map Prod.fst) :
    Declared allowedKeys (some (.obj record)) := by
  refine ⟨⟨record, rfl⟩, fun key hkey => ?_⟩
  unfold rejectedKey at h
  cases hfirst : firstUnexpectedKey record allowedKeys with
  | none =>
    have hallowed := List.find?_eq_none.mp hfirst key hkey
    simpa using hallowed
  | some first =>
    rw [hfirst] at h
    have hmem : first ∈ record.map Prod.fst := List.mem_of_find?_eq_some hfirst
    by_cases hname : first = ""
    · exact absurd (hname ▸ hmem) hempty
    · simp [hname] at h

theorem isRecordOf_declared {allowedKeys : List String} {value : Option Json}
    (h : isRecordOf allowedKeys value = true) : Declared allowedKeys value := by
  unfold isRecordOf at h
  split at h
  · rename_i record
    refine ⟨⟨record, rfl⟩, fun key hkey => ?_⟩
    have hallowed := List.find?_eq_none.mp (Option.isNone_iff_eq_none.mp h) key hkey
    simpa using hallowed
  · cases h

theorem strictEquals_eq {a b : Option Json} (h : Json.strictEquals a b = true) : a = b := by
  unfold Json.strictEquals at h
  split at h <;> simp_all

/-! ## One Approval -/

section Approval

variable (platform : Platform)

/-- The Approval carries a signature whose middle part is the payload. -/
structure Decodes (approval payload : Json) (jws middle : String) : Prop where
  carried : at? (some approval) ["signature", "value"] = some (.str jws)
  parted : payloadPart jws = some middle
  parsed : platform.strictJsonParse (platform.text (platform.decodeBase64url middle)) = some payload
  shape : isCanonicalApprovalPayload platform payload = true
  canonical : platform.canonicalize payload = platform.text (platform.decodeBase64url middle)

/-- The signature is valid under the signer's key. -/
def SignedBy (signer : TrustedSigner) (jws : String) : Prop :=
  ∃ key kid, resolveTrustedSignerJwk platform signer = some key ∧
    verificationKid platform key signer.did = some kid ∧
      platform.verifySuiteCompactJws jws key kid = true

/-- The comparisons of the signed payload with the fields of the Approval. -/
structure Matches (payload approval : Json) : Prop where
  hash : hashesEqual (at? (some payload) ["actionEnvelopeHash"])
    (at? (some approval) ["actionEnvelopeHash"]) = true
  decision : Json.strictEquals (at? (some payload) ["decision"])
    (at? (some approval) ["decision"]) = true
  createdAt : Json.strictEquals (at? (some payload) ["createdAt"])
    (at? (some approval) ["createdAt"]) = true
  expiresAt : Json.strictEquals (at? (some payload) ["expiresAt"])
    (at? (some approval) ["expiresAt"]) = true

structure Accepts (trustedSigners : List TrustedSigner) (actionEnvelopeHash : HashObject)
    (options : ApprovalTimeOptions) (approval : Json) (signer : TrustedSigner) : Prop where
  hash : hashesEqual (at? (some approval) ["actionEnvelopeHash"])
    (some (hashJson actionEnvelopeHash)) = true
  trusted : trustedByDid trustedSigners signer.did = some signer
  signed : ∃ payload jws middle, Decodes platform approval payload jws middle ∧
    SignedBy platform signer jws ∧ Matches payload approval ∧
      at? (some payload) ["signerDid"] = some (.str signer.did)
  time : validateApprovalTime platform approval options = none

def verifiedApproval (approval : Json) (signer : TrustedSigner) : VerifiedApproval where
  approval := approval
  signerDid := signer.did
  decision := at? (some approval) ["decision"]
  createdAt := at? (some approval) ["createdAt"]

variable {platform}

theorem decodeApprovalJws_eq_ok {approval payload : Json} :
    decodeApprovalJws platform approval = .ok payload ↔
      ∃ jws part, Decodes platform approval payload jws part := by
  constructor
  · intro h
    unfold decodeApprovalJws at h
    split at h
    · rename_i jws hjws
      split at h
      · rename_i part hpart
        dsimp only at h
        split at h
        · rename_i parsed hparse
          split at h
          · cases h
          · rename_i hshape
            split at h
            · cases h
            · rename_i hcanonical
              cases h
              exact ⟨jws, part, hjws, hpart, hparse, Bool.not_eq_false _ ▸ hshape,
                not_not.mp hcanonical⟩
        · cases h
      · cases h
    · cases h
  · rintro ⟨jws, part, hjws, hpart, hparse, hshape, hcanonical⟩
    simp [decodeApprovalJws, hjws, hpart, hparse, hshape, hcanonical]

theorem trustedByDid_did {trustedSigners : List TrustedSigner} {did : Did} {signer : TrustedSigner}
    (h : trustedByDid trustedSigners did = some signer) :
    signer ∈ trustedSigners ∧ signer.did = did := by
  unfold trustedByDid at h
  refine ⟨List.mem_reverse.mp (List.mem_of_find?_eq_some h), ?_⟩
  have hfound := List.find?_some h
  exact of_decide_eq_true hfound

theorem signer_checked {signer : TrustedSigner} {key : Json} (jws : String)
    (hkey : resolveTrustedSignerJwk platform signer = some key) :
    (verificationKid platform key signer.did).any (platform.verifySuiteCompactJws jws key) = true ↔
      SignedBy platform signer jws := by
  rw [Option.any_eq_true]
  constructor
  · rintro ⟨kid, hkid, hvalid⟩
    exact ⟨key, kid, hkey, hkid, hvalid⟩
  · rintro ⟨key', kid, hkey', hkid, hvalid⟩
    cases hkey.symm.trans hkey'
    exact ⟨kid, hkid, hvalid⟩

/-- **One Approval.** What it takes to be accepted, wherever it stands in the bundle. -/
theorem verifyApproval_eq_ok {trustedSigners : List TrustedSigner}
    {actionEnvelopeHash : HashObject} {options : ApprovalTimeOptions} {path : String}
    {approval : Json} {verified : VerifiedApproval} :
    verifyApproval platform trustedSigners actionEnvelopeHash options path approval =
        .ok verified ↔
      ∃ signer, Accepts platform trustedSigners actionEnvelopeHash options approval signer ∧
        verified = verifiedApproval approval signer := by
  unfold verifyApproval
  rw [throwIf_bind_eq_ok, not_not, bind_eq_ok]
  constructor
  · rintro ⟨hhash, payload, hdecode, h⟩
    rw [mapError_eq_ok, decodeApprovalJws_eq_ok] at hdecode
    obtain ⟨jws, middle, hdecodes⟩ := hdecode
    rw [hdecodes.carried] at h
    split at h
    · rename_i signerDid jws' hdid hjws
      cases hjws
      split at h
      · cases h
      · rename_i signer hsigner
        obtain ⟨-, hsame⟩ := trustedByDid_did hsigner
        split at h
        · cases h
        · rename_i key hkey
          rw [throwIf_bind_eq_ok, not_not, throwIf_bind_eq_ok, not_not] at h
          obtain ⟨hvalid, ⟨hpayloadHash, hdecision, hcreated, hexpires, hsigned⟩, h⟩ := h
          split at h
          · cases h
          · rename_i htime
            cases h
            subst hsigned
            exact ⟨signer, ⟨hhash, hsigner, ⟨payload, jws, middle, hdecodes,
              (signer_checked jws hkey).mp hvalid, ⟨hpayloadHash, hdecision, hcreated, hexpires⟩,
              hdid⟩, htime⟩, rfl⟩
    · cases h
  · rintro ⟨signer, ⟨hhash, htrusted, ⟨payload, jws, middle, hdecodes, hsigned, hmatches, hdid⟩,
      htime⟩, rfl⟩
    refine ⟨hhash, payload, ?_, ?_⟩
    · rw [mapError_eq_ok, decodeApprovalJws_eq_ok]
      exact ⟨jws, middle, hdecodes⟩
    · obtain ⟨key, kid, hkey, hkid, hvalid⟩ := hsigned
      have hchecked := (signer_checked jws hkey).mpr ⟨key, kid, hkey, hkid, hvalid⟩
      simp only [hdid, hdecodes.carried, htrusted, hkey]
      rw [throwIf_bind_eq_ok, not_not, throwIf_bind_eq_ok, not_not]
      refine ⟨hchecked, ⟨hmatches.hash, hmatches.decision, hmatches.createdAt,
        hmatches.expiresAt, trivial⟩, ?_⟩
      simp only [htime]
      rfl

theorem verifyApprovals_eq_ok {trustedSigners : List TrustedSigner}
    {actionEnvelopeHash : HashObject} {options : ApprovalTimeOptions} {approvals : List Json} :
    ∀ {index : Nat} {verified : List VerifiedApproval},
      verifyApprovals platform trustedSigners actionEnvelopeHash options index approvals =
          .ok verified ↔
        List.Forall₂ (fun approval v => ∃ signer,
          Accepts platform trustedSigners actionEnvelopeHash options approval signer ∧
            v = verifiedApproval approval signer) approvals verified := by
  induction approvals with
  | nil =>
    intro index verified
    rw [verifyApprovals, List.forall₂_nil_left_iff]
    exact ⟨fun h => (Except.ok.inj h).symm, fun h => by rw [h]⟩
  | cons approval rest ih =>
    intro index verified
    rw [verifyApprovals, bind_eq_ok]
    constructor
    · rintro ⟨first, hfirst, h⟩
      obtain ⟨others, hothers, h⟩ := bind_eq_ok.mp h
      cases h
      exact .cons (verifyApproval_eq_ok.mp hfirst) (ih.mp hothers)
    · intro h
      cases h with
      | cons hfirst hothers =>
        exact ⟨_, verifyApproval_eq_ok.mpr hfirst,
          bind_eq_ok.mpr ⟨_, ih.mpr hothers, rfl⟩⟩

/-! ## The shape of the bundle -/

variable (platform) in
/-- The checks of one Approval's shape, wherever it stands. -/
structure ApprovalShape (record : Members) : Prop where
  undeclared : rejectedKey record approvalKeys = none
  version : record.lookup "version" = some (.str "1")
  type : record.lookup "type" = some (.str "Approval")
  hash : isHashObject (record.lookup "actionEnvelopeHash") = true
  decision : isDecision (record.lookup "decision") = true
  signature : isSignatureObject (record.lookup "signature") = true
  createdAt : isMpasTimestamp platform (record.lookup "createdAt") = true
  expiresAt : hasOwn record "expiresAt" = true →
    isMpasTimestamp platform (record.lookup "expiresAt") = true

theorem validateApprovalStructure_eq_ok {approval : Json} {path : String} :
    validateApprovalStructure platform approval path = .ok () ↔
      ∃ record, approval = .obj record ∧ ApprovalShape platform record := by
  cases approval with
  | obj record =>
    simp only [validateApprovalStructure, bind_eq_ok, rejectUndeclared_eq_ok, throwIf_eq_ok,
      not_not, not_and]
    constructor
    · rintro ⟨_, h1, _, h2, _, h3, _, h4, _, h5, _, h6, _, h7, h8⟩
      exact ⟨record, rfl, h1, h2, h3, h4, h5, h6, h7, h8⟩
    · rintro ⟨_, heq, h1, h2, h3, h4, h5, h6, h7, h8⟩
      cases heq
      exact ⟨(), h1, (), h2, (), h3, (), h4, (), h5, (), h6, (), h7, h8⟩
  | _ => simp [validateApprovalStructure]

theorem validateApprovalStructures_eq_ok {approvals : List Json} : ∀ {index : Nat},
    validateApprovalStructures platform index approvals = .ok () ↔
      ∀ approval ∈ approvals, ∃ record, approval = .obj record ∧ ApprovalShape platform record := by
  induction approvals with
  | nil => intro index; simp [validateApprovalStructures]
  | cons approval rest ih =>
    intro index
    rw [validateApprovalStructures, bind_eq_ok, List.forall_mem_cons]
    constructor
    · rintro ⟨_, hfirst, hrest⟩
      exact ⟨validateApprovalStructure_eq_ok.mp hfirst, ih.mp hrest⟩
    · rintro ⟨hfirst, hrest⟩
      exact ⟨(), validateApprovalStructure_eq_ok.mpr hfirst, ih.mpr hrest⟩

variable (platform) in
structure BundleShape (record : Members) : Prop where
  undeclared : rejectedKey record bundleKeys = none
  version : record.lookup "version" = some (.str "1")
  type : record.lookup "type" = some (.str "ApprovalBundle")
  hash : isHashObject (record.lookup "actionEnvelopeHash") = true
  assembledBy : hasOwn record "assembledBy" = true → isDid (record.lookup "assembledBy") = true
  createdAt : hasOwn record "createdAt" = true →
    isMpasTimestamp platform (record.lookup "createdAt") = true
  approvals : ∃ first rest, record.lookup "approvals" = some (.arr (first :: rest)) ∧
    ∀ approval ∈ first :: rest, ∃ members, approval = .obj members ∧
      ApprovalShape platform members

theorem validateApprovalBundleStructure_eq_ok {bundle : Json} :
    validateApprovalBundleStructure platform bundle = .ok () ↔
      ∃ record, bundle = .obj record ∧ BundleShape platform record := by
  cases bundle with
  | obj record =>
    simp only [validateApprovalBundleStructure, bind_eq_ok, rejectUndeclared_eq_ok, throwIf_eq_ok,
      not_not, not_and]
    constructor
    · rintro ⟨_, h1, _, h2, _, h3, _, h4, _, h5, _, h6, h7⟩
      split at h7
      · rename_i first rest happrovals
        exact ⟨record, rfl, h1, h2, h3, h4, h5, h6, first, rest, happrovals,
          validateApprovalStructures_eq_ok.mp h7⟩
      · cases h7
    · rintro ⟨_, heq, h1, h2, h3, h4, h5, h6, first, rest, happrovals, hall⟩
      cases heq
      refine ⟨(), h1, (), h2, (), h3, (), h4, (), h5, (), h6, ?_⟩
      simp only [happrovals]
      exact validateApprovalStructures_eq_ok.mpr hall
  | _ => simp [validateApprovalBundleStructure]

/-! ## The shape of the package -/

variable (platform) in
structure PackageShape (record : Members) : Prop where
  undeclared : rejectedKey record packageKeys = none
  version : record.lookup "version" = some (.str "1")
  type : record.lookup "type" = some (.str "ActionPackage")
  payload : hasOwn record "executionPayload" = true
  payload_ne_null : record.lookup "executionPayload" ≠ some .null
  envelope : ∃ members, record.lookup "actionEnvelope" = some (.obj members) ∧
    validateActionEnvelope platform (.obj members)
      { checkExpiry := false, checkTime := false, now := platform.clock } = .ok ()
  bundle : ∃ members, record.lookup "approvalBundle" = some (.obj members) ∧
    BundleShape platform members
  createdAt : hasOwn record "createdAt" = true →
    isMpasTimestamp platform (record.lookup "createdAt") = true

theorem parseEnvelope_eq_ok {envelope : Option Json} :
    parseEnvelope platform envelope = .ok () ↔ ∃ members, envelope = some (.obj members) ∧
      validateActionEnvelope platform (.obj members)
        { checkExpiry := false, checkTime := false, now := platform.clock } = .ok () := by
  unfold parseEnvelope
  split
  · simp
  · simp [mapError_eq_ok]
  · rename_i other hother
    constructor
    · intro h
      cases h
    · rintro ⟨members, heq, -⟩
      exact absurd (Option.some.inj heq) (hother members)

theorem parseBundle_eq_ok {bundle : Option Json} :
    parseBundle platform bundle = .ok () ↔ ∃ members, bundle = some (.obj members) ∧
      BundleShape platform members := by
  unfold parseBundle
  split
  · simp
  · rename_i members
    rw [mapError_eq_ok, validateApprovalBundleStructure_eq_ok]
    simp
  · rename_i other hother
    constructor
    · intro h
      cases h
    · rintro ⟨members, heq, -⟩
      exact absurd (Option.some.inj heq) (hother members)

theorem parseActionPackage_eq_ok {json parsed : Json} :
    parseActionPackage platform json = .ok parsed ↔
      ∃ record, json = .obj record ∧ PackageShape platform record ∧ parsed = json := by
  cases json with
  | obj record =>
    simp only [parseActionPackage, bind_eq_ok, rejectUndeclared_eq_ok, throwIf_eq_ok, not_not,
      not_and]
    constructor
    · rintro ⟨_, h1, _, h2, _, h3, _, h4, _, h5, _, h6, _, h7, _, h8, h⟩
      exact ⟨record, rfl, ⟨h1, h2, h3, Bool.not_eq_false _ ▸ h4, h5,
        parseEnvelope_eq_ok.mp h6, parseBundle_eq_ok.mp h7, h8⟩,
        (Except.ok.inj h).symm⟩
    · rintro ⟨_, heq, ⟨h1, h2, h3, h4, h5, h6, h7, h8⟩, rfl⟩
      cases heq
      exact ⟨(), h1, (), h2, (), h3, (), by rw [h4]; simp, (), h5, (), parseEnvelope_eq_ok.mpr h6,
        (), parseBundle_eq_ok.mpr h7, (), h8, rfl⟩
  | _ => simp [parseActionPackage]

/-! ## The whole chain -/

/-- An Approval has one signer at most. -/
theorem Accepts.unique {trustedSigners : List TrustedSigner} {actionEnvelopeHash : HashObject}
    {options : ApprovalTimeOptions} {approval : Json} {signer signer' : TrustedSigner}
    (h : Accepts platform trustedSigners actionEnvelopeHash options approval signer)
    (h' : Accepts platform trustedSigners actionEnvelopeHash options approval signer') :
    signer = signer' := by
  obtain ⟨payload, jws, middle, hdecodes, -, -, hdid⟩ := h.signed
  obtain ⟨payload', jws', middle', hdecodes', -, -, hdid'⟩ := h'.signed
  cases Json.str.inj (Option.some.inj (hdecodes.carried.symm.trans hdecodes'.carried))
  cases hdecodes.parted.symm.trans hdecodes'.parted
  cases hdecodes.parsed.symm.trans hdecodes'.parsed
  have hsame : signer.did = signer'.did :=
    Json.str.inj (Option.some.inj (hdid.symm.trans hdid'))
  exact Option.some.inj (h.trusted.symm.trans (hsame ▸ h'.trusted))

def envelopeOf (actionPackage : Json) : Json := part actionPackage "actionEnvelope"

def bundleOf (actionPackage : Json) : Json := part actionPackage "approvalBundle"

variable (platform) in
def timeOptions (config : VerificationConfig) (actionPackage : Json) : ApprovalTimeOptions where
  actionEnvelope := envelopeOf actionPackage
  now := config.now.getD platform.clock
  timestampToleranceMs := config.timestampToleranceMs.getD (.finite 0)

variable (platform) in
/-- The Approval is accepted as one of the package. -/
def AcceptedIn (config : VerificationConfig) (actionPackage approval : Json)
    (signer : TrustedSigner) : Prop :=
  Accepts platform config.trustedSigners (platform.computeJsonHash (envelopeOf actionPackage))
    (timeOptions platform config actionPackage) approval signer

variable (platform) in
/-- What a verified package has passed. -/
structure Passes (config : VerificationConfig) (actionPackage : Json) : Prop where
  shape : ∃ record, actionPackage = .obj record ∧ PackageShape platform record
  action : verifyAction platform config actionPackage = .ok ()
  hash : hashesEqual (at? (some (bundleOf actionPackage)) ["actionEnvelopeHash"])
    (some (hashJson (platform.computeJsonHash (envelopeOf actionPackage)))) = true
  approvals : ∀ approval ∈ approvalsOf (bundleOf actionPackage),
    ∃ signer, AcceptedIn platform config actionPackage approval signer
  proposed : ∃ approval ∈ approvalsOf (bundleOf actionPackage), ∃ signer,
    AcceptedIn platform config actionPackage approval signer ∧
      at? (some approval) ["decision"] = some (.str "propose") ∧
        some (.str signer.did) = at? (some (envelopeOf actionPackage)) ["proposer", "did"]

theorem PackageShape.bundle_structure {record : Members} (h : PackageShape platform record) :
    validateApprovalBundleStructure platform (bundleOf (.obj record)) = .ok () := by
  obtain ⟨members, hmembers, hshape⟩ := h.bundle
  have hbundle : bundleOf (.obj record) = .obj members := by
    simp [bundleOf, part, Json.member, hmembers]
  rw [hbundle]
  exact validateApprovalBundleStructure_eq_ok.mpr ⟨members, rfl, hshape⟩

theorem exists_forall₂ {α β : Type} {R : α → β → Prop} {xs : List α}
    (h : ∀ x ∈ xs, ∃ y, R x y) : ∃ ys, List.Forall₂ R xs ys := by
  induction xs with
  | nil => exact ⟨[], .nil⟩
  | cons x xs ih =>
    obtain ⟨⟨y, hy⟩, hrest⟩ := List.forall_mem_cons.mp h
    obtain ⟨ys, hys⟩ := ih hrest
    exact ⟨y :: ys, .cons hy hys⟩

theorem forall₂_mem_left {α β : Type} {R : α → β → Prop} {xs : List α} {ys : List β}
    (h : List.Forall₂ R xs ys) {x : α} (hx : x ∈ xs) : ∃ y ∈ ys, R x y := by
  induction h with
  | nil => cases hx
  | cons hfirst _ ih =>
    rcases List.mem_cons.mp hx with rfl | hrest
    · exact ⟨_, List.mem_cons_self, hfirst⟩
    · obtain ⟨y, hy, hR⟩ := ih hrest
      exact ⟨y, List.mem_cons_of_mem _ hy, hR⟩

theorem forall₂_mem_right {α β : Type} {R : α → β → Prop} {xs : List α} {ys : List β}
    (h : List.Forall₂ R xs ys) {y : β} (hy : y ∈ ys) : ∃ x ∈ xs, R x y :=
  forall₂_mem_left h.flip hy

/-- **The chain.** When a package is verified. -/
theorem verifyActionPackage_eq_ok {config : VerificationConfig} {actionPackage : Json} :
    (∃ verified, verifyActionPackage platform config actionPackage = .ok verified) ↔
      Passes platform config actionPackage := by
  constructor
  · rintro ⟨verified, h⟩
    unfold verifyActionPackage at h
    simp only [bind_eq_ok, mapError_eq_ok, parseActionPackage_eq_ok, throwIf_eq_ok, not_not] at h
    obtain ⟨_, ⟨record, rfl, hshape, -⟩, _, haction, _, -, approvals, happrovals, _, hproposed,
      -⟩ := h
    unfold verifyApprovalBundle at happrovals
    simp only [bind_eq_ok, mapError_eq_ok, throwIf_eq_ok, not_not] at happrovals
    obtain ⟨_, -, _, hhash, verifieds, hall, heq⟩ := happrovals
    cases heq
    have hforall := verifyApprovals_eq_ok.mp hall
    refine ⟨⟨record, rfl, hshape⟩, haction, hhash, fun approval hmem => ?_, ?_⟩
    · obtain ⟨_, -, signer, haccepts, -⟩ := forall₂_mem_left hforall hmem
      exact ⟨signer, haccepts⟩
    · obtain ⟨v, hv, hdecision⟩ := List.any_eq_true.mp hproposed
      obtain ⟨approval, hmem, signer, haccepts, rfl⟩ := forall₂_mem_right hforall hv
      obtain ⟨hpropose, hproposer⟩ := Bool.and_eq_true_iff.mp hdecision
      exact ⟨approval, hmem, signer, haccepts, of_decide_eq_true hpropose,
        of_decide_eq_true hproposer⟩
  · rintro ⟨⟨record, rfl, hshape⟩, haction, hhash, hall, approval, hmem, signer, haccepts,
      hpropose, hproposer⟩
    obtain ⟨verifieds, hforall⟩ := exists_forall₂ (R := fun approval v => ∃ signer,
      AcceptedIn platform config (.obj record) approval signer ∧
        v = verifiedApproval approval signer) fun approval hmem => by
      obtain ⟨signer, haccepts⟩ := hall approval hmem
      exact ⟨_, signer, haccepts, rfl⟩
    obtain ⟨v, hv, signer', haccepts', rfl⟩ := forall₂_mem_left hforall hmem
    cases haccepts.unique haccepts'
    refine ⟨{
      actionId := at? (some (envelopeOf (.obj record))) ["actionId", "value"]
      applicationDid := at? (some (envelopeOf (.obj record))) ["target", "applicationDid"]
      operationName := operationNameFromPayload (part (.obj record) "executionPayload")
      verifiedApprovals :=
        ⟨platform.computeJsonHash (envelopeOf (.obj record)), verifieds⟩ }, ?_⟩
    unfold verifyActionPackage
    simp only [bind_eq_ok, mapError_eq_ok, parseActionPackage_eq_ok, throwIf_eq_ok, not_not]
    refine ⟨_, ⟨record, rfl, hshape, rfl⟩, (), haction, (), hshape.bundle_structure,
      ⟨platform.computeJsonHash (envelopeOf (.obj record)), verifieds⟩, ?_, (), ?_, rfl⟩
    · unfold verifyApprovalBundle
      simp only [bind_eq_ok, mapError_eq_ok, throwIf_eq_ok, not_not]
      exact ⟨(), hshape.bundle_structure, (), hhash, verifieds,
        verifyApprovals_eq_ok.mpr hforall, rfl⟩
    · refine List.any_eq_true.mpr ⟨_, hv, ?_⟩
      rw [Bool.and_eq_true_iff]
      exact ⟨decide_eq_true hpropose, decide_eq_true hproposer⟩

end Approval

/-! ## What the checks establish -/

section Sound

variable (platform : Platform)

def IsHash (value : Option Json) (hash : HashObject) : Prop :=
  at? value ["alg"] = some (.str hash.alg) ∧ at? value ["value"] = some (.str hash.value)

/-- The fields that the signed payload and the Approval have in common. -/
structure SameFields (payload approval : Json) : Prop where
  alg : at? (some payload) ["actionEnvelopeHash", "alg"] =
    at? (some approval) ["actionEnvelopeHash", "alg"]
  value : at? (some payload) ["actionEnvelopeHash", "value"] =
    at? (some approval) ["actionEnvelopeHash", "value"]
  decision : at? (some payload) ["decision"] = at? (some approval) ["decision"]
  createdAt : at? (some payload) ["createdAt"] = at? (some approval) ["createdAt"]
  expiresAt : at? (some payload) ["expiresAt"] = at? (some approval) ["expiresAt"]

/-- No time rule is broken by the Approval's window, which ends with the
envelope where the Approval names no end. -/
structure TimeRules (envelope approval : Json) (now tolerance : JsNumber) : Prop where
  notFromFuture : (now.add tolerance).lt
    (timeOf platform (at? (some approval) ["createdAt"])) = false
  notBeforeEnvelope : (timeOf platform (at? (some approval) ["createdAt"])).lt
    (sub (timeOf platform (at? (some envelope) ["createdAt"])) tolerance) = false
  notAfterEnvelope : ((timeOf platform (at? (some envelope) ["expiresAt"])).add tolerance).lt
    (timeOf platform (at? (some approval) ["createdAt"])) = false
  notEmpty : (effectiveExpiresAt platform approval envelope).le
    (timeOf platform (at? (some approval) ["createdAt"])) = false
  withinEnvelope : ((timeOf platform (at? (some envelope) ["expiresAt"])).add tolerance).lt
    (effectiveExpiresAt platform approval envelope) = false
  unexpired : (effectiveExpiresAt platform approval envelope).le (sub now tolerance) = false

/-- The bytes of the Approval's signature are the canonical JSON of the payload. -/
def CanonicalBytes (approval payload : Json) (jws : String) : Prop :=
  ∃ middle, at? (some approval) ["signature", "value"] = some (.str jws) ∧
    payloadPart jws = some middle ∧
      platform.decodeBase64url middle = (platform.canonicalize payload).toUTF8

/-- The signer signed the Approval, for this envelope. -/
structure SoundApproval (envelope approval : Json) (signer : TrustedSigner) : Prop where
  declared : Declared approvalKeys (some approval)
  signed : ∃ payload jws, SignedBy platform signer jws ∧
    CanonicalBytes platform approval payload jws ∧ Declared payloadKeys (some payload) ∧
      SameFields payload approval ∧ at? (some payload) ["signerDid"] = some (.str signer.did) ∧
        IsHash (at? (some payload) ["actionEnvelopeHash"]) (platform.computeJsonHash envelope)

/-- The payload is one of a profile that is bound to the target, and has the hash. -/
def BoundPayload (config : VerificationConfig) (actionPackage : Json) : Prop :=
  ∃ binding ∈ trustedApplicationBindings platform config,
    some (.str binding.applicationDid) =
        at? (some (envelopeOf actionPackage)) ["target", "applicationDid"] ∧
      some (.str binding.executionProfile.id) =
          at? (some (envelopeOf actionPackage)) ["executionProfile", "id"] ∧
        some (.str binding.executionProfile.format) =
            at? (some (envelopeOf actionPackage)) ["executionProfile", "format"] ∧
          binding.executionProfile.validatePayload (part actionPackage "executionPayload") = true ∧
            IsHash (at? (some (envelopeOf actionPackage)) ["executionPayloadHash"])
              (binding.executionProfile.hashPayload (part actionPackage "executionPayload"))

structure Sound (config : VerificationConfig) (actionPackage : Json) : Prop where
  declared : Declared packageKeys (some actionPackage)
  bundle : Declared bundleKeys (some (bundleOf actionPackage))
  payload : BoundPayload platform config actionPackage
  approvals : ∀ approval ∈ approvalsOf (bundleOf actionPackage),
    ∃ signer ∈ config.trustedSigners,
      SoundApproval platform (envelopeOf actionPackage) approval signer
  times : ∀ approval ∈ approvalsOf (bundleOf actionPackage),
    TimeRules platform (envelopeOf actionPackage) approval (config.now.getD platform.clock)
      (config.timestampToleranceMs.getD (.finite 0))
  unexpired : (timeOf platform (at? (some (envelopeOf actionPackage)) ["expiresAt"])).le
    (sub (config.now.getD platform.clock) (config.timestampToleranceMs.getD (.finite 0))) = false
  validity : (config.maxEnvelopeValidityMs.getD DEFAULT_MAX_ENVELOPE_VALIDITY_MS).lt
    (sub (timeOf platform (at? (some (envelopeOf actionPackage)) ["expiresAt"]))
      (config.now.getD platform.clock)) = false
  proposed : ∃ approval ∈ approvalsOf (bundleOf actionPackage), ∃ signer ∈ config.trustedSigners,
    SoundApproval platform (envelopeOf actionPackage) approval signer ∧
      at? (some approval) ["decision"] = some (.str "propose") ∧
        some (.str signer.did) = at? (some (envelopeOf actionPackage)) ["proposer", "did"]

/-- No field of the package, its bundle or an Approval has the empty name, and
what is signed is UTF-8. -/
structure Plain (actionPackage : Json) : Prop where
  package : "" ∉ names (some actionPackage)
  bundle : "" ∉ names (some (bundleOf actionPackage))
  approvals : ∀ approval ∈ approvalsOf (bundleOf actionPackage), "" ∉ names (some approval)
  text : ∀ approval ∈ approvalsOf (bundleOf actionPackage), ∀ jws middle,
    at? (some approval) ["signature", "value"] = some (.str jws) → payloadPart jws = some middle →
      (platform.decodeBase64url middle).IsValidUTF8

variable {platform}

theorem text_eq_iff {bytes : ByteArray} (h : bytes.IsValidUTF8) {text : String}
    (htext : text = platform.text bytes) : bytes = text.toUTF8 := by
  have hdecode : String.fromUTF8? bytes = some (String.fromUTF8 bytes h) := dif_pos h
  rw [htext, Platform.text, hdecode]
  rfl

theorem hashesEqual_eq {left right : Option Json} (h : hashesEqual left right = true) :
    at? left ["alg"] = at? right ["alg"] ∧ at? left ["value"] = at? right ["value"] := by
  obtain ⟨halg, hvalue⟩ := Bool.and_eq_true_iff.mp h
  exact ⟨strictEquals_eq halg, strictEquals_eq hvalue⟩

theorem isHash_of_hashesEqual {value : Option Json} {hash : HashObject}
    (h : hashesEqual value (some (hashJson hash)) = true) : IsHash value hash :=
  hashesEqual_eq h

theorem Matches.same {payload approval : Json} (h : Matches payload approval) :
    SameFields payload approval :=
  ⟨(hashesEqual_eq h.hash).1, (hashesEqual_eq h.hash).2, strictEquals_eq h.decision,
    strictEquals_eq h.createdAt, strictEquals_eq h.expiresAt⟩

theorem payload_declared {payload : Json} (h : isCanonicalApprovalPayload platform payload = true) :
    Declared payloadKeys (some payload) := by
  unfold isCanonicalApprovalPayload at h
  simp only [Bool.and_eq_true] at h
  exact isRecordOf_declared h.1.1.1.1.1.1

theorem timeRules_of_valid {approval : Json} {options : ApprovalTimeOptions}
    (h : validateApprovalTime platform approval options = none) :
    TimeRules platform options.actionEnvelope approval options.now
      options.timestampToleranceMs := by
  unfold validateApprovalTime at h
  dsimp only at h
  split_ifs at h with h1 h2 h3 h4 h5 h6
  exact ⟨Bool.eq_false_iff.mpr h1, Bool.eq_false_iff.mpr h2, Bool.eq_false_iff.mpr h3,
    Bool.eq_false_iff.mpr h4, Bool.eq_false_iff.mpr h5, Bool.eq_false_iff.mpr h6⟩

/-- An accepted Approval is sound, where its bytes are UTF-8. -/
theorem Accepts.sound {trustedSigners : List TrustedSigner} {actionEnvelope approval : Json}
    {options : ApprovalTimeOptions} {signer : TrustedSigner}
    (h : Accepts platform trustedSigners (platform.computeJsonHash actionEnvelope) options approval
      signer)
    (hdeclared : Declared approvalKeys (some approval))
    (htext : ∀ jws middle, at? (some approval) ["signature", "value"] = some (.str jws) →
      payloadPart jws = some middle → (platform.decodeBase64url middle).IsValidUTF8) :
    SoundApproval platform actionEnvelope approval signer := by
  obtain ⟨payload, jws, middle, hdecodes, hsigned, hmatches, hdid⟩ := h.signed
  have hbytes := text_eq_iff (htext jws middle hdecodes.carried hdecodes.parted) hdecodes.canonical
  have hhash := isHash_of_hashesEqual h.hash
  refine ⟨hdeclared, payload, jws, hsigned, ⟨middle, hdecodes.carried, hdecodes.parted, hbytes⟩,
    payload_declared hdecodes.shape, hmatches.same, hdid, ?_, ?_⟩
  · exact hmatches.same.alg.trans hhash.1
  · exact hmatches.same.value.trans hhash.2

theorem sub_nan (x : JsNumber) : sub .nan x = .nan := by
  unfold sub
  cases x.negate <;> rfl

theorem lt_nan (x : JsNumber) : x.lt .nan = false := by
  cases x <;> rfl

theorem exceeds_eq_false {envelope : Json} {maxValidityMs now : JsNumber}
    (h : ¬exceedsMaxEnvelopeValidity platform envelope maxValidityMs now = true) :
    maxValidityMs.lt (sub (timeOf platform (at? (some envelope) ["expiresAt"])) now) = false := by
  unfold exceedsMaxEnvelopeValidity at h
  dsimp only at h
  split at h
  · rename_i hnan
    rw [hnan, sub_nan, lt_nan]
  · exact Bool.eq_false_iff.mpr h

theorem validateActionEnvelope_unexpired {envelope : Json} {now tolerance : JsNumber}
    (h : validateActionEnvelope platform envelope { now, timestampToleranceMs := tolerance } =
      .ok ()) :
    (timeOf platform (at? (some envelope) ["expiresAt"])).le (sub now tolerance) = false := by
  cases envelope with
  | obj record =>
    simp only [validateActionEnvelope, bind_eq_ok, throwIf_eq_ok] at h
    obtain ⟨_, -, _, -, _, -, _, -, _, -, _, -, _, -, _, -, _, -, _, -, _, -, _, -, _, -, _, -, _,
      -, h⟩ := h
    rw [Bool.eq_false_iff]
    exact fun hexpired => h ⟨trivial, trivial, hexpired⟩
  | _ => cases h

/-- What the checks in front of the bundle establish. -/
theorem verifyAction_establishes {config : VerificationConfig} {actionPackage : Json}
    (h : verifyAction platform config actionPackage = .ok ()) :
    validateActionEnvelope platform (envelopeOf actionPackage)
        { now := config.now.getD platform.clock
          timestampToleranceMs := config.timestampToleranceMs.getD (.finite 0) } = .ok () ∧
      ¬exceedsMaxEnvelopeValidity platform (envelopeOf actionPackage)
        (config.maxEnvelopeValidityMs.getD DEFAULT_MAX_ENVELOPE_VALIDITY_MS)
        (config.now.getD platform.clock) = true ∧
      BoundPayload platform config actionPackage := by
  unfold verifyAction at h
  obtain ⟨_, henvelope, h⟩ := bind_eq_ok.mp h
  obtain ⟨hvalidity, h⟩ := throwIf_bind_eq_ok.mp h
  obtain ⟨-, h⟩ := throwIf_bind_eq_ok.mp h
  refine ⟨henvelope, hvalidity, ?_⟩
  split at h
  · cases h
  · rename_i binding hbinding
    obtain ⟨-, h⟩ := throwIf_bind_eq_ok.mp h
    obtain ⟨-, h⟩ := throwIf_bind_eq_ok.mp h
    rw [throwIf_eq_ok, not_not] at h
    obtain ⟨hpayload, hhash⟩ := Bool.and_eq_true_iff.mp h
    have hfound := List.find?_some hbinding
    have hmem := List.mem_filter.mp (List.mem_of_find?_eq_some hbinding)
    obtain ⟨hid, hformat⟩ := of_decide_eq_true hfound
    refine ⟨binding, hmem.1, of_decide_eq_true hmem.2, hid, hformat, hpayload, ?_⟩
    obtain ⟨halg, hvalue⟩ := hashesEqual_eq hhash
    exact ⟨halg.symm, hvalue.symm⟩

theorem Passes.sound {config : VerificationConfig} {actionPackage : Json}
    (h : Passes platform config actionPackage) (hplain : Plain platform actionPackage) :
    Sound platform config actionPackage := by
  obtain ⟨⟨record, rfl, hshape⟩, haction, -, hall, hproposed⟩ := h
  obtain ⟨henvelope, hvalidity, hbound⟩ := verifyAction_establishes haction
  obtain ⟨members, hmembers, hbundle⟩ := hshape.bundle
  have hbundleOf : bundleOf (.obj record) = .obj members := by
    simp [bundleOf, part, Json.member, hmembers]
  obtain ⟨first, rest, happrovals, hshapes⟩ := hbundle.approvals
  have hlist : approvalsOf (bundleOf (.obj record)) = first :: rest := by
    rw [hbundleOf]
    simp [approvalsOf, at?, Json.member, happrovals]
  have hdeclared : ∀ approval ∈ approvalsOf (bundleOf (.obj record)),
      Declared approvalKeys (some approval) := by
    intro approval hmem
    have hempty := hplain.approvals approval hmem
    rw [hlist] at hmem
    obtain ⟨fields, rfl, hfields⟩ := hshapes approval hmem
    exact declared_of_rejectedKey hfields.undeclared hempty
  have hsound : ∀ approval ∈ approvalsOf (bundleOf (.obj record)), ∀ signer,
      AcceptedIn platform config (.obj record) approval signer →
        SoundApproval platform (envelopeOf (.obj record)) approval signer :=
    fun approval hmem signer haccepts =>
      haccepts.sound (hdeclared approval hmem) (hplain.text approval hmem)
  refine ⟨declared_of_rejectedKey hshape.undeclared hplain.package, ?_, hbound,
    fun approval hmem => ?_, fun approval hmem => ?_, validateActionEnvelope_unexpired henvelope,
    exceeds_eq_false hvalidity, ?_⟩
  · have hempty := hplain.bundle
    rw [hbundleOf] at hempty ⊢
    exact declared_of_rejectedKey hbundle.undeclared hempty
  · obtain ⟨signer, haccepts⟩ := hall approval hmem
    exact ⟨signer, (trustedByDid_did haccepts.trusted).1, hsound approval hmem signer haccepts⟩
  · obtain ⟨signer, haccepts⟩ := hall approval hmem
    exact timeRules_of_valid haccepts.time
  · obtain ⟨approval, hmem, signer, haccepts, hpropose, hproposer⟩ := hproposed
    exact ⟨approval, hmem, signer, (trustedByDid_did haccepts.trusted).1,
      hsound approval hmem signer haccepts, hpropose, hproposer⟩

theorem not_mem_of_declared {allowedKeys : List String} {value : Option Json}
    (h : Declared allowedKeys value) (hkeys : "" ∉ allowedKeys) : "" ∉ names value :=
  fun hmem => hkeys (h.2 "" hmem)

theorem Sound.plain {config : VerificationConfig} {actionPackage : Json}
    (h : Sound platform config actionPackage) : Plain platform actionPackage where
  package := not_mem_of_declared h.declared (by decide)
  bundle := not_mem_of_declared h.bundle (by decide)
  approvals approval hmem := by
    obtain ⟨signer, -, hsound⟩ := h.approvals approval hmem
    exact not_mem_of_declared hsound.declared (by decide)
  text approval hmem jws middle hjws hmiddle := by
    obtain ⟨signer, -, hsound⟩ := h.approvals approval hmem
    obtain ⟨payload, jws', -, ⟨middle', hjws', hmiddle', hbytes⟩, -⟩ := hsound.signed
    cases Json.str.inj (Option.some.inj (hjws.symm.trans hjws'))
    cases hmiddle.symm.trans hmiddle'
    rw [hbytes]
    exact (platform.canonicalize payload).isValidUTF8

end Sound

end Mpas.PackageVerification
