import Mpas.KeyIdentities

/-!
# Signers and those who verify

A compact signature that is accepted is spelled in one way and was made for one identity.
What a signer returns is accepted by everyone who has nothing but the signer's identity,
whatever the provider of the signature does; and the local signer always returns.

* `Accepts`, `verifySuiteCompactJws_eq_ok`: when a signature is accepted;
* `Jose`: what is assumed of imported keys and of the compact serialization;
* `jws_names_one_signer`, `signature_convinces_verifiers`, `local_signer_accepted`.
-/

namespace Mpas.SignatureSuites

open JsonText Checks Base64

variable {ν κ : Type}

/-! ## Compact signatures -/

/-- The compact serialization: three parts with points between them. -/
def compact (header payload signature : List UInt8) : Text :=
  [code '.'].intercalate
    [urlSafe.encode header, urlSafe.encode payload, urlSafe.encode signature]

theorem point_not_mem_encode (bytes : List UInt8) : code '.' ∉ urlSafe.encode bytes := by
  intro h
  have hvalue := Alphabet.value_of_mem_encode h
  exact absurd hvalue (by decide)

theorem splitOn_compact (header payload signature : List UInt8) :
    (compact header payload signature).splitOn (code '.') =
      [urlSafe.encode header, urlSafe.encode payload, urlSafe.encode signature] := by
  refine List.splitOn_intercalate _ (fun part hpart => ?_) (List.cons_ne_nil _ _)
  rcases List.mem_cons.mp hpart with rfl | hpart
  · exact point_not_mem_encode _
  rcases List.mem_cons.mp hpart with rfl | hpart
  · exact point_not_mem_encode _
  · obtain rfl := List.mem_singleton.mp hpart
    exact point_not_mem_encode _

/-- One spelling of each header, payload and signature. -/
theorem compact_injective {header header' payload payload' signature signature' : List UInt8}
    (h : compact header payload signature = compact header' payload' signature') :
    header = header' ∧ payload = payload' ∧ signature = signature' := by
  have hsplit := congrArg (List.splitOn (code '.')) h
  rw [splitOn_compact, splitOn_compact, List.cons.injEq, List.cons.injEq, List.cons.injEq] at hsplit
  exact ⟨Alphabet.encode_injective hsplit.1, Alphabet.encode_injective hsplit.2.1,
    Alphabet.encode_injective hsplit.2.2.1⟩

/-- What a compact signature is that is accepted: its parts, and what they say. -/
structure Accepts (platform : Platform ν κ) (jws : Text) (publicJwk : Value ν) (kid : Text)
    (payload : List UInt8) (m : Material) (decoded bytes signature : List UInt8)
    (header : Value ν) : Prop where
  key : PublicKey platform publicJwk (some .verify) m
  parts : jws = compact decoded bytes signature
  nonempty : decoded ≠ []
  parsed : StrictJson.strictJsonParse platform.number (Utf8.decode decoded) = .ok header
  object : isObject header = true
  algorithm : member "alg" header = some (.string m.suite.jwsAlgorithm)
  names : member "kid" header = some (.string kid)
  encoded : isFalse (member "b64" header) = false
  encoding : validateSignatureEncoding m.suite signature = .ok ()
  verified : ∃ imported, platform.importJWK publicJwk m.suite.jwsAlgorithm = .ok imported ∧
    platform.compactVerify jws imported [m.suite.jwsAlgorithm] = .ok payload

section Acceptance

variable {platform : Platform ν κ}

theorem signature_length {suite : MpasSignatureSuite} {signature : List UInt8}
    (h : validateSignatureEncoding suite signature = .ok ()) : signature.length = 64 :=
  (require_bind_eq_ok.mp h).1

theorem verifySuiteCompactJws_eq_ok {jws kid : Text} {publicJwk : Value ν} {payload : List UInt8} :
    verifySuiteCompactJws platform jws publicJwk kid = .ok payload ↔
      ∃ m decoded bytes signature header,
        Accepts platform jws publicJwk kid payload m decoded bytes signature header := by
  unfold verifySuiteCompactJws
  constructor
  · intro h
    obtain ⟨suite, hsuite, h⟩ := bind_eq_ok.mp h
    obtain ⟨m, hm, rfl⟩ := validatePublicJwk_eq_ok.mp hsuite
    split at h
    · rename_i headerPart payloadPart signaturePart hsplit
      obtain ⟨decoded, hdecoded, h⟩ := bind_eq_ok.mp h
      obtain ⟨header, hheader, h⟩ := bind_eq_ok.mp h
      obtain ⟨⟨hobject, halg, hkid, hb64⟩, h⟩ := require_bind_eq_ok.mp h
      obtain ⟨bytes, hbytes, h⟩ := bind_eq_ok.mp h
      obtain ⟨signature, hsignature, h⟩ := bind_eq_ok.mp h
      obtain ⟨_, hencoding, h⟩ := bind_eq_ok.mp h
      obtain ⟨imported, himport, hverify⟩ := bind_eq_ok.mp h
      obtain ⟨rfl, hne⟩ := decodeBase64url_eq_ok.mp hdecoded
      obtain ⟨rfl, -⟩ := decodeBase64url_eq_ok.mp hbytes
      obtain ⟨rfl, -⟩ := decodeBase64url_eq_ok.mp hsignature
      refine ⟨m, decoded, bytes, signature, header, hm, ?_, hne.resolve_left Bool.false_ne_true,
        mapError_eq_ok.mp hheader, hobject, isText_iff.mp halg, isText_iff.mp hkid,
        Bool.eq_false_of_not_eq_true hb64, hencoding, imported, mapError_eq_ok.mp himport,
        mapError_eq_ok.mp hverify⟩
      rw [compact, ← hsplit, List.intercalate_splitOn]
    · cases h
  · rintro ⟨m, decoded, bytes, signature, header, hm, hparts, hne, hparsed, hobject, halg, hkid,
      hb64, hencoding, imported, himport, hverify⟩
    refine bind_eq_ok.mpr ⟨m.suite, validatePublicJwk_eq_ok.mpr ⟨m, hm, rfl⟩, ?_⟩
    have hsignature : signature ≠ [] := by
      rintro rfl
      exact absurd (signature_length hencoding) (by decide)
    rw [hparts, splitOn_compact, ← hparts]
    dsimp only
    refine bind_eq_ok.mpr ⟨decoded, decodeBase64url_eq_ok.mpr ⟨rfl, .inr hne⟩, ?_⟩
    refine bind_eq_ok.mpr ⟨header, mapError_eq_ok.mpr hparsed, ?_⟩
    refine require_bind_eq_ok.mpr ⟨⟨hobject, isText_iff.mpr halg, isText_iff.mpr hkid, ?_⟩, ?_⟩
    · rw [hb64]
      exact Bool.false_ne_true
    refine bind_eq_ok.mpr ⟨bytes, decodeBase64url_eq_ok.mpr ⟨rfl, .inl rfl⟩, ?_⟩
    refine bind_eq_ok.mpr ⟨signature, decodeBase64url_eq_ok.mpr ⟨rfl, .inr hsignature⟩, ?_⟩
    exact bind_eq_ok.mpr ⟨(), hencoding, bind_eq_ok.mpr ⟨imported, mapError_eq_ok.mpr himport,
      mapError_eq_ok.mpr hverify⟩⟩

end Acceptance

/-! ## What is assumed -/

/-- A member of no other name. -/
def Only (names : List String) (jwk : Value ν) : Prop :=
  ∀ name, hasOwn name jwk = true → name ∈ names.map codes

/-- A public key with nothing in it that its import could stumble over. -/
structure Importable (platform : Platform ν κ) (jwk : Value ν) (m : Material) : Prop extends
    PublicKey platform jwk (some .verify) m where
  only : Only ["crv", "kty", "x", "y", "kid", "key_ops"] jwk
  operations : hasOwn (codes "key_ops") jwk = true →
    member "key_ops" jwk = some (.array [.string (codes "verify")])

/-- A private key without restrictions. -/
structure Unrestricted (platform : Platform ν κ) (jwk : Value ν) (m : Material) : Prop extends
    Holds platform jwk m where
  has : hasOwn (codes "d") jwk = true
  derived : validateLocalJwk platform jwk = .ok m.suite
  only : Only ["crv", "kty", "x", "y", "d", "kid"] jwk

/-- The header that is signed. -/
def headerMembers (algorithm kid : Text) : List (Text × Text) :=
  [(codes "alg", algorithm), (codes "kid", kid)]

/-- The keys that are imported, and the compact serialization of signatures. -/
structure Jose (platform : Platform ν κ) : Prop where
  canonical : Canonical platform
  /-- what is returned is the payload, of a header that does not say it is unencoded -/
  payload : ∀ {decoded bytes signature header key algorithms payload},
    StrictJson.strictJsonParse platform.number (Utf8.decode decoded) = .ok header →
    isFalse (member "b64" header) = false →
    platform.compactVerify (compact decoded bytes signature) key algorithms = .ok payload →
      payload = bytes
  imports : ∀ {jwk m}, Importable platform jwk m →
    ∃ key, platform.importJWK jwk m.suite.jwsAlgorithm = .ok key
  /-- a signature is one of the key, whatever else its JSON Web Key says -/
  same : ∀ {jwk other m key key' jws payload}, PublicKey platform jwk (some .verify) m →
    PublicKey platform other (some .verify) m →
    platform.importJWK jwk m.suite.jwsAlgorithm = .ok key →
    platform.importJWK other m.suite.jwsAlgorithm = .ok key' →
    platform.compactVerify jws key [m.suite.jwsAlgorithm] = .ok payload →
    platform.compactVerify jws key' [m.suite.jwsAlgorithm] = .ok payload
  /-- what a private key signs, its public key verifies -/
  signs : ∀ {jwk m} payload kid, Unrestricted platform jwk m →
    ∃ key signature, platform.importJWK jwk m.suite.jwsAlgorithm = .ok key ∧
      validateSignatureEncoding m.suite signature = .ok () ∧
      platform.compactSign payload (strings (headerMembers m.suite.jwsAlgorithm kid)) key =
        .ok (compact (Utf8.encode ((strings (headerMembers m.suite.jwsAlgorithm kid)).stringify
          platform.written)) payload signature) ∧
      ∀ {other key'}, PublicKey platform other (some .verify) m →
        platform.importJWK other m.suite.jwsAlgorithm = .ok key' →
        platform.compactVerify (compact (Utf8.encode
          ((strings (headerMembers m.suite.jwsAlgorithm kid)).stringify platform.written))
            payload signature) key' [m.suite.jwsAlgorithm] = .ok payload

namespace Example

theorem holds_material {jwk : Value Text} {m : Material} (h : Holds platform jwk m) :
    ∀ algorithm, platform.importJWK jwk algorithm = .ok m := by
  intro algorithm
  have hat := h.coordinates
  have hvalid := h.valid
  cases m with
  | okp x =>
    have hx : member "x" jwk = some (.string (urlSafe.encode x)) := hat
    have hdecode : (textOf (member "x" jwk)).bind urlSafe.decode = some x := by
      rw [hx]
      exact Alphabet.decode_encode x
    show importKey jwk = _
    rw [importKey, hdecode]
  | ec x y => cases hvalid.2.2

theorem verify_compact (key : Material) (decoded bytes signed : List UInt8)
    (algorithms : List Text) :
    platform.compactVerify (compact decoded bytes signed) key algorithms =
      if urlSafe.encode signed = urlSafe.encode (signature key decoded bytes) then .ok bytes
      else .error (codes "signature verification failed") := by
  show verifyCompact _ key = _
  unfold verifyCompact
  rw [splitOn_compact]
  simp only [Alphabet.decode_encode]

theorem signature_encoding (m : Material) (h : m.Valid platform) (bytes other : List UInt8) :
    validateSignatureEncoding m.suite (signature m bytes other) = .ok () := by
  cases m with
  | okp x =>
    refine require_bind_eq_ok.mpr ⟨?_, require_eq_ok.mpr fun h => ?_⟩
    · unfold signature
      split <;> rfl
    · cases h
  | ec x y => cases h.2.2

theorem jose : Jose platform where
  canonical := canonical
  payload _ _ h := by
    rw [verify_compact] at h
    split at h
    · exact (Except.ok.inj h).symm
    · cases h
  imports h := ⟨_, holds_material h.toHolds _⟩
  same h h' hkey hkey' hverify := by
    rw [holds_material h.toHolds] at hkey
    rw [holds_material h'.toHolds] at hkey'
    rw [← Except.ok.inj hkey', Except.ok.inj hkey]
    exact hverify
  signs {_ m} payload kid h := by
    refine ⟨m, signature m _ payload, holds_material h.toHolds _,
      signature_encoding m h.valid _ _, rfl, fun {other key'} hother hkey' => ?_⟩
    rw [holds_material hother.toHolds] at hkey'
    rw [← Except.ok.inj hkey', verify_compact]
    exact if_pos rfl

end Example

section Identities

variable {platform : Platform ν κ}

/-! ## What a check reads -/

/-- Alike in the members that are named. -/
structure SameAt (names : List String) (jwk other : Value ν) : Prop where
  object : isObject jwk = isObject other
  members : ∀ name ∈ names, member name jwk = member name other

def metadataNames : List String := ["alg", "use", "key_ops"]

def keyNames : List String := ["kty", "crv", "x", "y"] ++ metadataNames

def privateNames : List String := ["d", "p", "q", "dp", "dq", "qi", "oth", "k"]

theorem hasOwn_eq (name : String) (jwk : Value ν) :
    hasOwn (codes name) jwk = (member name jwk).isSome := by
  cases jwk <;> rfl

theorem SameAt.subset {names others : List String} {jwk other : Value ν}
    (h : SameAt names jwk other) (hsubset : others ⊆ names) : SameAt others jwk other :=
  ⟨h.object, fun name hname => h.members name (hsubset hname)⟩

theorem validateMetadata_congr {jwk other : Value ν} (h : SameAt metadataNames jwk other)
    (suite : MpasSignatureSuite) (operation : Option KeyOperation) :
    validateMetadata jwk suite operation = validateMetadata other suite operation := by
  have halg := h.members "alg" (by decide)
  have huse := h.members "use" (by decide)
  have hops := h.members "key_ops" (by decide)
  simp only [validateMetadata, hasOwn_eq, halg, huse, hops]

theorem resolveSignatureSuite_congr {jwk other : Value ν} (h : SameAt keyNames jwk other) :
    resolveSignatureSuite platform jwk = resolveSignatureSuite platform other := by
  have hkty := h.members "kty" (by decide)
  have hcrv := h.members "crv" (by decide)
  have hx := h.members "x" (by decide)
  have hy := h.members "y" (by decide)
  have hmetadata := validateMetadata_congr (h.subset (by decide : metadataNames ⊆ keyNames))
  simp only [resolveSignatureSuite, checkPoint, h.object, hkty, hcrv, hx, hy, hmetadata]

theorem private_congr {jwk other : Value ν} (h : SameAt privateNames jwk other)
    (p : Text → Bool) : ((privateMembers.filter p).any fun name => hasOwn name jwk) =
      (privateMembers.filter p).any fun name => hasOwn name other := by
  have hown : ∀ name ∈ privateMembers, hasOwn name jwk = hasOwn name other := by
    intro name hname
    obtain ⟨s, hs, rfl⟩ := List.mem_map.mp hname
    rw [hasOwn_eq, hasOwn_eq, h.members s hs]
  rw [Bool.eq_iff_iff, List.any_eq_true, List.any_eq_true]
  refine exists_congr fun name => and_congr_right fun hname => ?_
  rw [hown name (List.mem_of_mem_filter hname)]

theorem validatePublicJwk_congr {jwk other : Value ν}
    (h : SameAt (keyNames ++ privateNames) jwk other) (operation : Option KeyOperation) :
    validatePublicJwk platform jwk operation = validatePublicJwk platform other operation := by
  have hkey := h.subset (List.subset_append_left keyNames privateNames)
  have hprivate := private_congr (h.subset (List.subset_append_right keyNames privateNames))
    fun _ => true
  rw [List.filter_eq_self.mpr fun _ _ => rfl] at hprivate
  have hmetadata := validateMetadata_congr (hkey.subset (by decide : metadataNames ⊆ keyNames))
  simp only [validatePublicJwk, resolveSignatureSuite_congr hkey, hprivate, hmetadata]

theorem validateLocalJwk_congr {jwk other : Value ν}
    (h : SameAt (keyNames ++ privateNames) jwk other) :
    validateLocalJwk platform jwk = validateLocalJwk platform other := by
  have hkey := h.subset (List.subset_append_left keyNames privateNames)
  have hprivate := private_congr (h.subset (List.subset_append_right keyNames privateNames))
  have hd := h.members "d" (by decide)
  have hx := h.members "x" (by decide)
  have hy := h.members "y" (by decide)
  simp only [validateLocalJwk, resolveSignatureSuite_congr hkey, hprivate, hasOwn_eq, hd, hx, hy,
    validatePublicJwk_congr h]

theorem member_withMember (name other : String) (value jwk : Value ν) :
    member name (withMember other value jwk) =
      if codes other = codes name ∧ isObject jwk = true then some value else member name jwk := by
  cases jwk with
  | object members =>
    show OrderedMap.lookup _ (OrderedMap.write _ _ _) = _
    rw [OrderedMap.lookup_write]
    simp [isObject, member]
  | _ => simp [withMember, isObject]

theorem isObject_withMember (name : String) (value jwk : Value ν) :
    isObject (withMember name value jwk) = isObject jwk := by
  cases jwk <;> rfl

theorem sameAt_withMember {names : List String} {name : String} (value jwk : Value ν)
    (h : ∀ other ∈ names, codes name ≠ codes other) :
    SameAt names (withMember name value jwk) jwk where
  object := isObject_withMember name value jwk
  members other hother := by rw [member_withMember, if_neg fun heq => h other hother heq.1]

theorem lookup_filter_names (p : Text → Bool) (name : Text) (members : List (Text × Value ν)) :
    OrderedMap.lookup name (members.filter fun entry => p entry.1) =
      if p name then OrderedMap.lookup name members else none := by
  induction members with
  | nil => simp [OrderedMap.lookup]
  | cons entry rest ih =>
    by_cases hp : p entry.1 = true
    · rw [List.filter_cons_of_pos (by simpa using hp)]
      by_cases heq : entry.1 = name
      · subst heq
        simp [OrderedMap.lookup, hp]
      · simp [OrderedMap.lookup, heq, ih]
    · rw [List.filter_cons_of_neg (by simpa using hp), ih]
      by_cases heq : entry.1 = name
      · subst heq
        simp [hp]
      · simp [OrderedMap.lookup, heq]

theorem member_publicJwkFromLocal (name : String) (jwk : Value ν) :
    member name (publicJwkFromLocal jwk) =
      if privateMembers.contains (codes name) then none else member name jwk := by
  cases jwk with
  | object members =>
    show OrderedMap.lookup _ (members.filter _) = _
    rw [lookup_filter_names fun name => !privateMembers.contains name]
    cases privateMembers.contains (codes name) <;> rfl
  | _ => simp [publicJwkFromLocal, member]

theorem isObject_publicJwkFromLocal (jwk : Value ν) :
    isObject (publicJwkFromLocal jwk) = isObject jwk := by
  cases jwk <;> rfl

theorem SameAt.publicJwkFromLocal {names : List String} {jwk other : Value ν}
    (h : SameAt names jwk other) : SameAt names (publicJwkFromLocal jwk)
      (SignatureSuites.publicJwkFromLocal other) where
  object := by rw [isObject_publicJwkFromLocal, isObject_publicJwkFromLocal, h.object]
  members name hname := by
    rw [member_publicJwkFromLocal, member_publicJwkFromLocal, h.members name hname]

theorem Holds.congr {jwk other : Value ν} {m : Material} (h : SameAt keyNames jwk other)
    (hm : Holds platform jwk m) : Holds platform other m where
  object := h.object ▸ hm.object
  kty := h.members "kty" (by decide) ▸ hm.kty
  crv := h.members "crv" (by decide) ▸ hm.crv
  coordinates := by
    have hat := hm.coordinates
    have hx := h.members "x" (by decide)
    have hy := h.members "y" (by decide)
    cases m with
    | okp x => exact hx.symm.trans hat
    | ec x y => exact ⟨hx.symm.trans hat.1, hy.symm.trans hat.2⟩
  valid := hm.valid
  metadata := by
    rw [← validateMetadata_congr (h.subset (by decide : metadataNames ⊆ keyNames))]
    exact hm.metadata

theorem PublicKey.congr {jwk other : Value ν} {operation : Option KeyOperation} {m : Material}
    (h : SameAt (keyNames ++ privateNames) jwk other)
    (hm : PublicKey platform jwk operation m) : PublicKey platform other operation m where
  toHolds := hm.toHolds.congr (h.subset (List.subset_append_left keyNames privateNames))
  unprivate := by
    have hprivate := private_congr (h.subset (List.subset_append_right keyNames privateNames))
      fun _ => true
    rw [List.filter_eq_self.mpr fun _ _ => rfl] at hprivate
    rw [← hprivate]
    exact hm.unprivate
  permitted := by
    rw [← validateMetadata_congr (h.subset (by decide))]
    exact hm.permitted

theorem validateMetadata_eq_ok {jwk : Value ν} {suite : MpasSignatureSuite}
    {operation : Option KeyOperation} : validateMetadata jwk suite operation = .ok () ↔
      (hasOwn (codes "alg") jwk = true → isText suite.jwsAlgorithm (member "alg" jwk) = true) ∧
      (hasOwn (codes "use") jwk = true → isText (codes "sig") (member "use" jwk) = true) ∧
      (hasOwn (codes "key_ops") jwk = true → permits (member "key_ops" jwk) operation = true) := by
  rw [validateMetadata, require_bind_eq_ok, require_bind_eq_ok, require_eq_ok]

/-- A public key with the one operation that it is for. -/
theorem publicKey_forVerification {jwk : Value ν} {m : Material}
    (h : PublicKey platform jwk none m) :
    PublicKey platform (forVerification jwk) (some .verify) m := by
  have hsame : SameAt (["kty", "crv", "x", "y", "alg", "use"] ++ privateNames)
      (forVerification jwk) jwk := sameAt_withMember _ jwk (by decide)
  have hops : member "key_ops" (forVerification jwk) =
      some (.array [.string (codes "verify")]) := by
    rw [forVerification, member_withMember, if_pos ⟨rfl, h.object⟩]
  have hmetadata : ∀ operation, operation ≠ some .sign →
      validateMetadata (forVerification jwk) m.suite operation = .ok () := by
    intro operation hoperation
    obtain ⟨halg, huse, -⟩ := validateMetadata_eq_ok.mp h.metadata
    rw [hasOwn_eq, ← hsame.members _ (by decide)] at halg huse
    refine validateMetadata_eq_ok.mpr ⟨?_, ?_, fun _ => ?_⟩
    · rw [hasOwn_eq]
      exact halg
    · rw [hasOwn_eq]
      exact huse
    · rw [hops]
      rcases operation with _ | _ | _
      · rfl
      · exact absurd rfl hoperation
      · rfl
  have hat := h.coordinates
  have hx := hsame.members "x" (by decide)
  have hy := hsame.members "y" (by decide)
  refine ⟨⟨hsame.object.trans h.object, (hsame.members "kty" (by decide)).trans h.kty,
    (hsame.members "crv" (by decide)).trans h.crv, ?_, h.valid, hmetadata none (by decide)⟩, ?_,
    hmetadata _ (by decide)⟩
  · cases m with
    | okp x => exact hx.trans hat
    | ec x y => exact ⟨hx.trans hat.1, hy.trans hat.2⟩
  · have hprivate := private_congr (hsame.subset (List.subset_append_right _ privateNames))
      fun _ => true
    rw [List.filter_eq_self.mpr fun _ _ => rfl] at hprivate
    rw [hprivate]
    exact h.unprivate

/-! ## What an identity says -/

theorem PublicKey.unasked {jwk : Value ν} {operation : Option KeyOperation} {m : Material}
    (h : PublicKey platform jwk operation m) : PublicKey platform jwk none m :=
  ⟨h.toHolds, h.unprivate, h.metadata⟩

theorem embedded_didOf {m n : Material} {key : Value ν} (hvalid : m.Valid platform)
    (hkey : PublicKey platform key none n) {embedded : Value ν}
    (hembedded : didJwkToJwk platform (didOf platform m) = .ok embedded)
    (hsame : samePublicKey platform embedded key = .ok true) : n = m := by
  rw [didJwkToJwk_didOf hvalid] at hembedded
  obtain rfl := Except.ok.inj hembedded
  obtain ⟨p, q, hp, hq, hpq⟩ := samePublicKey_eq_ok.mp hsame
  rw [hkey.toHolds.unique hq.toHolds, ← of_decide_eq_true hpq.symm]
  exact hp.toHolds.unique (publicKey_minimal hvalid none).toHolds

theorem samePublicKey_minimal {m : Material} {key : Value ν} (hvalid : m.Valid platform)
    (hkey : PublicKey platform key none m) :
    samePublicKey platform (m.minimal : Value ν) key = .ok true :=
  samePublicKey_eq_ok.mpr ⟨m, m, publicKey_minimal hvalid none, hkey, (decide_eq_true rfl).symm⟩

theorem verificationKid_didOf {key : Value ν} {m : Material}
    (hkey : PublicKey platform key none m) :
    verificationKid platform key (some (didOf platform m)) =
      .ok (didJwkToKid (didOf platform m)) := by
  unfold verificationKid
  refine bind_eq_ok.mpr ⟨didOf platform m, rfl, ?_⟩
  rw [if_pos (isDidJwk_didOf m)]
  refine bind_eq_ok.mpr ⟨m.minimal, didJwkToJwk_didOf hkey.valid, bind_eq_ok.mpr ⟨true, ?_, ?_⟩⟩
  · exact samePublicKey_minimal hkey.valid hkey
  · exact require_bind_eq_ok.mpr ⟨rfl, rfl⟩

theorem only_strings {names : List String} {members : List (Text × Text)}
    (h : members.map Prod.fst ⊆ names.map codes) : Only names (strings (ν := ν) members) := by
  intro name hown
  by_contra hnone
  have habsent : name ∉ (stringMembers (ν := ν) members).map Prod.fst := by
    rw [stringMembers_names]
    exact fun hmem => hnone (h hmem)
  have hlookup := (OrderedMap.lookup_eq_none_iff _ _).mpr habsent
  change (OrderedMap.lookup name (stringMembers members)).isSome = true at hown
  rw [hlookup] at hown
  cases hown

theorem importable_minimal {m : Material} (hvalid : m.Valid platform) :
    Importable platform (m.minimal : Value ν) m where
  toPublicKey := publicKey_minimal hvalid _
  only := by
    apply only_strings
    cases m with
    | okp x =>
      exact (by decide : [codes "crv", codes "kty", codes "x"] ⊆
        ["crv", "kty", "x", "y", "kid", "key_ops"].map codes)
    | ec x y =>
      exact (by decide : [codes "crv", codes "kty", codes "x", codes "y"] ⊆
        ["crv", "kty", "x", "y", "kid", "key_ops"].map codes)
  operations h := by
    cases m with
    | okp x => cases h
    | ec x y => cases h

/-- A signature that is accepted with a key is accepted with what the key is minted. -/
theorem Accepts.minimal (hjose : Jose platform) {jws kid : Text} {jwk header : Value ν}
    {payload decoded bytes signature : List UInt8} {m : Material}
    (h : Accepts platform jws jwk kid payload m decoded bytes signature header) :
    verifySuiteCompactJws platform jws (m.minimal : Value ν) kid = .ok payload := by
  obtain ⟨imported, himport, hverify⟩ := h.verified
  obtain ⟨key, hkey⟩ := hjose.imports (importable_minimal h.key.valid)
  have hpublic : PublicKey platform (m.minimal : Value ν) (some .verify) m :=
    publicKey_minimal h.key.valid _
  refine verifySuiteCompactJws_eq_ok.mpr ⟨m, decoded, bytes, signature, header, ?_⟩
  exact { h with
    key := hpublic
    verified := ⟨key, hkey, hjose.same h.key hpublic himport hkey hverify⟩ }

theorem validateSignerIdentity_cases {signer : MpasSignerIdentity ν} {suite : MpasSignatureSuite}
    (h : validateSignerIdentity platform signer = .ok suite) :
    ∃ m, PublicKey platform signer.publicKey none m ∧ suite = m.suite ∧
      signer.algorithm = m.suite.jwsAlgorithm ∧
      (isDidJwk signer.did = true → signer.kid = didJwkToKid signer.did ∧
        ∃ embedded, didJwkToJwk platform signer.did = .ok embedded ∧
          samePublicKey platform embedded signer.publicKey = .ok true) := by
  unfold validateSignerIdentity at h
  obtain ⟨found, hfound, h⟩ := bind_eq_ok.mp h
  obtain ⟨m, hm, rfl⟩ := validatePublicJwk_eq_ok.mp hfound
  obtain ⟨halgorithm, h⟩ := require_bind_eq_ok.mp h
  obtain ⟨-, h⟩ := require_bind_eq_ok.mp h
  obtain ⟨_, hembedded, h⟩ := bind_eq_ok.mp h
  refine ⟨m, hm, (pure_eq_ok.mp h).symm, halgorithm, fun hdid => ?_⟩
  unfold checkEmbedded at hembedded
  rw [if_pos hdid] at hembedded
  obtain ⟨embedded, hdecoded, hembedded⟩ := bind_eq_ok.mp hembedded
  obtain ⟨same, hsame, hembedded⟩ := bind_eq_ok.mp hembedded
  obtain ⟨rfl, hkid⟩ := require_eq_ok.mp hembedded
  exact ⟨hkid, embedded, hdecoded, hsame⟩

theorem validateSignerIdentity_didOf {key : Value ν} {m : Material}
    (hkey : PublicKey platform key none m) : validateSignerIdentity platform
      { did := didOf platform m, kid := didJwkToKid (didOf platform m)
        algorithm := m.suite.jwsAlgorithm, publicKey := key } = .ok m.suite := by
  unfold validateSignerIdentity
  refine bind_eq_ok.mpr ⟨m.suite, validatePublicJwk_eq_ok.mpr ⟨m, hkey, rfl⟩, ?_⟩
  refine require_bind_eq_ok.mpr ⟨rfl, require_bind_eq_ok.mpr ⟨⟨?_, ?_⟩, ?_⟩⟩
  · exact List.isPrefixOf_iff_prefix.mpr (List.prefix_append_of_prefix (by decide))
  · exact List.append_ne_nil_of_right_ne_nil _ (by decide)
  refine bind_eq_ok.mpr ⟨(), ?_, rfl⟩
  unfold checkEmbedded
  rw [if_pos (isDidJwk_didOf m)]
  refine bind_eq_ok.mpr ⟨m.minimal, didJwkToJwk_didOf hkey.valid, bind_eq_ok.mpr ⟨true, ?_, ?_⟩⟩
  · exact samePublicKey_minimal hkey.valid hkey
  · exact require_eq_ok.mpr ⟨rfl, rfl⟩

theorem header_parsed (platform : Platform ν κ) (algorithm kid : Text) :
    StrictJson.strictJsonParse platform.number (Utf8.decode (Utf8.encode
      ((strings (headerMembers algorithm kid)).stringify platform.written))) =
        .ok (strings (headerMembers algorithm kid)) := by
  rw [Utf8.decode_encode (wellFormed_strings _ _)]
  exact strictJsonParse_strings _ _ (by decide : ([codes "alg", codes "kid"] : List Text).Nodup)
    (List.cons_ne_nil _ _)

theorem encode_strings_ne_nil (written : ν → Text) (members : List (Text × Text)) :
    Utf8.encode ((strings members).stringify written) ≠ [] := by
  intro hnil
  have htext := Utf8.decode_encode (wellFormed_strings written members)
  rw [hnil] at htext
  cases htext

end Identities

namespace Example

def jws : Text := compact (Utf8.encode header) payload signed

theorem header_text :
    (strings (ν := Text) (headerMembers material.suite.jwsAlgorithm (didJwkToKid did))).stringify
      platform.written = header := by
  decide +kernel

theorem accepts {jwk : Value Text} (h : PublicKey platform jwk (some .verify) material) :
    Accepts platform jws jwk (didJwkToKid did) payload material (Utf8.encode header) payload signed
      (strings (headerMembers material.suite.jwsAlgorithm (didJwkToKid did))) where
  key := h
  parts := rfl
  nonempty := by
    rw [← header_text]
    exact encode_strings_ne_nil _ _
  parsed := by
    rw [← header_text]
    exact header_parsed platform _ _
  object := rfl
  algorithm := rfl
  names := rfl
  encoded := rfl
  encoding := rfl
  verified := by
    have hsigned : signature material (Utf8.encode header) payload = signed :=
      if_pos ⟨rfl, rfl, rfl⟩
    refine ⟨material, holds_material h.toHolds _, ?_⟩
    rw [jws, verify_compact, hsigned, if_pos rfl]

theorem verifies {jwk : Value Text} (h : PublicKey platform jwk (some .verify) material) :
    verifySuiteCompactJws platform jws jwk (didJwkToKid did) = .ok payload :=
  verifySuiteCompactJws_eq_ok.mpr ⟨_, _, _, _, _, accepts h⟩

/-- The public key, and with what it may be used for. -/
def publicKey : Value Text := material.minimal

theorem public_minimal (operation : Option KeyOperation) :
    PublicKey platform publicKey operation material :=
  publicKey_minimal key_published.valid operation

theorem public_restricted :
    PublicKey platform (forVerification publicKey) (some .verify) material :=
  publicKey_forVerification (public_minimal none)

theorem names_signer {jwk : Value Text} {operation : Option KeyOperation}
    (h : PublicKey platform jwk operation material) :
    verificationKid platform jwk (some did) = .ok (didJwkToKid did) := by
  rw [← did_minted]
  exact verificationKid_didOf h.unasked

end Example

variable {platform : Platform ν κ}

/-! ## One signer -/

theorem didJwkToKid_injective {did did' : Text} (h : didJwkToKid did = didJwkToKid did') :
    did = did' := List.append_cancel_right h

theorem verificationKid_didJwk {key : Value ν} {did kid : Text} (hdid : isDidJwk did = true)
    (h : verificationKid platform key (some did) = .ok kid) :
    kid = didJwkToKid did ∧ ∃ embedded, didJwkToJwk platform did = .ok embedded ∧
      samePublicKey platform embedded key = .ok true := by
  unfold verificationKid at h
  obtain ⟨identity, hidentity, h⟩ := bind_eq_ok.mp h
  obtain rfl : did = identity := Except.ok.inj hidentity
  rw [if_pos hdid] at h
  obtain ⟨embedded, hembedded, h⟩ := bind_eq_ok.mp h
  obtain ⟨same, hsame, h⟩ := bind_eq_ok.mp h
  obtain ⟨rfl, h⟩ := require_bind_eq_ok.mp h
  exact ⟨(pure_eq_ok.mp h).symm, embedded, hembedded, hsame⟩

/-- A compact signature that two signers' keys both accept has one spelling and was made with
one payload for one key identifier; where identities have their keys in them, the signers are
one. -/
theorem jws_names_one_signer (hjose : Jose platform) {jws kid kid' did did' : Text}
    {key key' : Value ν} {payload payload' : List UInt8}
    (hkid : verificationKid platform key (some did) = .ok kid)
    (hkid' : verificationKid platform key' (some did') = .ok kid')
    (h : verifySuiteCompactJws platform jws key kid = .ok payload)
    (h' : verifySuiteCompactJws platform jws key' kid' = .ok payload') :
    (∃ header signature, jws = compact header payload signature ∧ signature.length = 64) ∧
      kid = kid' ∧ payload = payload' ∧
      (isDidJwk did = true → isDidJwk did' = true →
        did = did' ∧ samePublicKey platform key key' = .ok true) := by
  obtain ⟨m, decoded, bytes, signature, header, hm⟩ := verifySuiteCompactJws_eq_ok.mp h
  obtain ⟨m', decoded', bytes', signature', header', hm'⟩ := verifySuiteCompactJws_eq_ok.mp h'
  have hparts := hm.parts
  have hparts' := hm'.parts
  obtain ⟨imported, -, hverify⟩ := hm.verified
  obtain ⟨imported', -, hverify'⟩ := hm'.verified
  rw [hparts] at hverify hparts'
  obtain ⟨rfl, rfl, rfl⟩ := compact_injective hparts'
  rw [hparts] at hverify'
  obtain rfl := hjose.payload hm.parsed hm.encoded hverify
  obtain rfl := hjose.payload hm'.parsed hm'.encoded hverify'
  have hheader : header = header' := Except.ok.inj (hm.parsed.symm.trans hm'.parsed)
  have heq : kid = kid' := by
    have hk := hm.names
    rw [hheader, hm'.names] at hk
    exact (Value.string.inj (Option.some.inj hk)).symm
  refine ⟨⟨decoded, signature, hparts, signature_length hm.encoding⟩, heq, rfl, ?_⟩
  intro hdid hdid'
  obtain ⟨rfl, embedded, hembedded, hsame⟩ := verificationKid_didJwk hdid hkid
  obtain ⟨rfl, embedded', hembedded', hsame'⟩ := verificationKid_didJwk hdid' hkid'
  have hone : did = did' := didJwkToKid_injective heq
  subst hone
  obtain rfl : embedded = embedded' := Except.ok.inj (hembedded.symm.trans hembedded')
  obtain ⟨n, p, hn, hp, hnp⟩ := samePublicKey_eq_ok.mp hsame
  obtain ⟨n', p', hn', hp', hnp'⟩ := samePublicKey_eq_ok.mp hsame'
  have h1 : n = p := of_decide_eq_true hnp.symm
  have h2 : n' = p' := of_decide_eq_true hnp'.symm
  have h3 : n = n' := hn.toHolds.unique hn'.toHolds
  exact ⟨rfl, samePublicKey_eq_ok.mpr ⟨p, p', hp, hp', by rw [← h1, ← h2, h3, decide_eq_true rfl]⟩⟩

theorem jws_names_one_signer_twice :
    (∃ header signature, Example.jws = compact header Example.payload signature ∧
        signature.length = 64) ∧
      didJwkToKid Example.did = didJwkToKid Example.did ∧ Example.payload = Example.payload ∧
      (isDidJwk Example.did = true → isDidJwk Example.did = true →
        Example.did = Example.did ∧ samePublicKey Example.platform Example.publicKey
          (forVerification Example.publicKey) = .ok true) :=
  jws_names_one_signer Example.jose (Example.names_signer (Example.public_minimal none))
    (Example.names_signer Example.public_restricted) (Example.verifies (Example.public_minimal _))
    (Example.verifies Example.public_restricted)

/-! ## What a signer returns -/

/-- Whatever the provider of a signature does: what is returned for an identity that a key was
minted is accepted by who has nothing but the identity, with the payload that was to be signed. -/
theorem signature_convinces_verifiers (hjose : Jose platform) {signer : MpasJwsSigner ν}
    {own : Value ν} {payload : List UInt8} {jws : Text}
    (hminted : deriveDidJwk platform own = .ok signer.did)
    (h : signMpasCompactJws platform signer payload = .ok jws) :
    ∃ key, didJwkToJwk platform signer.did = .ok key ∧
      verificationKid platform key (some signer.did) = .ok signer.kid ∧
      verifySuiteCompactJws platform jws key signer.kid = .ok payload := by
  obtain ⟨-, m, hm, hdid⟩ := (deriveDidJwk_eq_ok hjose.canonical).mp hminted
  unfold signMpasCompactJws at h
  obtain ⟨suite, hidentity, h⟩ := bind_eq_ok.mp h
  obtain ⟨signed, -, h⟩ := bind_eq_ok.mp h
  obtain ⟨verified, hverified, h⟩ := bind_eq_ok.mp h
  obtain ⟨hpayload, hreturn⟩ := require_bind_eq_ok.mp h
  obtain rfl := pure_eq_ok.mp hreturn
  subst hpayload
  obtain ⟨n, hn, -, -, hembeds⟩ := validateSignerIdentity_cases hidentity
  obtain ⟨hkid, embedded, hembedded, hsame⟩ := hembeds (by rw [hdid]; exact isDidJwk_didOf m)
  have hnm : n = m := embedded_didOf hm.valid hn (by rw [← hdid]; exact hembedded) hsame
  subst hnm
  obtain ⟨n', decoded, bytes, signature, header, haccepts⟩ :=
    verifySuiteCompactJws_eq_ok.mp hverified
  have hnn : n' = n :=
    haccepts.key.toHolds.unique (publicKey_forVerification hn).toHolds
  subst hnn
  refine ⟨n'.minimal, by rw [hdid]; exact didJwkToJwk_didOf hm.valid, ?_, ?_⟩
  · rw [hkid, hdid]
    exact verificationKid_didOf (publicKey_minimal hm.valid none)
  · exact haccepts.minimal hjose

/-- A provider that has one signature only. -/
def Example.provider : MpasJwsSigner Text where
  did := did
  kid := didJwkToKid did
  algorithm := codes "EdDSA"
  publicKey := publicKey
  signCompactJws _ := .ok jws

theorem Example.provider_signs :
    signMpasCompactJws Example.platform provider payload = .ok jws := by
  have hidentity : validateSignerIdentity Example.platform provider.toMpasSignerIdentity =
      .ok material.suite := by
    have h := validateSignerIdentity_didOf (public_minimal none)
    rw [did_minted] at h
    exact h
  unfold signMpasCompactJws
  refine bind_eq_ok.mpr ⟨_, hidentity, bind_eq_ok.mpr ⟨jws, rfl, bind_eq_ok.mpr ⟨payload, ?_, ?_⟩⟩⟩
  · exact verifies public_restricted
  · exact require_bind_eq_ok.mpr ⟨rfl, rfl⟩

theorem signature_convinces_verifiers_provided :
    ∃ key, didJwkToJwk Example.platform Example.did = .ok key ∧
      verificationKid Example.platform key (some Example.did) = .ok (didJwkToKid Example.did) ∧
      verifySuiteCompactJws Example.platform Example.jws key (didJwkToKid Example.did) =
        .ok Example.payload :=
  have hminted : deriveDidJwk Example.platform Example.key = .ok Example.provider.did :=
    Example.key_minted
  signature_convinces_verifiers Example.jose hminted Example.provider_signs

/-! ## The local signer -/

theorem hasOwn_withMember (name : Text) (other : String) (value jwk : Value ν) :
    hasOwn name (withMember other value jwk) = true →
      name = codes other ∨ hasOwn name jwk = true := by
  cases jwk with
  | object members =>
    intro h
    change (OrderedMap.lookup name (OrderedMap.write (codes other) value members)).isSome = true
      at h
    rw [OrderedMap.lookup_write] at h
    split at h
    · rename_i heq
      exact .inl heq.symm
    · exact .inr h
  | _ => exact .inr

theorem hasOwn_publicJwkFromLocal (name : Text) (jwk : Value ν) :
    hasOwn name (publicJwkFromLocal jwk) = true →
      name ∉ privateMembers ∧ hasOwn name jwk = true := by
  cases jwk with
  | object members =>
    intro h
    change (OrderedMap.lookup name (members.filter _)).isSome = true at h
    rw [lookup_filter_names fun name => !privateMembers.contains name] at h
    split at h
    · rename_i hpublic
      exact ⟨by simpa using hpublic, h⟩
    · cases h
  | _ => exact fun h => absurd h Bool.false_ne_true

theorem sameAt_publicJwkFromLocal (jwk : Value ν) :
    SameAt keyNames (publicJwkFromLocal jwk) jwk where
  object := isObject_publicJwkFromLocal jwk
  members name hname := by
    have hpublic : privateMembers.contains (codes name) = false := by
      revert name
      decide
    rw [member_publicJwkFromLocal, hpublic, if_neg Bool.false_ne_true]

theorem SameAt.symm {names : List String} {jwk other : Value ν} (h : SameAt names jwk other) :
    SameAt names other jwk :=
  ⟨h.object.symm, fun name hname => (h.members name hname).symm⟩

/-- A private key without restrictions, with the key identifier of what it was minted. -/
structure Minted (platform : Platform ν κ) (jwk : Value ν) (did : Text) (m : Material) :
    Prop extends Unrestricted platform jwk m where
  mints : did = didOf platform m
  published : PublicKey platform (publicJwkFromLocal jwk) none m
  named : member "kid" jwk = some (.string (didJwkToKid did))

theorem Minted.signs (hjose : Jose platform) {jwk : Value ν} {did : Text} {m : Material}
    (h : Minted platform jwk did m) (payload : List UInt8) :
    ∃ jws, signSuiteCompactJws platform jwk payload (didJwkToKid did) = .ok jws ∧
      ∃ decoded signature header, Accepts platform jws (forVerification (publicJwkFromLocal jwk))
        (didJwkToKid did) payload m decoded payload signature header := by
  obtain ⟨key, signature, himport, hencoding, hsigned, hverifies⟩ :=
    hjose.signs payload (didJwkToKid did) h.toUnrestricted
  have hpublic := publicKey_forVerification h.published
  have himportable : Importable platform (forVerification (publicJwkFromLocal jwk)) m := by
    refine ⟨hpublic, fun name hname => ?_, fun _ => ?_⟩
    · rcases hasOwn_withMember _ _ _ _ hname with rfl | hname
      · decide
      obtain ⟨hnot, hname⟩ := hasOwn_publicJwkFromLocal _ _ hname
      have hmem := h.only name hname
      have hsubset : ∀ name ∈ ["crv", "kty", "x", "y", "d", "kid"].map codes,
          name ∉ privateMembers → name ∈ ["crv", "kty", "x", "y", "kid", "key_ops"].map codes := by
        decide
      exact hsubset name hmem hnot
    · rw [forVerification, member_withMember, if_pos ⟨rfl, h.published.object⟩]
  obtain ⟨key', himport'⟩ := hjose.imports himportable
  refine ⟨_, ?_, _, signature, _, hpublic, rfl, encode_strings_ne_nil _ _,
    header_parsed platform m.suite.jwsAlgorithm (didJwkToKid did), rfl, rfl, rfl, rfl, hencoding,
    key', himport', hverifies hpublic himport'⟩
  unfold signSuiteCompactJws
  refine bind_eq_ok.mpr ⟨m.suite, h.derived, require_bind_eq_ok.mpr ⟨h.has, ?_⟩⟩
  have habsent : ∀ name ∈ metadataNames, hasOwn (codes name) jwk ≠ true := by
    intro name hname hown
    exact (by decide : ∀ name ∈ metadataNames,
      codes name ∉ ["crv", "kty", "x", "y", "d", "kid"].map codes) name hname (h.only _ hown)
  refine bind_eq_ok.mpr ⟨(), validateMetadata_eq_ok.mpr ⟨?_, ?_, ?_⟩, ?_⟩
  · exact fun hown => absurd hown (habsent "alg" (by decide))
  · exact fun hown => absurd hown (habsent "use" (by decide))
  · exact fun hown => absurd hown (habsent "key_ops" (by decide))
  · exact bind_eq_ok.mpr ⟨key, mapError_eq_ok.mpr himport, mapError_eq_ok.mpr hsigned⟩

theorem validateLocalJwk_cases {jwk : Value ν} {suite : MpasSignatureSuite}
    (h : validateLocalJwk platform jwk = .ok suite) :
    ∃ m, Holds platform jwk m ∧ suite = m.suite := by
  unfold validateLocalJwk at h
  obtain ⟨found, hfound, h⟩ := bind_eq_ok.mp h
  obtain ⟨m, hm, rfl⟩ := resolveSignatureSuite_eq_ok.mp hfound
  obtain ⟨-, h⟩ := require_bind_eq_ok.mp h
  split at h
  · obtain ⟨d, -, h⟩ := bind_eq_ok.mp h
    obtain ⟨derived, -, h⟩ := bind_eq_ok.mp h
    obtain ⟨-, h⟩ := require_bind_eq_ok.mp h
    exact ⟨m, hm, (pure_eq_ok.mp h).symm⟩
  · obtain ⟨n, hn, rfl⟩ := validatePublicJwk_eq_ok.mp h
    exact ⟨n, hn.toHolds, rfl⟩

/-- The key that the local signer keeps, with its key identifier written in. -/
theorem minted_withMember {jwk : Value ν} {m : Material}
    (hd : hasOwn (codes "d") jwk = true) (honly : Only ["crv", "kty", "x", "y", "d", "kid"] jwk)
    (hlocal : validateLocalJwk platform jwk = .ok m.suite)
    (hm : PublicKey platform (publicJwkFromLocal jwk) none m) :
    Minted platform (withMember "kid" (.string (didJwkToKid (didOf platform m))) jwk)
      (didOf platform m) m := by
  have hholds : Holds platform jwk m := hm.toHolds.congr (sameAt_publicJwkFromLocal jwk)
  have hsame : SameAt (keyNames ++ privateNames)
      (withMember "kid" (.string (didJwkToKid (didOf platform m))) jwk) jwk :=
    sameAt_withMember _ jwk (by decide)
  refine ⟨⟨hholds.congr (hsame.subset (List.subset_append_left _ _)).symm, ?_, ?_, ?_⟩, rfl,
    hm.congr hsame.publicJwkFromLocal.symm, ?_⟩
  · rw [hasOwn_eq, hsame.members "d" (by decide), ← hasOwn_eq]
    exact hd
  · rw [validateLocalJwk_congr hsame]
    exact hlocal
  · intro name hname
    rcases hasOwn_withMember _ _ _ _ hname with rfl | hname
    · decide
    · exact honly name hname
  · rw [member_withMember, if_pos ⟨rfl, hholds.object⟩]

/-- A private key that the local signer is made from signs every payload, and what it signs is
accepted by who has nothing but the identity. -/
theorem local_signer_accepted (hjose : Jose platform) {jwk : Value ν} {did : Text}
    (hd : hasOwn (codes "d") jwk = true) (honly : Only ["crv", "kty", "x", "y", "d", "kid"] jwk)
    (hminted : deriveDidJwk platform jwk = .ok did)
    (hkid : hasOwn (codes "kid") jwk = true → member "kid" jwk = some (.string (didJwkToKid did))) :
    ∃ manager, KeyManager.fromJwk platform jwk {} = .ok manager ∧ manager.did = did ∧
      ∀ payload, ∃ jws, signMpasCompactJws platform (manager.signer platform) payload = .ok jws ∧
        ∃ key, didJwkToJwk platform did = .ok key ∧
          verifySuiteCompactJws platform jws key (didJwkToKid did) = .ok payload := by
  obtain ⟨⟨suite, hlocal⟩, m, hm, hdid⟩ := (deriveDidJwk_eq_ok hjose.canonical).mp hminted
  obtain ⟨n, hn, rfl⟩ := validateLocalJwk_cases hlocal
  have hnm : n = m := hn.unique (hm.toHolds.congr (sameAt_publicJwkFromLocal jwk))
  subst hnm
  have hown := minted_withMember hd honly hlocal hm
  have hdidjwk : isDidJwk did = true := by
    rw [hdid]
    exact isDidJwk_didOf n
  rw [← hdid] at hown
  have hmanager : (KeyManager.mk (withMember "kid" (.string (didJwkToKid did)) jwk) did
      n.suite.jwsAlgorithm).identity = { did, kid := didJwkToKid did
                                         algorithm := n.suite.jwsAlgorithm
                                         publicKey := publicJwkFromLocal
                                           (withMember "kid" (.string (didJwkToKid did)) jwk) } := by
    rw [KeyManager.identity, KeyManager.kid, hown.named]
    rfl
  refine ⟨⟨withMember "kid" (.string (didJwkToKid did)) jwk, did, n.suite.jwsAlgorithm⟩, ?_, rfl,
    fun payload => ?_⟩
  · unfold KeyManager.fromJwk
    refine bind_eq_ok.mpr ⟨n.suite, hlocal, require_bind_eq_ok.mpr ⟨by simp, ?_⟩⟩
    refine bind_eq_ok.mpr ⟨did, hminted, require_bind_eq_ok.mpr ⟨by simp, ?_⟩⟩
    rw [if_pos hdidjwk]
    refine require_bind_eq_ok.mpr ⟨?_, require_bind_eq_ok.mpr ⟨fun _ hkey => ?_, ?_⟩⟩
    · simp [truthy, didJwkToKid, codes]
    · exact isText_iff.mpr (hkid hkey)
    · refine bind_eq_ok.mpr ⟨n.suite, ?_, rfl⟩
      rw [hmanager, hdid]
      exact validateSignerIdentity_didOf (hdid ▸ hown.published)
  · obtain ⟨jws, hsigned, decoded, signature, header, haccepts⟩ := hown.signs hjose payload
    refine ⟨jws, ?_, n.minimal, by rw [hdid]; exact didJwkToJwk_didOf hm.valid,
      haccepts.minimal hjose⟩
    unfold signMpasCompactJws
    refine bind_eq_ok.mpr ⟨n.suite, ?_, bind_eq_ok.mpr ⟨jws, ?_, bind_eq_ok.mpr ⟨payload, ?_, ?_⟩⟩⟩
    · show validateSignerIdentity platform (KeyManager.identity _) = _
      rw [hmanager, hdid]
      exact validateSignerIdentity_didOf (hdid ▸ hown.published)
    · show signSuiteCompactJws platform _ payload (KeyManager.identity _).kid = _
      rw [hmanager]
      exact hsigned
    · show verifySuiteCompactJws platform jws (forVerification (KeyManager.identity _).publicKey)
        (KeyManager.identity _).kid = _
      rw [hmanager]
      exact verifySuiteCompactJws_eq_ok.mpr ⟨n, decoded, payload, signature, header, haccepts⟩
    · exact require_bind_eq_ok.mpr ⟨rfl, rfl⟩

theorem local_signer_accepted_generated :
    ∃ manager, KeyManager.fromJwk Example.platform Example.key {} = .ok manager ∧
      manager.did = Example.did ∧
      ∀ payload, ∃ jws,
        signMpasCompactJws Example.platform (manager.signer Example.platform) payload = .ok jws ∧
        ∃ key, didJwkToJwk Example.platform Example.did = .ok key ∧
          verifySuiteCompactJws Example.platform jws key (didJwkToKid Example.did) = .ok payload :=
  local_signer_accepted Example.jose rfl
    (only_strings (by decide)) Example.key_minted (fun h => absurd h (by decide))

end Mpas.SignatureSuites
