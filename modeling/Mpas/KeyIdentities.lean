import Mpas.SignatureSuites

/-!
# What a key's identity says

A key is its curve and its coordinates, whatever else stands in its JSON Web Key. The
`did:jwk` that it is minted has these in it and nothing else, so that two keys have one
identity only if they are the same.

* `Material`, `PublicKey`: the keys, and the JSON Web Keys that have them;
* `strictJsonParse_strings`: an object of texts is read back from what is written;
* `did_names_key`: the round trip of an identity.
-/

namespace Mpas.SignatureSuites

open JsonText Checks Base64

variable {ν κ : Type}

/-! ## Objects of texts -/

section Strings

def stringMembers (members : List (Text × Text)) : List (Text × Value ν) :=
  members.map fun entry => (entry.1, .string entry.2)

def strings (members : List (Text × Text)) : Value ν := .object (stringMembers members)

theorem stringMembers_names (members : List (Text × Text)) :
    (stringMembers (ν := ν) members).map Prod.fst = members.map Prod.fst := by
  simp [stringMembers]

theorem stringMembers_injective :
    Function.Injective (stringMembers : List (Text × Text) → List (Text × Value ν)) := by
  apply List.map_injective_iff.mpr
  rintro ⟨name, s⟩ ⟨other, t⟩ h
  obtain ⟨hname, hvalue⟩ := Prod.mk.inj h
  dsimp only at hname hvalue
  rw [hname, Value.string.inj hvalue]

theorem uniqueMembers_strings (written : ν → Text) (members : List (Text × Text)) :
    uniqueMembers (treeMembers written (stringMembers members)) = true := by
  induction members with
  | nil => rfl
  | cons entry rest ih => exact ih

theorem unique_strings (written : ν → Text) {members : List (Text × Text)}
    (h : (members.map Prod.fst).Nodup) : ((strings members).tree written).unique = true := by
  refine Bool.and_eq_true_iff.mpr ⟨?_, uniqueMembers_strings written members⟩
  rw [decide_eq_true_eq, treeMembers_names, stringMembers_names]
  exact h

theorem evaluateMembers_strings (number : Text → ν) (written : ν → Text)
    (members : List (Text × Text)) (result : List (Text × Value ν))
    (h : (result.map Prod.fst ++ members.map Prod.fst).Nodup) :
    evaluateMembers number (treeMembers written (stringMembers members)) result =
      result ++ stringMembers members := by
  induction members generalizing result with
  | nil => exact (List.append_nil result).symm
  | cons entry rest ih =>
    have hfresh : entry.1 ∉ result.map Prod.fst := by
      intro hmem
      exact (List.nodup_append.mp h).2.2 _ hmem _ List.mem_cons_self rfl
    have hwrite := OrderedMap.write_absent hfresh (Value.string (ν := ν) entry.2)
    show evaluateMembers number (treeMembers written (stringMembers rest))
      (OrderedMap.write entry.1 (.string entry.2) result) = _
    rw [hwrite, ih _ (by simpa using h), List.append_assoc]
    rfl

theorem evaluate_strings (number : Text → ν) (written : ν → Text)
    {members : List (Text × Text)} (h : (members.map Prod.fst).Nodup) :
    ((strings members).tree written).evaluate number = strings members :=
  congrArg Value.object (evaluateMembers_strings number written members [] (by simpa using h))

theorem strings_text (written : ν → Text) : ∀ members : List (Text × Text), members ≠ [] →
    MembersText (treeMembers written (stringMembers members))
      (stringifyMembers written (stringMembers members))
  | [], h => absurd rfl h
  | [entry], _ => .last (member_text (.string (writeString_text entry.2)))
  | entry :: next :: rest, _ =>
    .more (member_text (.string (writeString_text entry.2)))
      (strings_text written (next :: rest) (List.cons_ne_nil _ _))

/-- An object of texts is read back from its text. -/
theorem strictJsonParse_strings (number : Text → ν) (written : ν → Text)
    {members : List (Text × Text)} (h : (members.map Prod.fst).Nodup) (hne : members ≠ []) :
    StrictJson.strictJsonParse number ((strings members).stringify written) =
      .ok (strings members) := by
  have htext : DocumentText ((strings members).tree written)
      ((strings members).stringify written) := by
    refine ⟨[], _, [], none_whitespace, .object (strings_text written members hne),
      none_whitespace, ?_⟩
    rw [List.nil_append, List.append_nil]
    rfl
  have hparse := StrictJson.strictJsonParse_complete number _ htext
  rw [unique_strings written h, evaluate_strings number written h] at hparse
  exact hparse

theorem stringify_strings_injective (number : Text → ν) {written : ν → Text}
    {members others : List (Text × Text)} (h : (members.map Prod.fst).Nodup) (hne : members ≠ [])
    (h' : (others.map Prod.fst).Nodup) (hne' : others ≠ [])
    (heq : (strings members).stringify written = (strings others).stringify written) :
    members = others := by
  have hparse := strictJsonParse_strings number written h hne
  rw [heq, strictJsonParse_strings number written h' hne'] at hparse
  exact (stringMembers_injective (Value.object.inj (Except.ok.inj hparse))).symm

theorem wellFormed_members (written : ν → Text) (members : List (Text × Text)) :
    Utf8.WellFormed (stringifyMembers written (stringMembers members)) := by
  induction members with
  | nil => exact .nil
  | cons entry rest ih =>
    have hentry : Utf8.WellFormed (writeString entry.1 ++ colon :: writeString entry.2) :=
      (Utf8.writeString_wellFormed entry.1).append
        (.unit (by decide) (Utf8.writeString_wellFormed entry.2))
    cases rest with
    | nil => exact hentry
    | cons next rest =>
      have hall := hentry.append (.unit (c := comma) (by decide) ih)
      exact hall

theorem wellFormed_strings (written : ν → Text) (members : List (Text × Text)) :
    Utf8.WellFormed ((strings members).stringify written) :=
  .unit (by decide) ((wellFormed_members written members).append (.unit (by decide) .nil))

end Strings

/-! ## What is read off the checks -/

theorem require_eq_ok {good : Prop} [Decidable good] {message : String} {u : Unit} :
    require good message = .ok u ↔ good := by
  rw [require, throwIf_eq_ok, Decidable.not_not]

theorem require_bind_eq_ok {α : Type} {good : Prop} [Decidable good] {message : String}
    {f : Unit → Except Failure α} {a : α} :
    (require good message >>= f) = .ok a ↔ good ∧ f () = .ok a := by
  rw [require, throwIf_bind_eq_ok, Decidable.not_not]

theorem pure_eq_ok {α : Type} {a b : α} : (pure a : Except Failure α) = .ok b ↔ a = b :=
  ⟨Except.ok.inj, congrArg _⟩

theorem isText_iff {text : Text} {value : Option (Value ν)} :
    isText text value = true ↔ value = some (.string text) := by
  constructor
  · intro h
    unfold isText at h
    split at h
    · rw [of_decide_eq_true h]
    · cases h
  · rintro rfl
    exact decide_eq_true rfl

theorem textOf_eq_some {text : Text} {value : Option (Value ν)} :
    textOf value = some text ↔ value = some (.string text) := by
  constructor
  · intro h
    unfold textOf at h
    split at h
    · rw [Option.some.inj h]
    · cases h
  · rintro rfl
    rfl

theorem decodeBase64url_eq_ok {value : Text} {allowEmpty : Bool} {bytes : List UInt8} :
    decodeBase64url value allowEmpty = .ok bytes ↔
      value = urlSafe.encode bytes ∧ (allowEmpty = true ∨ bytes ≠ []) := by
  unfold decodeBase64url
  constructor
  · intro h
    split at h
    · cases h
    rename_i ns hns
    obtain ⟨hempty, h⟩ := require_bind_eq_ok.mp h
    obtain ⟨hcanonical, h⟩ := require_bind_eq_ok.mp h
    obtain rfl := pure_eq_ok.mp h
    refine ⟨hcanonical.symm, hempty.imp_right fun hne hbytes => hne ?_⟩
    rw [← hcanonical, hbytes]
    rfl
  · rintro ⟨rfl, hempty⟩
    have hdigits : urlSafe.digits (urlSafe.encode bytes) = some (sextets bytes) :=
      Alphabet.digits_letters _
    rw [hdigits]
    refine require_bind_eq_ok.mpr ⟨hempty.imp_right fun hne => ?_, ?_⟩
    · exact fun h => hne ((Alphabet.encode_eq_nil_iff bytes).mp h)
    · rw [octets_sextets]
      exact require_bind_eq_ok.mpr ⟨rfl, rfl⟩

theorem fixedBytes_eq_ok {value : Option (Value ν)} {name : String} {bytes : List UInt8} :
    fixedBytes value name = .ok bytes ↔
      value = some (.string (urlSafe.encode bytes)) ∧ bytes.length = 32 := by
  unfold fixedBytes
  constructor
  · intro h
    split at h
    · cases h
    rename_i text htext
    obtain ⟨decoded, hdecoded, h⟩ := bind_eq_ok.mp h
    obtain ⟨hlength, h⟩ := require_bind_eq_ok.mp h
    obtain rfl := pure_eq_ok.mp h
    obtain ⟨rfl, -⟩ := decodeBase64url_eq_ok.mp hdecoded
    exact ⟨textOf_eq_some.mp htext, hlength⟩
  · rintro ⟨rfl, hlength⟩
    refine bind_eq_ok.mpr ⟨bytes, decodeBase64url_eq_ok.mpr ⟨rfl, .inr ?_⟩, ?_⟩
    · rintro rfl
      cases hlength
    · exact require_bind_eq_ok.mpr ⟨hlength, rfl⟩

/-! ## Keys -/

/-- What a public key consists of. -/
inductive Material
  | okp (x : List UInt8)
  | ec (x y : List UInt8)
  deriving DecidableEq

namespace Material

def suite : Material → MpasSignatureSuite
  | okp _ => ed25519
  | ec _ _ => p256

def coordinates : Material → List (Text × Text)
  | okp x => [(codes "x", urlSafe.encode x)]
  | ec x y => [(codes "x", urlSafe.encode x), (codes "y", urlSafe.encode y)]

/-- The members of the JSON Web Key that has nothing but the key. -/
def members (m : Material) : List (Text × Text) :=
  (codes "crv", m.suite.id.text) :: (codes "kty", m.suite.kty) :: m.coordinates

def minimal (m : Material) : Value ν := strings m.members

def Valid (platform : Platform ν κ) : Material → Prop
  | okp x => x.length = 32
  | ec x y => x.length = 32 ∧ y.length = 32 ∧ platform.convertKey x y = .ok ()

/-- A JSON Web Key with these coordinates. -/
def At (jwk : Value ν) : Material → Prop
  | okp x => member "x" jwk = some (.string (urlSafe.encode x))
  | ec x y => member "x" jwk = some (.string (urlSafe.encode x)) ∧
      member "y" jwk = some (.string (urlSafe.encode y))

theorem suite_mem (m : Material) : m.suite ∈ suites := by
  cases m with
  | okp x => exact List.mem_cons_self
  | ec x y => exact List.mem_cons_of_mem _ List.mem_cons_self

theorem members_names (m : Material) : (m.members.map Prod.fst).Nodup := by
  cases m with
  | okp x => exact (by decide : ([codes "crv", codes "kty", codes "x"] : List Text).Nodup)
  | ec x y =>
    exact (by decide : ([codes "crv", codes "kty", codes "x", codes "y"] : List Text).Nodup)

theorem members_ne_nil (m : Material) : m.members ≠ [] := List.cons_ne_nil _ _

theorem members_injective {m m' : Material} (h : m.members = m'.members) : m = m' := by
  cases m with
  | okp x =>
    cases m' with
    | okp x' =>
      simp only [members, coordinates, List.cons.injEq, Prod.mk.injEq] at h
      rw [Alphabet.encode_injective h.2.2.1.2]
    | ec x' y' => simp [members, coordinates] at h
  | ec x y =>
    cases m' with
    | okp x' => simp [members, coordinates] at h
    | ec x' y' =>
      simp only [members, coordinates, List.cons.injEq, Prod.mk.injEq] at h
      rw [Alphabet.encode_injective h.2.2.1.2, Alphabet.encode_injective h.2.2.2.1.2]

end Material

/-- What a key is taken for that has passed. -/
structure Holds (platform : Platform ν κ) (jwk : Value ν) (m : Material) : Prop where
  object : isObject jwk = true
  kty : member "kty" jwk = some (.string m.suite.kty)
  crv : member "crv" jwk = some (.string m.suite.id.text)
  coordinates : m.At jwk
  valid : m.Valid platform
  metadata : validateMetadata jwk m.suite none = .ok ()

theorem suite_alone {jwk : Value ν} {suite : MpasSignatureSuite} :
    (suites.filter fun suite => isText suite.kty (member "kty" jwk) &&
        isText suite.id.text (member "crv" jwk)) = [suite] ↔
      suite ∈ suites ∧ member "kty" jwk = some (.string suite.kty) ∧
        member "crv" jwk = some (.string suite.id.text) := by
  constructor
  · intro h
    have hmem : suite ∈ suites.filter fun suite => isText suite.kty (member "kty" jwk) &&
        isText suite.id.text (member "crv" jwk) := h ▸ List.mem_singleton_self suite
    obtain ⟨hsuite, hmatch⟩ := List.mem_filter.mp hmem
    rw [Bool.and_eq_true, isText_iff, isText_iff] at hmatch
    exact ⟨hsuite, hmatch⟩
  · rintro ⟨hsuite, hkty, hcrv⟩
    rw [hkty, hcrv]
    rcases List.mem_cons.mp hsuite with rfl | hsuite
    · rfl
    · obtain rfl := List.mem_singleton.mp hsuite
      rfl

section Platform

variable {platform : Platform ν κ}

theorem resolveSignatureSuite_eq_ok {jwk : Value ν} {suite : MpasSignatureSuite} :
    resolveSignatureSuite platform jwk = .ok suite ↔
      ∃ m : Material, Holds platform jwk m ∧ suite = m.suite := by
  unfold resolveSignatureSuite
  constructor
  · intro h
    obtain ⟨hobject, h⟩ := require_bind_eq_ok.mp h
    split at h
    · rename_i found hfound
      obtain ⟨hsuite, hkty, hcrv⟩ := suite_alone.mp hfound
      obtain ⟨x, hx, h⟩ := bind_eq_ok.mp h
      obtain ⟨hx, hlength⟩ := fixedBytes_eq_ok.mp hx
      obtain ⟨_, hpoint, h⟩ := bind_eq_ok.mp h
      obtain ⟨_, hmetadata, h⟩ := bind_eq_ok.mp h
      rcases List.mem_cons.mp hsuite with rfl | hsuite
      · exact ⟨.okp x, ⟨hobject, hkty, hcrv, hx, hlength, hmetadata⟩, (pure_eq_ok.mp h).symm⟩
      · obtain rfl := List.mem_singleton.mp hsuite
        obtain ⟨y, hy, hpoint⟩ := bind_eq_ok.mp hpoint
        obtain ⟨hy, hlength'⟩ := fixedBytes_eq_ok.mp hy
        exact ⟨.ec x y, ⟨hobject, hkty, hcrv, ⟨hx, hy⟩,
          ⟨hlength, hlength', mapError_eq_ok.mp hpoint⟩, hmetadata⟩, (pure_eq_ok.mp h).symm⟩
    · cases h
  · rintro ⟨m, hm, rfl⟩
    refine require_bind_eq_ok.mpr ⟨hm.object, ?_⟩
    have halone := suite_alone.mpr ⟨m.suite_mem, hm.kty, hm.crv⟩
    rw [halone]
    have hmetadata := hm.metadata
    have hvalid := hm.valid
    have hat := hm.coordinates
    cases m with
    | okp x =>
      refine bind_eq_ok.mpr ⟨x, fixedBytes_eq_ok.mpr ⟨hat, hvalid⟩, ?_⟩
      exact bind_eq_ok.mpr ⟨(), rfl, bind_eq_ok.mpr ⟨(), hmetadata, rfl⟩⟩
    | ec x y =>
      obtain ⟨hlength, hlength', hpoint⟩ := hvalid
      refine bind_eq_ok.mpr ⟨x, fixedBytes_eq_ok.mpr ⟨hat.1, hlength⟩, ?_⟩
      refine bind_eq_ok.mpr ⟨(), ?_, bind_eq_ok.mpr ⟨(), hmetadata, rfl⟩⟩
      exact bind_eq_ok.mpr ⟨y, fixedBytes_eq_ok.mpr ⟨hat.2, hlength'⟩, mapError_eq_ok.mpr hpoint⟩

/-- A public key that may do the operation. -/
structure PublicKey (platform : Platform ν κ) (jwk : Value ν) (operation : Option KeyOperation)
    (m : Material) : Prop extends Holds platform jwk m where
  unprivate : (privateMembers.any fun name => hasOwn name jwk) = false
  permitted : validateMetadata jwk m.suite operation = .ok ()

theorem validatePublicJwk_eq_ok {jwk : Value ν} {operation : Option KeyOperation}
    {suite : MpasSignatureSuite} :
    validatePublicJwk platform jwk operation = .ok suite ↔
      ∃ m, PublicKey platform jwk operation m ∧ suite = m.suite := by
  unfold validatePublicJwk
  constructor
  · intro h
    obtain ⟨found, hfound, h⟩ := bind_eq_ok.mp h
    obtain ⟨m, hm, rfl⟩ := resolveSignatureSuite_eq_ok.mp hfound
    obtain ⟨hprivate, h⟩ := require_bind_eq_ok.mp h
    obtain ⟨_, hpermitted, h⟩ := bind_eq_ok.mp h
    exact ⟨m, ⟨hm, Bool.eq_false_of_not_eq_true hprivate, hpermitted⟩, (pure_eq_ok.mp h).symm⟩
  · rintro ⟨m, hm, rfl⟩
    refine bind_eq_ok.mpr ⟨m.suite, resolveSignatureSuite_eq_ok.mpr ⟨m, hm.toHolds, rfl⟩, ?_⟩
    refine require_bind_eq_ok.mpr ⟨?_, bind_eq_ok.mpr ⟨(), hm.permitted, rfl⟩⟩
    rw [hm.unprivate]
    exact Bool.false_ne_true

theorem okp_ne_ec : codes "OKP" ≠ codes "EC" := by decide

/-- A JSON Web Key has one key in it. -/
theorem Holds.unique {jwk : Value ν} {m m' : Material} (h : Holds platform jwk m)
    (h' : Holds platform jwk m') : m = m' := by
  have hat := h.coordinates
  have hat' := h'.coordinates
  have hkty := h.kty.symm.trans h'.kty
  cases m with
  | okp x =>
    cases m' with
    | okp x' =>
      have heq := Value.string.inj (Option.some.inj (hat.symm.trans hat'))
      rw [Alphabet.encode_injective heq]
    | ec x' y' => exact absurd (Value.string.inj (Option.some.inj hkty)) okp_ne_ec
  | ec x y =>
    cases m' with
    | okp x' => exact absurd (Value.string.inj (Option.some.inj hkty)) okp_ne_ec.symm
    | ec x' y' =>
      have hx := Value.string.inj (Option.some.inj (hat.1.symm.trans hat'.1))
      have hy := Value.string.inj (Option.some.inj (hat.2.symm.trans hat'.2))
      rw [Alphabet.encode_injective hx, Alphabet.encode_injective hy]

theorem normalizePublicJwk_eq_ok {jwk value : Value ν} :
    normalizePublicJwk platform jwk = .ok value ↔
      ∃ m, PublicKey platform jwk none m ∧ value = m.minimal := by
  unfold normalizePublicJwk
  constructor
  · intro h
    obtain ⟨suite, hsuite, h⟩ := bind_eq_ok.mp h
    obtain ⟨m, hm, rfl⟩ := validatePublicJwk_eq_ok.mp hsuite
    refine ⟨m, hm, (pure_eq_ok.mp h).symm.trans ?_⟩
    have hat := hm.coordinates
    cases m with
    | okp x => simp only [Material.At] at hat; rw [own, hat]; rfl
    | ec x y => rw [own, own, hat.1, hat.2]; rfl
  · rintro ⟨m, hm, rfl⟩
    refine bind_eq_ok.mpr ⟨m.suite, validatePublicJwk_eq_ok.mpr ⟨m, hm, rfl⟩, ?_⟩
    have hat := hm.coordinates
    cases m with
    | okp x => simp only [Material.At] at hat; rw [own, hat]; rfl
    | ec x y => rw [own, own, hat.1, hat.2]; rfl

/-- The JSON Web Key that has nothing but the key. -/
theorem publicKey_minimal {m : Material} (h : m.Valid platform) (operation : Option KeyOperation) :
    PublicKey platform (m.minimal : Value ν) operation m := by
  cases m with
  | okp x => exact ⟨⟨rfl, rfl, rfl, rfl, h, rfl⟩, rfl, rfl⟩
  | ec x y => exact ⟨⟨rfl, rfl, rfl, ⟨rfl, rfl⟩, h, rfl⟩, rfl, rfl⟩

theorem samePublicKey_eq_ok {left right : Value ν} {same : Bool} :
    samePublicKey platform left right = .ok same ↔
      ∃ m m', PublicKey platform left none m ∧ PublicKey platform right none m' ∧
        same = decide (m = m') := by
  have hequal : ∀ m m' : Material,
      decide ((m.minimal : Value ν).stringify platform.written =
        (m'.minimal : Value ν).stringify platform.written) = decide (m = m') := by
    intro m m'
    refine decide_eq_decide.mpr ⟨fun h => ?_, fun h => by rw [h]⟩
    exact Material.members_injective (stringify_strings_injective platform.number
      m.members_names m.members_ne_nil m'.members_names m'.members_ne_nil h)
  unfold samePublicKey
  constructor
  · intro h
    obtain ⟨a, ha, h⟩ := bind_eq_ok.mp h
    obtain ⟨b, hb, h⟩ := bind_eq_ok.mp h
    obtain ⟨m, hm, rfl⟩ := normalizePublicJwk_eq_ok.mp ha
    obtain ⟨m', hm', rfl⟩ := normalizePublicJwk_eq_ok.mp hb
    exact ⟨m, m', hm, hm', (pure_eq_ok.mp h).symm.trans (hequal m m')⟩
  · rintro ⟨m, m', hm, hm', rfl⟩
    refine bind_eq_ok.mpr ⟨m.minimal, normalizePublicJwk_eq_ok.mpr ⟨m, hm, rfl⟩, ?_⟩
    refine bind_eq_ok.mpr ⟨m'.minimal, normalizePublicJwk_eq_ok.mpr ⟨m', hm', rfl⟩, ?_⟩
    exact pure_eq_ok.mpr (hequal m m')

/-! ## Identities -/

/-- What canonical JSON is for an object of texts: its members in order, written as
`JSON.stringify` does. -/
def Canonical (platform : Platform ν κ) : Prop :=
  ∀ members : List (Text × Text), (members.map Prod.fst).Pairwise (· < ·) →
    platform.canonicalize (strings members) = (strings members).stringify platform.written

/-- The identity that a key is minted. -/
def didOf (platform : Platform ν κ) (m : Material) : Text :=
  didPrefix ++ urlSafe.encode (Utf8.encode ((m.minimal : Value ν).stringify platform.written))

theorem Material.members_sorted (m : Material) :
    (m.members.map Prod.fst).Pairwise (· < ·) := by
  cases m with
  | okp x =>
    exact (by decide : ([codes "crv", codes "kty", codes "x"] : List Text).Pairwise (· < ·))
  | ec x y =>
    exact (by decide :
      ([codes "crv", codes "kty", codes "x", codes "y"] : List Text).Pairwise (· < ·))

theorem deriveDidJwk_eq_ok (hcanonical : Canonical platform) {jwk : Value ν} {did : Text} :
    deriveDidJwk platform jwk = .ok did ↔
      (∃ suite, validateLocalJwk platform jwk = .ok suite) ∧
        ∃ m, PublicKey platform (publicJwkFromLocal jwk) none m ∧ did = didOf platform m := by
  unfold deriveDidJwk
  constructor
  · intro h
    obtain ⟨suite, hlocal, h⟩ := bind_eq_ok.mp h
    obtain ⟨minimal, hminimal, h⟩ := bind_eq_ok.mp h
    obtain ⟨m, hm, rfl⟩ := normalizePublicJwk_eq_ok.mp hminimal
    refine ⟨⟨suite, hlocal⟩, m, hm, (pure_eq_ok.mp h).symm.trans ?_⟩
    rw [Material.minimal, hcanonical m.members m.members_sorted]
    rfl
  · rintro ⟨⟨suite, hlocal⟩, m, hm, rfl⟩
    refine bind_eq_ok.mpr ⟨suite, hlocal, bind_eq_ok.mpr ⟨m.minimal, ?_, pure_eq_ok.mpr ?_⟩⟩
    · exact normalizePublicJwk_eq_ok.mpr ⟨m, hm, rfl⟩
    · rw [Material.minimal, hcanonical m.members m.members_sorted]
      rfl

theorem isDidJwk_didOf (m : Material) : isDidJwk (didOf platform m) = true :=
  List.isPrefixOf_iff_prefix.mpr (List.prefix_append _ _)

theorem drop_didOf (m : Material) : (didOf platform m).drop didPrefix.length =
    urlSafe.encode (Utf8.encode ((m.minimal : Value ν).stringify platform.written)) :=
  List.drop_left

theorem didOf_injective {m m' : Material} (h : didOf platform m = didOf platform m') : m = m' := by
  have hencoded := Alphabet.encode_injective (List.append_cancel_left h)
  have htext := Utf8.encode_injective (wellFormed_strings platform.written m.members)
    (wellFormed_strings platform.written m'.members) hencoded
  exact Material.members_injective (stringify_strings_injective platform.number
    m.members_names m.members_ne_nil m'.members_names m'.members_ne_nil htext)

/-- **Round trip of an identity.** The key comes back out of the identity it was minted. -/
theorem didJwkToJwk_didOf {m : Material} (h : m.Valid platform) :
    didJwkToJwk platform (didOf platform m) = .ok m.minimal := by
  have hparse := strictJsonParse_strings platform.number platform.written m.members_names
    m.members_ne_nil
  have hdigits : (urlSafe.digits (urlSafe.encode (Utf8.encode
      ((m.minimal : Value ν).stringify platform.written)))).isSome = true := by
    rw [Alphabet.encode, Alphabet.digits_letters]
    rfl
  have hne : urlSafe.encode (Utf8.encode
      ((m.minimal : Value ν).stringify platform.written)) ≠ [] := by
    intro hnil
    have hbytes := (Alphabet.encode_eq_nil_iff _).mp hnil
    have htext := Utf8.decode_encode (wellFormed_strings platform.written m.members)
    rw [← Material.minimal, hbytes] at htext
    cases htext
  unfold didJwkToJwk
  rw [isDidJwk_didOf, drop_didOf]
  refine throwIf_bind_eq_ok.mpr ⟨fun hfalse => hfalse rfl, ?_⟩
  refine require_bind_eq_ok.mpr ⟨⟨hne, hdigits⟩, ?_⟩
  rw [Alphabet.decode_encode]
  dsimp only
  rw [Material.minimal, Utf8.decode_encode (wellFormed_strings _ _), hparse]
  dsimp only
  refine require_bind_eq_ok.mpr ⟨rfl, bind_eq_ok.mpr ⟨m.suite, ?_, rfl⟩⟩
  exact validatePublicJwk_eq_ok.mpr ⟨m, publicKey_minimal h _, rfl⟩

end Platform

/-! ## An Ed25519 key -/

namespace Example

def seed : List UInt8 :=
  [0x9d, 0x61, 0xb1, 0x9d, 0xef, 0xfd, 0x5a, 0x60, 0xba, 0x84, 0x4a, 0xf4,
    0x92, 0xec, 0x2c, 0xc4, 0x44, 0x49, 0xc5, 0x69, 0x7b, 0x32, 0x69, 0x19,
    0x70, 0x3b, 0xac, 0x03, 0x1c, 0xae, 0x7f, 0x60]

def point : List UInt8 :=
  [0xd7, 0x5a, 0x98, 0x01, 0x82, 0xb1, 0x0a, 0xb7, 0xd5, 0x4b, 0xfe, 0xd3,
    0xc9, 0x64, 0x07, 0x3a, 0x0e, 0xe1, 0x72, 0xf3, 0xda, 0xa6, 0x23, 0x25,
    0xaf, 0x02, 0x1a, 0x68, 0xf7, 0x07, 0x51, 0x1a]

def signed : List UInt8 :=
  [0xbc, 0xb3, 0x54, 0x82, 0x80, 0x8d, 0xe8, 0x53, 0x63, 0xf6, 0x45, 0x14,
    0x17, 0x68, 0x67, 0x36, 0x40, 0xc0, 0x43, 0x60, 0x4f, 0xde, 0x39, 0xb6,
    0xc3, 0xfe, 0x69, 0x2e, 0x09, 0xc0, 0xd5, 0x4a, 0x56, 0xc7, 0x98, 0xd5,
    0xb7, 0xc4, 0xd4, 0x96, 0x31, 0x33, 0xd0, 0x4f, 0x3f, 0x40, 0x3f, 0xce,
    0x6d, 0x51, 0x81, 0x9d, 0xb0, 0x79, 0x90, 0xda, 0xd0, 0x75, 0x70, 0xfa,
    0xab, 0x66, 0x9b, 0x09]

def material : Material := .okp point

def did : Text :=
  codes "did:jwk:eyJjcnYiOiJFZDI1NTE5Iiwia3R5IjoiT0tQIiwieCI6IjExcVlBWUt4Q3JmVlNfN1R5V1FIT2c3aGN2UGFwaU1scndJYWFQY0hVUm8ifQ"

/-- What the signature is made of. -/
def header : Text := codes "\x7b\"alg\":\"EdDSA\",\"kid\":\"" ++ didJwkToKid did ++ codes "\"\x7d"

def payload : List UInt8 := [0x7b, 0x7d]

/-- The signatures of a key; the one that is made here is the real one. -/
def signature (key : Material) (bytes other : List UInt8) : List UInt8 :=
  if key = material ∧ bytes = Utf8.encode header ∧ other = payload then signed
  else List.replicate 64 0

def importKey (jwk : Value Text) : Except Text Material :=
  match (textOf (member "x" jwk)).bind urlSafe.decode with
  | some x => .ok (.okp x)
  | none => .error (codes "Invalid key")

def verifyCompact (jws : Text) (key : Material) : Except Text (List UInt8) :=
  match jws.splitOn (code '.') with
  | [header, payload, encoded] =>
    match urlSafe.decode header, urlSafe.decode payload with
    | some header, some payload =>
      if encoded = urlSafe.encode (signature key header payload) then .ok payload
      else .error (codes "signature verification failed")
    | _, _ => .error (codes "Invalid Compact JWS")
  | _ => .error (codes "Invalid Compact JWS")

/-- The numbers of JSON are what is written; there are no P-256 keys. -/
def platform : Platform Text Material where
  number := id
  written := id
  truthy n := decide (n ≠ codes "0")
  canonicalize value := value.stringify id
  convertKey _ _ := .error (codes "Failed to convert Buffer to EC_POINT")
  ecdhPublicKey _ := ([], [])
  ed25519PublicKey s := if s = seed then point else []
  importJWK jwk _ := importKey jwk
  compactSign payload header key :=
    let header := Utf8.encode (header.stringify id)
    .ok ([code '.'].intercalate
      ([header, payload, signature key header payload].map urlSafe.encode))
  compactVerify jws key _ := verifyCompact jws key

def key : Value Text :=
  strings [(codes "kty", codes "OKP"), (codes "crv", codes "Ed25519"),
    (codes "x", urlSafe.encode point), (codes "d", urlSafe.encode seed)]

theorem did_minted : didOf platform material = did := by decide +kernel

theorem canonical : Canonical platform := fun _ _ => rfl

theorem key_holds : Holds platform key material := ⟨rfl, rfl, rfl, rfl, rfl, rfl⟩

theorem key_published : PublicKey platform (publicJwkFromLocal key) none material :=
  ⟨⟨rfl, rfl, rfl, rfl, rfl, rfl⟩, rfl, rfl⟩

theorem key_local : validateLocalJwk platform key = .ok material.suite := by
  unfold validateLocalJwk
  refine bind_eq_ok.mpr ⟨material.suite, resolveSignatureSuite_eq_ok.mpr ⟨_, key_holds, rfl⟩, ?_⟩
  refine require_bind_eq_ok.mpr ⟨by decide, ?_⟩
  have hd : hasOwn (codes "d") key = true := rfl
  rw [if_pos hd]
  refine bind_eq_ok.mpr ⟨seed, fixedBytes_eq_ok.mpr ⟨rfl, rfl⟩, ?_⟩
  refine bind_eq_ok.mpr ⟨(urlSafe.encode point, none), rfl, require_bind_eq_ok.mpr ⟨⟨?_, ?_⟩, rfl⟩⟩
  · exact isText_iff.mpr rfl
  · exact fun _ h => absurd h (Option.not_mem_none _)

theorem key_minted : deriveDidJwk platform key = .ok did :=
  (deriveDidJwk_eq_ok canonical).mpr ⟨⟨_, key_local⟩, material, key_published, did_minted.symm⟩

end Example

/-! ## One identity for one key -/

variable {platform : Platform ν κ}

/-- The identity that a key is minted has this key in it, and another key is minted the same
identity exactly if it is the same key. -/
theorem did_names_key (hcanonical : Canonical platform) {jwk : Value ν} {did : Text}
    (h : deriveDidJwk platform jwk = .ok did) :
    (∃ key, normalizePublicJwk platform (publicJwkFromLocal jwk) = .ok key ∧
        didJwkToJwk platform did = .ok key) ∧
      ∀ other did', deriveDidJwk platform other = .ok did' →
        (did' = did ↔ samePublicKey platform (publicJwkFromLocal other)
          (publicJwkFromLocal jwk) = .ok true) := by
  obtain ⟨-, m, hm, rfl⟩ := (deriveDidJwk_eq_ok hcanonical).mp h
  refine ⟨⟨m.minimal, normalizePublicJwk_eq_ok.mpr ⟨m, hm, rfl⟩, didJwkToJwk_didOf hm.valid⟩, ?_⟩
  intro other did' hother
  obtain ⟨-, m', hm', rfl⟩ := (deriveDidJwk_eq_ok hcanonical).mp hother
  rw [samePublicKey_eq_ok]
  constructor
  · intro heq
    exact ⟨m', m, hm', hm, (decide_eq_true (didOf_injective heq)).symm⟩
  · rintro ⟨n', n, hn', hn, hsame⟩
    have heq := of_decide_eq_true hsame.symm
    rw [hm'.toHolds.unique hn'.toHolds, hm.toHolds.unique hn.toHolds, heq]

theorem did_names_key_minted :
    (∃ key, normalizePublicJwk Example.platform (publicJwkFromLocal Example.key) = .ok key ∧
        didJwkToJwk Example.platform Example.did = .ok key) ∧
      ∀ other did', deriveDidJwk Example.platform other = .ok did' →
        (did' = Example.did ↔
          samePublicKey Example.platform (publicJwkFromLocal other)
            (publicJwkFromLocal Example.key) = .ok true) :=
  did_names_key Example.canonical Example.key_minted

end Mpas.SignatureSuites
