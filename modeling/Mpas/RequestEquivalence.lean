import Mathlib.Data.List.Perm.Basic
import Mathlib.Data.Option.Basic
import Mpas.Library.Checks
import Mpas.Routing

/-!
# What a fingerprint identifies

Two requests have one fingerprint if they have the same layers, and these say the
same apart from the metadata of the transport. An object of a type for which
nothing says what that is has no fingerprint, and neither has what it is inside of.

* `Json.Equal`: one value, in whatever order its members stand;
* `SameRequest`: requests that are the same, layer by layer;
* `fingerprints_identify`: the requests of one fingerprint, and those without any.
-/

namespace Mpas

/-- One JSON value: as two texts have one canonical form. -/
inductive Json.Equal : Json → Json → Prop
  | null : Equal .null .null
  | bool (b : Bool) : Equal (.bool b) (.bool b)
  | num (n : JsNumber) : Equal (.num n) (.num n)
  | str (s : String) : Equal (.str s) (.str s)
  | arr {items items' : List Json} (h : List.Forall₂ Json.Equal items items') :
    Equal (.arr items) (.arr items')
  | obj {members members' : List (String × Json)}
    (h : ∀ key, Option.Rel Json.Equal (members.lookup key) (members'.lookup key)) :
    Equal (.obj members) (.obj members')

namespace Routing

/-! ## Equal values -/

theorem mem_of_lookup {members : List (String × Json)} {key : String} {value : Json}
    (h : members.lookup key = some value) : (key, value) ∈ members := by
  induction members with
  | nil => cases h
  | cons member rest ih =>
    obtain ⟨name, found⟩ := member
    rw [List.lookup_cons] at h
    cases hname : key == name with
    | true =>
      rw [hname] at h
      cases h
      rw [eq_of_beq hname]
      exact List.mem_cons_self
    | false =>
      rw [hname] at h
      exact List.mem_cons_of_mem _ (ih h)

theorem sizeOf_lookup {members : List (String × Json)} {key : String} {value : Json}
    (h : members.lookup key = some value) : sizeOf value < sizeOf (Json.obj members) := by
  have hmember := List.sizeOf_lt_of_mem (mem_of_lookup h)
  simp only [Prod.mk.sizeOf_spec] at hmember
  simp only [Json.obj.sizeOf_spec]
  omega

theorem equal_refl : ∀ value : Json, value.Equal value
  | .null => .null
  | .bool b => .bool b
  | .num n => .num n
  | .str s => .str s
  | .arr items => .arr (List.forall₂_same.mpr fun item _ => equal_refl item)
  | .obj members => .obj fun key => by
    cases hlook : members.lookup key with
    | none => exact .none
    | some value => exact .some (equal_refl value)
termination_by value => sizeOf value
decreasing_by
  · rename_i hmem
    have hsize := List.sizeOf_lt_of_mem hmem
    simp only [Json.arr.sizeOf_spec]
    omega
  · exact sizeOf_lookup hlook

theorem equal_str {a b : String} : (Json.str a).Equal (.str b) ↔ a = b := by
  constructor
  · intro h
    cases h
    rfl
  · rintro rfl
    exact .str a

theorem equal_strs {texts texts' : List String} :
    (Json.arr (texts.map .str)).Equal (.arr (texts'.map .str)) ↔ texts = texts' := by
  constructor
  · intro h
    cases h with
    | arr h =>
      rw [List.forall₂_map_left_iff, List.forall₂_map_right_iff] at h
      simp only [equal_str, List.forall₂_eq_eq_eq] at h
      exact h
  · rintro rfl
    exact equal_refl _

/-- Equal objects have equal members. -/
theorem equal_member {members members' : List (String × Json)}
    (h : (Json.obj members).Equal (.obj members')) (key : String) :
    Option.Rel Json.Equal (members.lookup key) (members'.lookup key) := by
  cases h with
  | obj h => exact h key

theorem equal_cons {key : String} {value value' : Json} {members members' : List (String × Json)}
    (hvalue : value.Equal value') (h : (Json.obj members).Equal (.obj members')) :
    (Json.obj ((key, value) :: members)).Equal (.obj ((key, value') :: members')) := by
  refine .obj fun name => ?_
  rw [List.lookup_cons, List.lookup_cons]
  cases name == key with
  | true => exact .some hvalue
  | false => exact equal_member h name

/-! ## The order of texts -/

/-- No sequence of code units starts with two characters. -/
theorem codeUnits_append {c c' : Char} {rest rest' : List Nat}
    (h : codeUnits c ++ rest = codeUnits c' ++ rest') : c = c' ∧ rest = rest' := by
  have hvalid := c.valid
  have hvalid' := c'.valid
  unfold UInt32.isValidChar Nat.isValidChar at hvalid hvalid'
  have hnat : c.val.toNat = c.toNat := rfl
  have hnat' : c'.val.toNat = c'.toNat := rfl
  unfold codeUnits at h
  have hsame : c.toNat = c'.toNat ∧ rest = rest' := by
    split at h <;> split at h <;>
      simp only [List.cons_append, List.nil_append, List.cons.injEq] at h
    · exact h
    · omega
    · omega
    · exact ⟨by omega, h.2.2⟩
  exact ⟨Char.toNat_inj.mp hsame.1, hsame.2⟩

theorem utf16_injective {a b : String} (h : utf16 a = utf16 b) : a = b := by
  unfold utf16 at h
  apply String.toList_inj.mp
  generalize a.toList = cs at h
  generalize b.toList = ds at h
  induction cs generalizing ds with
  | nil =>
    cases ds with
    | nil => rfl
    | cons d ds =>
      rw [List.flatMap_nil, List.flatMap_cons] at h
      unfold codeUnits at h
      split at h <;> cases h
  | cons c cs ih =>
    cases ds with
    | nil =>
      rw [List.flatMap_nil, List.flatMap_cons] at h
      unfold codeUnits at h
      split at h <;> cases h
    | cons d ds =>
      rw [List.flatMap_cons, List.flatMap_cons] at h
      obtain ⟨rfl, hrest⟩ := codeUnits_append h
      rw [ih ds hrest]

theorem unitsLe_total (as bs : List Nat) : (unitsLe as bs || unitsLe bs as) = true := by
  induction as generalizing bs with
  | nil => rfl
  | cons a as ih =>
    cases bs with
    | nil => rfl
    | cons b bs =>
      rw [unitsLe, unitsLe]
      rcases Nat.lt_trichotomy a b with hlt | rfl | hgt
      · simp [Nat.ne_of_lt hlt, hlt]
      · simpa using ih bs
      · simp [Nat.ne_of_lt hgt, hgt]

theorem unitsLe_trans {as bs cs : List Nat} (h : unitsLe as bs = true)
    (h' : unitsLe bs cs = true) : unitsLe as cs = true := by
  induction as generalizing bs cs with
  | nil => rfl
  | cons a as ih =>
    cases bs with
    | nil => cases h
    | cons b bs =>
      cases cs with
      | nil => cases h'
      | cons c cs =>
        rw [unitsLe] at h h' ⊢
        split at h
        · subst a
          split at h'
          · subst b
            rw [if_pos rfl]
            exact ih h h'
          · rename_i hne
            rw [if_neg hne]
            exact h'
        · have hlt : a < b := of_decide_eq_true h
          have hac : a < c := by
            split at h'
            · omega
            · have hbc : b < c := of_decide_eq_true h'
              omega
          rw [if_neg (Nat.ne_of_lt hac)]
          exact decide_eq_true hac

theorem unitsLe_antisymm {as bs : List Nat} (h : unitsLe as bs = true)
    (h' : unitsLe bs as = true) : as = bs := by
  induction as generalizing bs with
  | nil =>
    cases bs with
    | nil => rfl
    | cons b bs => cases h'
  | cons a as ih =>
    cases bs with
    | nil => cases h
    | cons b bs =>
      rw [unitsLe] at h h'
      by_cases hab : a = b
      · subst hab
        rw [if_pos rfl] at h h'
        rw [ih h h']
      · rw [if_neg hab] at h
        rw [if_neg (Ne.symm hab)] at h'
        have hlt : a < b := of_decide_eq_true h
        have hgt : b < a := of_decide_eq_true h'
        omega

/-- Sorting keeps of texts without repetitions which there are, and nothing else. -/
theorem sorted_eq_iff {texts texts' : List String} (h : texts.Nodup) (h' : texts'.Nodup) :
    sorted texts = sorted texts' ↔ ∀ text, text ∈ texts ↔ text ∈ texts' := by
  constructor
  · intro heq text
    have hmem : text ∈ sorted texts ↔ text ∈ sorted texts' := by rw [heq]
    unfold sorted at hmem
    rwa [List.mem_mergeSort, List.mem_mergeSort] at hmem
  · intro hmem
    have hperm : (sorted texts).Perm (sorted texts') :=
      (List.mergeSort_perm _ _).trans
        (((List.perm_ext_iff_of_nodup h h').mpr hmem).trans (List.mergeSort_perm _ _).symm)
    have hpairwise : ∀ texts : List String, (sorted texts).Pairwise fun a b =>
        unitsLe (utf16 a) (utf16 b) = true := by
      intro texts
      apply List.pairwise_mergeSort
      · exact fun _ _ _ => unitsLe_trans
      · exact fun _ _ => unitsLe_total _ _
    exact hperm.eq_of_pairwise
      (fun a b _ _ hab hba => utf16_injective (unitsLe_antisymm hab hba))
      (hpairwise texts) (hpairwise texts')

/-! ## What is parsed -/

variable {platform : Platform}

theorem requireLiteral_ok {value : Option Json} {expected path : String} {u : Unit}
    (h : requireLiteral platform value expected path = .ok u) : value = some (.str expected) := by
  unfold requireLiteral at h
  split at h
  · rename_i heq
    exact heq
  · cases h

theorem requireDid_ok {value : Option Json} {path : String} {did : Did}
    (h : requireDid value path = .ok did) : value = some (.str did) := by
  unfold requireDid at h
  split at h
  · split at h
    · cases h
      rfl
    · cases h
  · cases h

theorem requireDids_ok {items : List Json} {index : Nat} {dids : List Did}
    (h : requireDids index items = .ok dids) : items = dids.map .str := by
  induction items generalizing index dids with
  | nil =>
    cases h
    rfl
  | cons item rest ih =>
    rw [requireDids] at h
    obtain ⟨did, hdid, h⟩ := Checks.bind_eq_ok.mp h
    obtain ⟨others, hothers, h⟩ := Checks.bind_eq_ok.mp h
    cases h
    have hitem := requireDid_ok hdid
    rw [List.map_cons, ← ih hothers, Option.some.inj hitem]

/-- What a parsed Delivery Envelope has of the members of the object. -/
structure ReadsFrom (members : List (String × Json)) (envelope : DeliveryEnvelope) : Prop where
  version : members.lookup "version" = some (.str "1")
  sender : members.lookup "sender" = some (.str envelope.sender)
  recipients : members.lookup "recipients" = some (.arr (envelope.recipients.map .str))
  unique : envelope.recipients.Nodup
  payload : members.lookup "payload" = some envelope.payload

theorem parseDeliveryEnvelope_reads {members : List (String × Json)} {envelope : DeliveryEnvelope}
    (h : parseDeliveryEnvelope platform (.obj members) = .ok envelope) :
    ReadsFrom members envelope := by
  unfold parseDeliveryEnvelope at h
  obtain ⟨object, hobject, h⟩ := Checks.bind_eq_ok.mp h
  obtain rfl : members = object := Except.ok.inj hobject
  obtain ⟨_, hversion, h⟩ := Checks.bind_eq_ok.mp h
  obtain ⟨_, -, h⟩ := Checks.bind_eq_ok.mp h
  obtain ⟨sender, hsender, h⟩ := Checks.bind_eq_ok.mp h
  have hrecipients : ∃ items dids, members.lookup "recipients" = some (.arr items) ∧
      requireDids 0 items = .ok dids ∧ dids.Nodup ∧ envelope.recipients = dids ∧
      envelope.sender = sender ∧ members.lookup "payload" = some envelope.payload := by
    dsimp only at h
    split at h
    case h_2 => exact absurd h Checks.error_bind_ne_ok
    rename_i first rest hitems
    obtain ⟨dids, hdids, h⟩ := Checks.bind_eq_ok.mp h
    by_cases hunique : dids.Nodup
    · refine ⟨first :: rest, dids, hitems, hdids, hunique, ?_⟩
      rw [if_neg (not_not.mpr hunique)] at h
      obtain ⟨createdAt, -, h⟩ := Checks.bind_eq_ok.mp h
      split at h
      all_goals
        obtain ⟨expiresAt, -, h⟩ := Checks.bind_eq_ok.mp h
        split at h
        · exact absurd h Checks.error_bind_ne_ok
        split at h
        all_goals
          obtain ⟨audience, -, h⟩ := Checks.bind_eq_ok.mp h
          split at h
          · cases h
          · rename_i payload hpayload
            obtain ⟨_, -, h⟩ := Checks.bind_eq_ok.mp h
            cases h
            exact ⟨rfl, rfl, hpayload⟩
    · rw [if_pos hunique] at h
      exact absurd h Checks.error_bind_ne_ok
  obtain ⟨items, dids, hitems, hdids, hunique, hsame, hsenderSame, hpayload⟩ := hrecipients
  refine ⟨requireLiteral_ok hversion, ?_, ?_, ?_, hpayload⟩
  · rw [hsenderSame]
    exact requireDid_ok hsender
  · rw [hitems, requireDids_ok hdids, hsame]
  · rw [hsame]
    exact hunique

/-! ## Layers -/

/-- The layers of a request: the request, and of a layer that is a Delivery Envelope
the payload. -/
inductive Layer (request : Json) : Json → Prop
  | outer : Layer request request
  | payload {members : List (String × Json)} {payload : Json} (h : Layer request (.obj members))
    (htype : members.lookup "type" = some (.str "DeliveryEnvelope"))
    (hpayload : members.lookup "payload" = some payload) : Layer request payload

/-- The layer is an object of a type that has a scope. -/
def Registered (layer : Json) : Prop :=
  ∃ members type, layer = .obj members ∧ members.lookup "type" = some (.str type) ∧
    (type = "DeliveryEnvelope" ∨ type ∈ requestTypes)

/-- A request without its key and its audience. -/
def significant (members : List (String × Json)) : List (String × Json) :=
  members.filter fun m => m.1 ≠ "idempotencyKey" ∧ m.1 ≠ "audience"

/-- The layers are of the same types. Those that are Delivery Envelopes have one
sender and one set of recipients, and the innermost ones are equal without their key
and their audience. -/
inductive SameRequest : Json → Json → Prop
  | envelope {members members' : List (String × Json)} {recipients recipients' : List Json}
    {payload payload' : Json} (htype : members.lookup "type" = some (.str "DeliveryEnvelope"))
    (htype' : members'.lookup "type" = some (.str "DeliveryEnvelope"))
    (hversion : members.lookup "version" = members'.lookup "version")
    (hsender : members.lookup "sender" = members'.lookup "sender")
    (hrecipients : members.lookup "recipients" = some (.arr recipients))
    (hrecipients' : members'.lookup "recipients" = some (.arr recipients'))
    (hset : ∀ recipient, recipient ∈ recipients ↔ recipient ∈ recipients')
    (hpayload : members.lookup "payload" = some payload)
    (hpayload' : members'.lookup "payload" = some payload')
    (h : SameRequest payload payload') : SameRequest (.obj members) (.obj members')
  | request {members members' : List (String × Json)} {type : String} (hmem : type ∈ requestTypes)
    (htype : members.lookup "type" = some (.str type))
    (htype' : members'.lookup "type" = some (.str type))
    (h : (Json.obj (significant members)).Equal (.obj (significant members'))) :
    SameRequest (.obj members) (.obj members')

/-! ## Projections -/

def envelopeProjection (envelope : DeliveryEnvelope) (payload : Json) : Json :=
  .obj [("version", .str "1"), ("type", .str "DeliveryEnvelope"),
    ("sender", .str envelope.sender),
    ("recipients", .arr ((sorted envelope.recipients).map .str)), ("payload", payload)]

/-- What a request is projected to, when it is. -/
inductive Projects : Json → Json → Prop
  | envelope {members : List (String × Json)} {envelope : DeliveryEnvelope} {projection : Json}
    (htype : members.lookup "type" = some (.str "DeliveryEnvelope"))
    (hreads : ReadsFrom members envelope) (h : Projects envelope.payload projection) :
    Projects (.obj members) (envelopeProjection envelope projection)
  | request {members : List (String × Json)} {type : String} (hmem : type ∈ requestTypes)
    (htype : members.lookup "type" = some (.str type)) :
    Projects (.obj members) (.obj (significant members))

theorem payloadProjection_ok {members : List (String × Json)} {path : String} {projection : Json}
    (h : payloadProjection platform path members = .ok projection) :
    ∃ payload, members.lookup "payload" = some payload ∧
      idempotencyProjection platform path payload = .ok projection := by
  induction members with
  | nil => cases h
  | cons member rest ih =>
    obtain ⟨key, value⟩ := member
    rw [payloadProjection] at h
    rw [List.lookup_cons]
    split at h
    · rename_i hkey
      subst hkey
      exact ⟨value, rfl, h⟩
    · rename_i hkey
      have hother : ("payload" == key) = false := by simpa using Ne.symm hkey
      rw [hother]
      exact ih h

theorem projects_of_ok : ∀ (request : Json) {path : String} {projection : Json},
    idempotencyProjection platform path request = .ok projection → Projects request projection
  | .obj members, path, projection, h => by
    rw [idempotencyProjection] at h
    split at h
    · rename_i htype
      obtain ⟨envelope, hparse, h⟩ := Checks.bind_eq_ok.mp h
      obtain ⟨payload, hpayload, h⟩ := Checks.bind_eq_ok.mp h
      cases h
      obtain ⟨value, hvalue, hprojection⟩ := payloadProjection_ok hpayload
      have hreads := parseDeliveryEnvelope_reads hparse
      have hsame : value = envelope.payload := by
        rw [hreads.payload] at hvalue
        exact (Option.some.inj hvalue).symm
      have hinner := projects_of_ok value hprojection
      rw [hsame] at hinner
      exact .envelope htype hreads hinner
    · split at h
      · rename_i hrequest
        obtain ⟨type, hmem, htype⟩ := List.any_eq_true.mp hrequest
        unfold requestProjection at h
        obtain ⟨_, -, h⟩ := Checks.bind_eq_ok.mp h
        cases h
        exact .request hmem (of_decide_eq_true htype)
      · cases h
  | .null, _, _, h => by simp [idempotencyProjection] at h
  | .bool _, _, _, h => by simp [idempotencyProjection] at h
  | .num _, _, _, h => by simp [idempotencyProjection] at h
  | .str _, _, _, h => by simp [idempotencyProjection] at h
  | .arr _, _, _, h => by simp [idempotencyProjection] at h
termination_by request => sizeOf request
decreasing_by exact sizeOf_lookup hvalue

theorem not_request_type {type : String} (h : type ∈ requestTypes) : type ≠ "DeliveryEnvelope" := by
  rintro rfl
  revert h
  decide

theorem significant_type (members : List (String × Json)) :
    (significant members).lookup "type" = members.lookup "type" := by
  induction members with
  | nil => rfl
  | cons member rest ih =>
    obtain ⟨key, value⟩ := member
    unfold significant at ih ⊢
    by_cases hkey : key = "idempotencyKey" ∨ key = "audience"
    · have hother : ("type" == key) = false := by
        rcases hkey with rfl | rfl <;> rfl
      rw [List.filter_cons_of_neg (by simpa [or_iff_not_imp_left] using hkey), ih,
        List.lookup_cons, hother]
    · rw [List.filter_cons_of_pos (by simpa [not_or] using hkey), List.lookup_cons, ih,
        List.lookup_cons]

/-! ## Equal projections -/

theorem envelopeProjection_equal {envelope envelope' : DeliveryEnvelope} {payload payload' : Json} :
    (envelopeProjection envelope payload).Equal (envelopeProjection envelope' payload') ↔
      envelope.sender = envelope'.sender ∧
        sorted envelope.recipients = sorted envelope'.recipients ∧ payload.Equal payload' := by
  constructor
  · intro h
    have hsender : Option.Rel Json.Equal (some (.str envelope.sender))
        (some (.str envelope'.sender)) := equal_member h "sender"
    have hrecipients : Option.Rel Json.Equal
        (some (.arr ((sorted envelope.recipients).map .str)))
        (some (.arr ((sorted envelope'.recipients).map .str))) := equal_member h "recipients"
    have hpayload : Option.Rel Json.Equal (some payload) (some payload') :=
      equal_member h "payload"
    refine ⟨?_, ?_, ?_⟩
    · cases hsender with
      | some hsender => exact equal_str.mp hsender
    · cases hrecipients with
      | some hrecipients => exact equal_strs.mp hrecipients
    · cases hpayload with
      | some hpayload => exact hpayload
  · rintro ⟨hsender, hrecipients, hpayload⟩
    exact equal_cons (.str _) (equal_cons (.str _) (equal_cons (equal_str.mpr hsender)
      (equal_cons (equal_strs.mpr hrecipients) (equal_cons hpayload (equal_refl _)))))

/-- An envelope and a request are projected to objects of different types. -/
theorem envelope_ne_request {envelope : DeliveryEnvelope} {payload : Json}
    {members : List (String × Json)} {type : String} (hmem : type ∈ requestTypes)
    (htype : members.lookup "type" = some (.str type)) :
    ¬(envelopeProjection envelope payload).Equal (.obj (significant members)) ∧
      ¬(Json.obj (significant members)).Equal (envelopeProjection envelope payload) := by
  have hne := not_request_type hmem
  constructor
  · intro h
    have htypes : Option.Rel Json.Equal (some (.str "DeliveryEnvelope"))
        ((significant members).lookup "type") := equal_member h "type"
    rw [significant_type, htype] at htypes
    cases htypes with
    | some htypes => exact hne (equal_str.mp htypes).symm
  · intro h
    have htypes : Option.Rel Json.Equal ((significant members).lookup "type")
        (some (.str "DeliveryEnvelope")) := equal_member h "type"
    rw [significant_type, htype] at htypes
    cases htypes with
    | some htypes => exact hne (equal_str.mp htypes)

theorem mem_strs {texts : List String} {text : String} :
    Json.str text ∈ texts.map Json.str ↔ text ∈ texts := by
  simp

theorem sameRecipients_iff {recipients recipients' : List Did} :
    (∀ did, did ∈ recipients ↔ did ∈ recipients') ↔
      ∀ value, value ∈ recipients.map Json.str ↔ value ∈ recipients'.map Json.str := by
  constructor
  · intro h value
    simp only [List.mem_map, h]
  · intro h did
    rw [← mem_strs, h, mem_strs]

/-- **Projections.** They are equal exactly if the requests are the same. -/
theorem projects_equal_iff {request request' projection projection' : Json}
    (h : Projects request projection) (h' : Projects request' projection') :
    projection.Equal projection' ↔ SameRequest request request' := by
  induction h generalizing request' projection' with
  | @envelope members envelope projection htype hreads _ ih =>
    cases h' with
    | @envelope members' envelope' projection' htype' hreads' hpayload' =>
      rw [envelopeProjection_equal, ih hpayload', sorted_eq_iff hreads.unique hreads'.unique,
        sameRecipients_iff]
      constructor
      · rintro ⟨hsender, hset, hpayload⟩
        exact .envelope htype htype' (by rw [hreads.version, hreads'.version])
          (by rw [hreads.sender, hreads'.sender, hsender]) hreads.recipients hreads'.recipients
          hset hreads.payload hreads'.payload hpayload
      · intro hsame
        cases hsame with
        | envelope _ _ _ hsender hrecipients hrecipients' hset hpayload hpayload' h =>
          rw [hreads.sender, hreads'.sender] at hsender
          rw [hreads.recipients] at hrecipients
          rw [hreads'.recipients] at hrecipients'
          rw [hreads.payload] at hpayload
          rw [hreads'.payload] at hpayload'
          cases hrecipients
          cases hrecipients'
          cases hpayload
          cases hpayload'
          exact ⟨Json.str.inj (Option.some.inj hsender), hset, h⟩
        | request hmem htypeRequest =>
          rw [htype] at htypeRequest
          cases htypeRequest
          exact absurd rfl (not_request_type hmem)
    | request hmem htype' =>
      refine ⟨fun hequal => absurd hequal (envelope_ne_request hmem htype').1, fun hsame => ?_⟩
      cases hsame with
      | envelope _ htype'' =>
        rw [htype'] at htype''
        cases htype''
        exact absurd rfl (not_request_type hmem)
      | request hmem' htypeRequest =>
        rw [htype] at htypeRequest
        cases htypeRequest
        exact absurd rfl (not_request_type hmem')
  | @request members type hmem htype =>
    cases h' with
    | envelope htype' =>
      refine ⟨fun hequal => absurd hequal (envelope_ne_request hmem htype).2, fun hsame => ?_⟩
      cases hsame with
      | envelope htype'' =>
        rw [htype] at htype''
        cases htype''
        exact absurd rfl (not_request_type hmem)
      | request hmem' _ htypeRequest =>
        rw [htype'] at htypeRequest
        cases htypeRequest
        exact absurd rfl (not_request_type hmem')
    | @request members' type' hmem' htype' =>
      constructor
      · intro hequal
        have htypes := equal_member hequal "type"
        rw [significant_type, significant_type, htype, htype'] at htypes
        cases htypes with
        | some htypes =>
          obtain rfl := equal_str.mp htypes
          exact .request hmem htype htype' hequal
      · intro hsame
        cases hsame with
        | envelope htype'' =>
          rw [htype] at htype''
          cases htype''
          exact absurd rfl (not_request_type hmem)
        | request _ _ _ hequal => exact hequal

theorem layer_projects {request layer projection : Json} (h : Projects request projection)
    (hlayer : Layer request layer) : ∃ inner, Projects layer inner := by
  induction hlayer with
  | outer => exact ⟨projection, h⟩
  | payload _ htype hpayload ih =>
    obtain ⟨inner, hinner⟩ := ih
    cases hinner with
    | envelope _ hreads hinner =>
      rw [hreads.payload] at hpayload
      cases hpayload
      exact ⟨_, hinner⟩
    | request hmem htypeRequest =>
      rw [htype] at htypeRequest
      cases htypeRequest
      exact absurd rfl (not_request_type hmem)

theorem registered_of_projects {layer projection : Json} (h : Projects layer projection) :
    Registered layer := by
  cases h with
  | envelope htype => exact ⟨_, _, rfl, htype, .inl rfl⟩
  | request hmem htype => exact ⟨_, _, rfl, htype, .inr hmem⟩

/-- **Fingerprints** are equal exactly for the same requests, where the hash tells
the two projections apart if they are not equal and only then; and a request with a
layer of a type without a scope has none. -/
theorem fingerprints_identify (platform : Platform) :
    (∀ request request' fingerprint fingerprint',
      computeIdempotencyFingerprint platform request = .ok fingerprint →
      computeIdempotencyFingerprint platform request' = .ok fingerprint' →
      (∀ projection projection', idempotencyProjection platform "$" request = .ok projection →
        idempotencyProjection platform "$" request' = .ok projection' →
        ((platform.computeJsonHash projection).value =
          (platform.computeJsonHash projection').value ↔ projection.Equal projection')) →
      (fingerprint = fingerprint' ↔ SameRequest request request')) ∧
    ∀ request layer, Layer request layer → ¬Registered layer →
      ∃ error, computeIdempotencyFingerprint platform request = .error error := by
  constructor
  · intro request request' fingerprint fingerprint' h h' hhash
    obtain ⟨projection, hprojection, heq⟩ := Checks.bind_eq_ok.mp h
    obtain ⟨projection', hprojection', heq'⟩ := Checks.bind_eq_ok.mp h'
    cases heq
    cases heq'
    rw [hhash projection projection' hprojection hprojection']
    exact projects_equal_iff (projects_of_ok request hprojection)
      (projects_of_ok request' hprojection')
  · intro request layer hlayer hunregistered
    cases hresult : computeIdempotencyFingerprint platform request with
    | error error => exact ⟨error, rfl⟩
    | ok fingerprint =>
      obtain ⟨projection, hprojection, -⟩ := Checks.bind_eq_ok.mp hresult
      obtain ⟨inner, hinner⟩ := layer_projects (projects_of_ok request hprojection) hlayer
      exact absurd (registered_of_projects hinner) hunregistered

/-! ## A retry -/

def retryEnvelope (recipients : List Json) (createdAt : Timestamp) (payload : Json) : Json :=
  .obj [("version", .str "1"), ("type", .str "DeliveryEnvelope"), ("sender", .str "did:web:p"),
    ("recipients", .arr recipients), ("createdAt", .str createdAt), ("payload", payload)]

def firstTry : Json :=
  retryEnvelope [.str "did:web:b", .str "did:web:a"] "2025-01-01T00:00:00.000Z"
    (.obj [("type", .str "ActionRequest"), ("idempotencyKey", .str "k1")])

/-- It is sent again, with another key. -/
def secondTry : Json :=
  retryEnvelope [.str "did:web:a", .str "did:web:b"] "2025-01-01T00:01:00.000Z"
    (.obj [("idempotencyKey", .str "k2"), ("type", .str "ActionRequest")])

def retryPlatform : Platform where
  computeJsonHash := fun _ => ⟨"sha-256", "pCiqPsfJ9k9_w6iJG_KYZFrxNI6UeVkpz4VZWX7x4GE"⟩
  dateParse := fun text =>
    if text = "2025-01-01T00:00:00.000Z" then some 1735689600000
    else if text = "2025-01-01T00:01:00.000Z" then some 1735689660000 else none
  urlOrigin := fun _ => none
  stringify := fun _ => ""

/-- The two tries have a fingerprint and are one request, and a response in an envelope has
none. -/
theorem fingerprints_identify_retry :
    computeIdempotencyFingerprint retryPlatform firstTry =
        .ok "pCiqPsfJ9k9_w6iJG_KYZFrxNI6UeVkpz4VZWX7x4GE" ∧
      computeIdempotencyFingerprint retryPlatform secondTry =
        .ok "pCiqPsfJ9k9_w6iJG_KYZFrxNI6UeVkpz4VZWX7x4GE" ∧
      SameRequest firstTry secondTry ∧ ∃ error, computeIdempotencyFingerprint retryPlatform
        (retryEnvelope [.str "did:web:a"] "2025-01-01T00:00:00.000Z"
          (.obj [("type", .str "ActionResponse")])) = .error error := by
  have hfirst : idempotencyProjection retryPlatform "$" firstTry = .ok (envelopeProjection
      ⟨"did:web:p", ["did:web:b", "did:web:a"], "", .null, none, none⟩
      (.obj [("type", .str "ActionRequest")])) := by rfl
  have hsecond : idempotencyProjection retryPlatform "$" secondTry = .ok (envelopeProjection
      ⟨"did:web:p", ["did:web:a", "did:web:b"], "", .null, none, none⟩
      (.obj [("type", .str "ActionRequest")])) := by rfl
  have hprint : computeIdempotencyFingerprint retryPlatform firstTry =
      .ok "pCiqPsfJ9k9_w6iJG_KYZFrxNI6UeVkpz4VZWX7x4GE" := by
    rw [computeIdempotencyFingerprint, hfirst]
    rfl
  have hprint' : computeIdempotencyFingerprint retryPlatform secondTry =
      .ok "pCiqPsfJ9k9_w6iJG_KYZFrxNI6UeVkpz4VZWX7x4GE" := by
    rw [computeIdempotencyFingerprint, hsecond]
    rfl
  refine ⟨hprint, hprint', ((fingerprints_identify retryPlatform).1 firstTry secondTry _ _
    hprint hprint' ?_).mp rfl, (fingerprints_identify retryPlatform).2 _
      (.obj [("type", .str "ActionResponse")]) (.payload .outer rfl rfl) ?_⟩
  · intro projection projection' hprojection hprojection'
    rw [hfirst] at hprojection
    rw [hsecond] at hprojection'
    cases hprojection
    cases hprojection'
    have hset : sorted ["did:web:b", "did:web:a"] = sorted ["did:web:a", "did:web:b"] :=
      (sorted_eq_iff (by decide) (by decide)).mpr fun text => by simp [or_comm]
    exact ⟨fun _ => envelopeProjection_equal.mpr ⟨rfl, hset, equal_refl _⟩, fun _ => rfl⟩
  · rintro ⟨members, type, hmembers, htype, hregistered⟩
    cases hmembers
    cases htype
    revert hregistered
    decide

end Routing

end Mpas
