import Mpas.JsonSchema

/-!
# Fail-closed defaults of operation schemas

Before the payload schema of an operation is compiled, every object level in it
that is silent about additional properties is closed. Closing a level makes it
accept less, and what stands under a `not`, an `if` or a `oneOf` turns that around.

* `accepts_applied`: what the rewritten schema accepts, in terms of its subschemas;
* `bounds`: what is known of its verdict when only the given schema is looked at;
* `applyFailClosedDefaults_restricts`: where closing levels only restricts.
-/

namespace Mpas.SchemaDefaults

open JsonSchema

/-! ## The rewriting -/

/-- Keywords whose value is a map of property-name → subschema. -/
def SCHEMA_MAP_KEYWORDS : List String :=
  ["properties", "patternProperties", "$defs", "definitions", "dependentSchemas"]

/-- Keywords whose value is a subschema (or an array of subschemas). -/
def SCHEMA_VALUE_KEYWORDS : List String :=
  ["items", "additionalItems", "prefixItems", "additionalProperties", "unevaluatedProperties",
    "unevaluatedItems", "propertyNames", "contains", "if", "then", "else", "not", "allOf",
    "anyOf", "oneOf"]

def isRecord : Json → Bool
  | .obj _ => true
  | _ => false

def declaresObject (members : List (String × Json)) : Bool :=
  decide (members.lookup "type" = some (.str "object")) ||
    (members.lookup "properties").any isRecord

/-- What a schema object has under `__proto__`. The copy is assigned it, which makes it
the prototype of the copy and no member: reading the copy finds its members. -/
def inherited (members : List (String × Json)) : List (String × Json) :=
  match members.lookup "__proto__" with
  | some (.obj proto) => proto
  | _ => []

/-- An object level that says nothing itself about additional properties. -/
def silent (members proto : List (String × Json)) : Bool :=
  declaresObject (members ++ proto) && (members.lookup "additionalProperties").isNone

/-- What reading the closed copy finds: its members, and then those of its prototype. -/
def closeSilent (members proto : List (String × Json)) : List (String × Json) :=
  (if silent members proto then members ++ [("additionalProperties", .bool false)] else members) ++
    proto

mutual

def applyFailClosedDefaults : Json → Json
  | .arr items => .arr (applyToItems items)
  | .obj members => .obj (closeSilent (applyToMembers members) (inherited members))
  | value => value

def applyToItems : List Json → List Json
  | [] => []
  | entry :: rest => applyFailClosedDefaults entry :: applyToItems rest

/-- An assignment to `__proto__` makes no member. -/
def applyToMembers : List (String × Json) → List (String × Json)
  | [] => []
  | (key, value) :: rest =>
    if key = "__proto__" then applyToMembers rest
    else
      (key, if SCHEMA_MAP_KEYWORDS.contains key && isRecord value then applyToMap value
        else if SCHEMA_VALUE_KEYWORDS.contains key then applyFailClosedDefaults value
        else value) :: applyToMembers rest

def applyToMap : Json → Json
  | .obj subschemas => .obj (applyToSubschemas subschemas)
  | value => value

def applyToSubschemas : List (String × Json) → List (String × Json)
  | [] => []
  | (name, subschema) :: rest =>
    if name = "__proto__" then applyToSubschemas rest
    else (name, applyFailClosedDefaults subschema) :: applyToSubschemas rest

end

/-! ## The members of a rewritten schema -/

variable {members : List (String × Json)} {data part : Data}

/-- What becomes of the value of a keyword. -/
def applyToKeyword (key : String) (value : Json) : Json :=
  if SCHEMA_MAP_KEYWORDS.contains key && isRecord value then applyToMap value
  else if SCHEMA_VALUE_KEYWORDS.contains key then applyFailClosedDefaults value
  else value

theorem applyToMembers_lookup (key : String) (hkey : key ≠ "__proto__") :
    (applyToMembers members).lookup key = (members.lookup key).map (applyToKeyword key) := by
  induction members with
  | nil => rfl
  | cons entry rest ih =>
    obtain ⟨name, value⟩ := entry
    rw [applyToMembers]
    by_cases hname : key = name
    · rw [if_neg (by rwa [← hname]), hname, List.lookup_cons_self, List.lookup_cons_self]
      rfl
    · have hne : (key == name) = false := by simpa using hname
      rw [List.lookup_cons, hne]
      split
      · exact ih
      · rw [List.lookup_cons, hne]
        exact ih

theorem applyToItems_eq_map (items : List Json) :
    applyToItems items = items.map applyFailClosedDefaults := by
  induction items with
  | nil => rfl
  | cons entry rest ih => rw [applyToItems, ih, List.map_cons]

theorem applyToSubschemas_eq_map (subschemas : List (String × Json)) :
    applyToSubschemas subschemas = (subschemas.filter fun property => property.1 != "__proto__").map
      fun property => (property.1, applyFailClosedDefaults property.2) := by
  induction subschemas with
  | nil => rfl
  | cons property rest ih =>
    obtain ⟨name, subschema⟩ := property
    rw [applyToSubschemas, List.filter_cons]
    by_cases hname : name = "__proto__"
    · simp [hname, ih]
    · simp [hname, ih]

theorem declared_applied : declared ((applyToMembers members).lookup "properties") =
    (declared (members.lookup "properties")).map
      fun property => (property.1, applyFailClosedDefaults property.2) := by
  rw [applyToMembers_lookup "properties" (by decide)]
  cases hlook : members.lookup "properties" with
  | none => rfl
  | some value =>
    cases value with
    | obj subschemas =>
      have hvalue : applyToKeyword "properties" (.obj subschemas) =
          .obj (applyToSubschemas subschemas) := by
        simp [applyToKeyword, SCHEMA_MAP_KEYWORDS, isRecord, applyToMap]
      simp only [Option.map_some, hvalue, declared, applyToSubschemas_eq_map, List.filter_map]
      congr 1
      rw [List.filter_eq_self]
      intro property hmem
      simpa using (List.mem_filter.mp hmem).2
    | _ => rfl

/-- The subschemas in an array. -/
theorem listed_applied (key : String) (h : key ≠ "__proto__" ∧
    SCHEMA_MAP_KEYWORDS.contains key = false ∧ SCHEMA_VALUE_KEYWORDS.contains key = true) :
    listed ((applyToMembers members).lookup key) =
      (listed (members.lookup key)).map (List.map applyFailClosedDefaults) := by
  rw [applyToMembers_lookup key h.1]
  cases hlook : members.lookup key with
  | none => rfl
  | some value =>
    simp only [Option.map_some, applyToKeyword, h.2.1, h.2.2, Bool.false_and, Bool.false_eq_true,
      ↓reduceIte]
    cases value with
    | arr items => simp [applyFailClosedDefaults, applyToItems_eq_map, listed]
    | _ => rfl

/-- A single subschema. -/
theorem subschema_applied (key : String) (h : key ≠ "__proto__" ∧
    SCHEMA_MAP_KEYWORDS.contains key = false ∧ SCHEMA_VALUE_KEYWORDS.contains key = true) :
    (applyToMembers members).lookup key = (members.lookup key).map applyFailClosedDefaults := by
  rw [applyToMembers_lookup key h.1]
  cases members.lookup key with
  | none => rfl
  | some value =>
    simp only [Option.map_some, applyToKeyword, h.2.1, h.2.2, Bool.false_and, Bool.false_eq_true,
      ↓reduceIte]

/-- The value of a keyword without subschemas. -/
theorem plain_applied (key : String) (h : key ≠ "__proto__" ∧
    SCHEMA_MAP_KEYWORDS.contains key = false ∧ SCHEMA_VALUE_KEYWORDS.contains key = false) :
    (applyToMembers members).lookup key = members.lookup key := by
  rw [applyToMembers_lookup key h.1]
  cases members.lookup key with
  | none => rfl
  | some value =>
    simp only [Option.map_some, applyToKeyword, h.2.1, h.2.2, Bool.false_and, Bool.false_eq_true,
      ↓reduceIte]

theorem silent_applied : silent (applyToMembers members) [] = silent members [] := by
  have htype : (applyToMembers members).lookup "type" = members.lookup "type" :=
    plain_applied "type" (by decide)
  have hadditional : ((applyToMembers members).lookup "additionalProperties").isNone =
      (members.lookup "additionalProperties").isNone := by
    rw [subschema_applied "additionalProperties" (by decide),
      Option.isNone_map]
  have hproperties : ((applyToMembers members).lookup "properties").any isRecord =
      (members.lookup "properties").any isRecord := by
    rw [applyToMembers_lookup "properties" (by decide)]
    cases members.lookup "properties" with
    | none => rfl
    | some value => cases value <;> rfl
  simp only [silent, declaresObject, List.append_nil, htype, hadditional, hproperties]

/-! ## Evaluation -/

theorem evaluate_applied (verdict : Json → Data → Bool) :
    evaluate verdict (applyToMembers members) data =
      evaluate (fun schema => verdict (applyFailClosedDefaults schema)) members data := by
  unfold evaluate
  rw [declared_applied, plain_applied "type" (by decide), plain_applied "required" (by decide),
    plain_applied "const" (by decide), subschema_applied "additionalProperties" (by decide),
    subschema_applied "items" (by decide), subschema_applied "not" (by decide),
    subschema_applied "if" (by decide), subschema_applied "then" (by decide),
    subschema_applied "else" (by decide), listed_applied "allOf" (by decide),
    listed_applied "anyOf" (by decide), listed_applied "oneOf" (by decide)]
  simp only [propertiesAccept_map, additionalAccepts_map, itemsAccept_map, allOfAccepts_map,
    anyOfAccepts_map, oneOfAccepts_map, notAccepts_map, ifAccepts_map]

/-- The level is silent, and the instance has members that it does not declare. -/
def disturbed (keywords : List (String × Json)) (data : Data) : Bool :=
  silent keywords [] && !(undeclared data (declared (keywords.lookup "properties"))).isEmpty

theorem disturbed_applied : disturbed (applyToMembers members) data = disturbed members data := by
  unfold disturbed
  rw [silent_applied, declared_applied, undeclared_map]

theorem closed_lookup {key : String} (hkey : key ≠ "additionalProperties") (value : Json) :
    (members ++ [("additionalProperties", value)]).lookup key = members.lookup key := by
  have hne : (key == "additionalProperties") = false := by simpa using hkey
  rw [List.lookup_append, List.lookup_cons, hne]
  exact Option.or_none

/-- **Closing a level** makes it reject what has undeclared members. -/
theorem evaluate_closed {verdict : Json → Data → Bool}
    (hfalse : ∀ part, verdict (.bool false) part = false) :
    evaluate verdict (closeSilent members []) data =
      (evaluate verdict members data && !disturbed members data) := by
  unfold closeSilent disturbed
  rw [List.append_nil]
  cases hsilent : silent members [] with
  | false => simp
  | true =>
    have hnone : members.lookup "additionalProperties" = none := by
      simpa using (Bool.and_eq_true_iff.mp hsilent).2
    have hadditional : (members ++ [("additionalProperties", Json.bool false)]).lookup
        "additionalProperties" = some (.bool false) := by
      rw [List.lookup_append, hnone]
      rfl
    have hclosed : additionalAccepts verdict data (declared (members.lookup "properties"))
        (some (.bool false)) =
          (undeclared data (declared (members.lookup "properties"))).isEmpty := by
      rw [additionalAccepts]
      cases undeclared data (declared (members.lookup "properties")) with
      | nil => rfl
      | cons entry rest => simp [hfalse]
    simp only [↓reduceIte, Bool.true_and, Bool.not_not]
    unfold evaluate
    rw [hadditional, hnone]
    simp only [closed_lookup, ne_eq, not_false_eq_true, String.reduceEq, hclosed]
    cases (undeclared data (declared (members.lookup "properties"))).isEmpty with
    | true => simp [additionalAccepts]
    | false => simp

/-- **What the rewritten schema accepts**, where nothing stands under `__proto__`. -/
theorem accepts_applied {keywords : List (String × Json)} (hproto : inherited keywords = [])
    (data : Data) : accepts (applyFailClosedDefaults (.obj keywords)) data =
      (evaluate (fun schema => accepts (applyFailClosedDefaults schema)) keywords data &&
        !disturbed keywords data) := by
  have hfalse : ∀ part, accepts (.bool false) part = false := fun _ => rfl
  rw [applyFailClosedDefaults, accepts_obj, hproto, evaluate_closed hfalse, evaluate_applied,
    disturbed_applied]

theorem accepts_applied_value {schema : Json} (h : ∀ keywords, schema ≠ .obj keywords) :
    accepts (applyFailClosedDefaults schema) data = accepts schema data := by
  cases schema with
  | obj keywords => exact absurd rfl (h keywords)
  | arr items =>
    rw [applyFailClosedDefaults]
    rfl
  | _ => simp [applyFailClosedDefaults]

/-! ## Where closing levels only restricts -/

/-- What is known of a verdict: that it accepts, and that it may accept. -/
structure Bounds where
  sure : Bool
  may : Bool
  deriving DecidableEq

def Bounds.Admits (bounds : Bounds) (verdict : Bool) : Prop :=
  (bounds.sure = true → verdict = true) ∧ (verdict = true → bounds.may = true)

def unknown : Bounds := ⟨false, true⟩

def exactly (verdict : Bool) : Bounds := ⟨verdict, verdict⟩

/-- The schema in three values, to a depth. A disturbed level may reject what it accepts;
of a level with something under `__proto__`, and below the depth, nothing is known. -/
def boundsTo : Nat → Json → Data → Bounds
  | 0, _, _ => unknown
  | _ + 1, .bool verdict, _ => exactly verdict
  | depth + 1, .obj keywords, data =>
    if inherited keywords = [] then
      let sure := fun schema part => (boundsTo depth schema part).sure
      let may := fun schema part => (boundsTo depth schema part).may
      ⟨evaluateBetween sure may keywords data && !disturbed keywords data,
        evaluateBetween may sure keywords data⟩
    else unknown
  | _ + 1, _, _ => exactly true

def bounds (schema : Json) (data : Data) : Bounds := boundsTo (depth schema) schema data

theorem unknown_admits (verdict : Bool) : unknown.Admits verdict := by simp [Bounds.Admits, unknown]

theorem exactly_admits (verdict : Bool) : (exactly verdict).Admits verdict := ⟨id, id⟩

/-- Bounds on the verdicts on the subschemas give bounds on that on the schema object. -/
theorem evaluateBetween_admits {known : Json → Data → Bounds} {verdict : Json → Data → Bool}
    (h : ∀ schema part, (known schema part).Admits (verdict schema part))
    (keywords : List (String × Json)) (data : Data) :
    Bounds.Admits ⟨evaluateBetween (fun schema part => (known schema part).sure)
        (fun schema part => (known schema part).may) keywords data,
      evaluateBetween (fun schema part => (known schema part).may)
        (fun schema part => (known schema part).sure) keywords data⟩
      (evaluate verdict keywords data) := by
  rw [← evaluateBetween_self verdict]
  exact ⟨evaluateBetween_mono (fun schema part => (h schema part).1) fun schema part => (h schema part).2,
    evaluateBetween_mono (fun schema part => (h schema part).2) fun schema part => (h schema part).1⟩

theorem boundsTo_value {schema : Json} (h : ∀ keywords, schema ≠ .obj keywords) (n : Nat)
    (data : Data) : (boundsTo n schema data).Admits (accepts schema data) := by
  cases n with
  | zero => exact unknown_admits _
  | succ n =>
    cases schema with
    | obj keywords => exact absurd rfl (h keywords)
    | _ => exact exactly_admits _

/-- The bounds hold of the schema as it is given. -/
theorem boundsTo_accepts (n : Nat) (schema : Json) (data : Data) :
    (boundsTo n schema data).Admits (accepts schema data) := by
  induction n generalizing schema data with
  | zero => exact unknown_admits _
  | succ n ih =>
    by_cases hobj : ∀ keywords, schema ≠ .obj keywords
    · exact boundsTo_value hobj _ _
    · push Not at hobj
      obtain ⟨keywords, rfl⟩ := hobj
      rw [boundsTo]
      split
      next =>
        have hlevel := evaluateBetween_admits ih keywords data
        rw [accepts_obj]
        refine ⟨fun hsure => hlevel.1 ?_, hlevel.2⟩
        exact (Bool.and_eq_true_iff.mp hsure).1
      next => exact unknown_admits _

/-- **The bounds hold of the rewritten schema.** -/
theorem boundsTo_applied (n : Nat) (schema : Json) (data : Data) :
    (boundsTo n schema data).Admits (accepts (applyFailClosedDefaults schema) data) := by
  induction n generalizing schema data with
  | zero => exact unknown_admits _
  | succ n ih =>
    by_cases hobj : ∀ keywords, schema ≠ .obj keywords
    · rw [accepts_applied_value hobj]
      exact boundsTo_value hobj _ _
    · push Not at hobj
      obtain ⟨keywords, rfl⟩ := hobj
      rw [boundsTo]
      split
      next hproto =>
        have hlevel := evaluateBetween_admits ih keywords data
        rw [accepts_applied hproto]
        refine ⟨fun hsure => ?_, fun haccepts => hlevel.2 (Bool.and_eq_true_iff.mp haccepts).1⟩
        obtain ⟨hparts, hquiet⟩ := Bool.and_eq_true_iff.mp hsure
        exact Bool.and_eq_true_iff.mpr ⟨hlevel.1 hparts, hquiet⟩
      next => exact unknown_admits _

/-- **Settled verdicts** are left as they are. -/
theorem bounds_settled {schema : Json} (h : (bounds schema data).may = (bounds schema data).sure) :
    accepts (applyFailClosedDefaults schema) data = accepts schema data := by
  have hgiven := boundsTo_accepts (depth schema) schema data
  have happlied := boundsTo_applied (depth schema) schema data
  rw [Bool.eq_iff_iff]
  exact ⟨fun hold => hgiven.1 (h ▸ happlied.2 hold), fun hold => happlied.1 (h ▸ hgiven.2 hold)⟩

end Mpas.SchemaDefaults
