import Mpas.Json

/-!
# JSON Schema

The part of JSON Schema 2020-12 that has no names in it, as Ajv evaluates it.
Other keywords, and values of other shapes, are ignored.

* `evaluate`: what the keywords of one schema object make of the verdicts on the
  places where its subschemas apply;
* `accepts_obj`: the verdict on a schema object is what it makes of their verdicts;
* `Applies`: those places, and which of them a larger verdict can turn around;
* `evaluateBetween`: what is known of the verdict when its parts are known in bounds.
-/

namespace Mpas.JsonSchema

/-! ## Instances -/

/-- What a property of an instance evaluates to. -/
inductive Data
  | json (value : Json)
  /-- a function, which every object inherits under some names -/
  | function
  deriving DecidableEq

/-- The names for which an object has a value that is not its own. -/
def inheritedNames : List String :=
  ["constructor", "__defineGetter__", "__defineSetter__", "hasOwnProperty", "__lookupGetter__",
    "__lookupSetter__", "isPrototypeOf", "propertyIsEnumerable", "toString", "valueOf",
    "__proto__", "toLocaleString"]

/-- `data[name]`, if it is not `undefined`. -/
def Data.get (name : String) : Data → Option Data
  | .json (.obj members) =>
    match members.lookup name with
    | some value => some (.json value)
    | none => if inheritedNames.contains name then some .function else none
  | _ => none

def Data.members : Data → List (String × Json)
  | .json (.obj members) => members
  | _ => []

def Data.items : Data → List Data
  | .json (.arr items) => items.map .json
  | _ => []

def Data.isObject : Data → Bool
  | .json (.obj _) => true
  | _ => false

def hasType : Data → String → Bool
  | .json .null, name => name == "null"
  | .json (.bool _), name => name == "boolean"
  | .json (.num n), name => name == "number" && n.isFinite || name == "integer" && n.isInteger
  | .json (.str _), name => name == "string"
  | .json (.arr _), name => name == "array"
  | .json (.obj _), name => name == "object"
  | .function, _ => false

mutual

/-- Equal values; the members of objects in any order. -/
def deepEquals : Json → Json → Bool
  | .null, .null => true
  | .bool a, .bool b => a == b
  | .num a, .num b => decide (a = b)
  | .str a, .str b => a == b
  | .arr xs, .arr ys => equalItems xs ys
  | .obj ms, .obj ns => ms.length == ns.length && equalMembers ms ns
  | _, _ => false

def equalItems : List Json → List Json → Bool
  | [], [] => true
  | x :: xs, y :: ys => deepEquals x y && equalItems xs ys
  | _, _ => false

def equalMembers : List (String × Json) → List (String × Json) → Bool
  | [], _ => true
  | (key, value) :: rest, ns =>
    (match ns.lookup key with
      | some other => deepEquals value other
      | none => false) && equalMembers rest ns

end

/-! ## Keywords -/

/-- The subschemas of an array. -/
def listed : Option Json → Option (List Json)
  | some (.arr subschemas) => some subschemas
  | _ => none

/-- The subschemas under `properties`; Ajv leaves out `__proto__`. -/
def declared : Option Json → List (String × Json)
  | some (.obj properties) => properties.filter fun property => property.1 != "__proto__"
  | _ => []

def typeAccepts (data : Data) : Option Json → Bool
  | some (.str name) => hasType data name
  | some (.arr names) => names.any fun name => match name with
    | .str name => hasType data name
    | _ => false
  | _ => true

def requiredAccepts (data : Data) : Option Json → Bool
  | some (.arr names) => !data.isObject || names.all fun name => match name with
    | .str name => (data.get name).isSome
    | _ => true
  | _ => true

def constAccepts (data : Data) : Option Json → Bool
  | some value => match data with
    | .json other => deepEquals value other
    | .function => false
  | none => true

section

variable (verdict : Json → Data → Bool)

def propertiesAccept (data : Data) (properties : List (String × Json)) : Bool :=
  properties.all fun property => (data.get property.1).all (verdict property.2)

/-- The members of the instance that are not declared. -/
def undeclared (data : Data) (properties : List (String × Json)) : List (String × Json) :=
  data.members.filter fun entry => !(properties.map Prod.fst).contains entry.1

def additionalAccepts (data : Data) (properties : List (String × Json)) : Option Json → Bool
  | some subschema =>
    (undeclared data properties).all fun entry => verdict subschema (.json entry.2)
  | none => true

def itemsAccept (data : Data) : Option Json → Bool
  | some subschema => data.items.all (verdict subschema)
  | none => true

def allOfAccepts (data : Data) : Option (List Json) → Bool
  | some subschemas => subschemas.all fun subschema => verdict subschema data
  | none => true

def anyOfAccepts (data : Data) : Option (List Json) → Bool
  | some subschemas => subschemas.any fun subschema => verdict subschema data
  | none => true

def oneOfAccepts (data : Data) : Option (List Json) → Bool
  | some subschemas => (subschemas.countP fun subschema => verdict subschema data) == 1
  | none => true

def notAccepts (data : Data) : Option Json → Bool
  | some subschema => !verdict subschema data
  | none => true

/-- An `if` without branches is not evaluated. -/
def ifAccepts (data : Data) : Option Json → Option Json → Option Json → Bool
  | some condition, thenBranch, elseBranch =>
    if thenBranch.isSome || elseBranch.isSome then
      if verdict condition data then thenBranch.all fun subschema => verdict subschema data
      else elseBranch.all fun subschema => verdict subschema data
    else true
  | none, _, _ => true

def evaluate (keywords : List (String × Json)) (data : Data) : Bool :=
  let properties := declared (keywords.lookup "properties")
  typeAccepts data (keywords.lookup "type") &&
    requiredAccepts data (keywords.lookup "required") &&
    constAccepts data (keywords.lookup "const") &&
    propertiesAccept verdict data properties &&
    additionalAccepts verdict data properties (keywords.lookup "additionalProperties") &&
    itemsAccept verdict data (keywords.lookup "items") &&
    allOfAccepts verdict data (listed (keywords.lookup "allOf")) &&
    anyOfAccepts verdict data (listed (keywords.lookup "anyOf")) &&
    oneOfAccepts verdict data (listed (keywords.lookup "oneOf")) &&
    notAccepts verdict data (keywords.lookup "not") &&
    ifAccepts verdict data (keywords.lookup "if") (keywords.lookup "then") (keywords.lookup "else")

end

/-- The verdict, to a depth. -/
def acceptsTo : Nat → Json → Data → Bool
  | 0, _, _ => true
  | _ + 1, .bool b, _ => b
  | depth + 1, .obj keywords, data => evaluate (acceptsTo depth) keywords data
  | _ + 1, _, _ => true

mutual

def depth : Json → Nat
  | .arr items => depthOfItems items + 1
  | .obj members => depthOfMembers members + 1
  | _ => 1

def depthOfItems : List Json → Nat
  | [] => 0
  | item :: rest => max (depth item) (depthOfItems rest)

def depthOfMembers : List (String × Json) → Nat
  | [] => 0
  | (_, value) :: rest => max (depth value) (depthOfMembers rest)

end

def accepts (schema : Json) (data : Data) : Bool := acceptsTo (depth schema) schema data

/-! ## Places -/

/-- A subschema applies to a part of the instance; `turned` where its rejection can
let the schema accept. Of an `if` only the branch that is taken applies. -/
inductive Applies (verdict : Json → Data → Bool) (keywords : List (String × Json)) (data : Data) :
    (turned : Bool) → Json → Data → Prop
  | property {name : String} {subschema : Json} {part : Data} :
      (name, subschema) ∈ declared (keywords.lookup "properties") → data.get name = some part →
      Applies verdict keywords data false subschema part
  | additional {entry : String × Json} {subschema : Json} :
      keywords.lookup "additionalProperties" = some subschema →
      entry ∈ undeclared data (declared (keywords.lookup "properties")) →
      Applies verdict keywords data false subschema (.json entry.2)
  | item {subschema : Json} {part : Data} : keywords.lookup "items" = some subschema →
      part ∈ data.items → Applies verdict keywords data false subschema part
  | allOf {subschemas : List Json} {subschema : Json} :
      listed (keywords.lookup "allOf") = some subschemas → subschema ∈ subschemas →
      Applies verdict keywords data false subschema data
  | anyOf {subschemas : List Json} {subschema : Json} :
      listed (keywords.lookup "anyOf") = some subschemas → subschema ∈ subschemas →
      Applies verdict keywords data false subschema data
  | oneOf {subschemas : List Json} {subschema : Json} :
      listed (keywords.lookup "oneOf") = some subschemas → subschema ∈ subschemas →
      Applies verdict keywords data true subschema data
  | not {subschema : Json} : keywords.lookup "not" = some subschema →
      Applies verdict keywords data true subschema data
  | condition {subschema : Json} : keywords.lookup "if" = some subschema →
      ((keywords.lookup "then").isSome || (keywords.lookup "else").isSome) = true →
      Applies verdict keywords data true subschema data
  | thenBranch {condition subschema : Json} : keywords.lookup "if" = some condition →
      verdict condition data = true → keywords.lookup "then" = some subschema →
      Applies verdict keywords data false subschema data
  | elseBranch {condition subschema : Json} : keywords.lookup "if" = some condition →
      verdict condition data = false → keywords.lookup "else" = some subschema →
      Applies verdict keywords data false subschema data

variable {v w : Json → Data → Bool} {keywords : List (String × Json)} {data part : Data}
  {turned : Bool} {subschema : Json}

/-- Verdicts that agree on what is turned around take the same branches. -/
theorem Applies.transfer
    (hsame : ∀ subschema part, Applies v keywords data true subschema part →
      v subschema part = w subschema part)
    (h : Applies w keywords data turned subschema part) :
    Applies v keywords data turned subschema part := by
  cases h with
  | property hmem hget => exact .property hmem hget
  | additional hlook hmem => exact .additional hlook hmem
  | item hlook hmem => exact .item hlook hmem
  | allOf hlook hmem => exact .allOf hlook hmem
  | anyOf hlook hmem => exact .anyOf hlook hmem
  | oneOf hlook hmem => exact .oneOf hlook hmem
  | not hlook => exact .not hlook
  | condition hlook hbranch => exact .condition hlook hbranch
  | thenBranch hlook hholds hthen =>
    refine .thenBranch hlook ?_ hthen
    rw [hsame _ _ (.condition hlook (by simp [hthen])), hholds]
  | elseBranch hlook hfails helse =>
    refine .elseBranch hlook ?_ helse
    rw [hsame _ _ (.condition hlook (by simp [helse])), hfails]

/-! ## Larger verdicts -/

theorem all_mono {α : Type} {p q : α → Bool} {xs : List α} (h : ∀ x ∈ xs, p x = true → q x = true)
    (hall : xs.all p = true) : xs.all q = true := by
  rw [List.all_eq_true] at hall ⊢
  exact fun x hmem => h x hmem (hall x hmem)

/-- **Monotony.** A schema object accepts what it accepted, when the verdicts on its
subschemas become larger, and those that are turned around stay as they are. -/
theorem evaluate_mono
    (hmore : ∀ subschema part, Applies v keywords data false subschema part →
      v subschema part = true → w subschema part = true)
    (hsame : ∀ subschema part, Applies v keywords data true subschema part →
      v subschema part = w subschema part)
    (h : evaluate v keywords data = true) : evaluate w keywords data = true := by
  simp only [evaluate, Bool.and_eq_true] at h ⊢
  obtain ⟨⟨⟨⟨⟨⟨⟨⟨⟨⟨htype, hrequired⟩, hconst⟩, hproperties⟩, hadditional⟩, hitems⟩, hallOf⟩,
    hanyOf⟩, honeOf⟩, hnot⟩, hif⟩ := h
  refine ⟨⟨⟨⟨⟨⟨⟨⟨⟨⟨htype, hrequired⟩, hconst⟩, ?_⟩, ?_⟩, ?_⟩, ?_⟩, ?_⟩, ?_⟩, ?_⟩, ?_⟩
  · refine all_mono (fun property hmem hold => ?_) hproperties
    cases hget : data.get property.1 with
    | none => rfl
    | some part =>
      rw [hget] at hold
      exact hmore _ _ (.property hmem hget) hold
  · cases hlook : keywords.lookup "additionalProperties" with
    | none => rfl
    | some subschema =>
      rw [hlook] at hadditional
      exact all_mono (fun entry hmem => hmore _ _ (.additional hlook hmem)) hadditional
  · cases hlook : keywords.lookup "items" with
    | none => rfl
    | some subschema =>
      rw [hlook] at hitems
      exact all_mono (fun part hmem => hmore _ _ (.item hlook hmem)) hitems
  · cases hlook : listed (keywords.lookup "allOf") with
    | none => rfl
    | some subschemas =>
      rw [hlook] at hallOf
      exact all_mono (fun subschema hmem => hmore _ _ (.allOf hlook hmem)) hallOf
  · cases hlook : listed (keywords.lookup "anyOf") with
    | none => rfl
    | some subschemas =>
      rw [hlook] at hanyOf
      obtain ⟨subschema, hmem, hholds⟩ := List.any_eq_true.mp hanyOf
      exact List.any_eq_true.mpr ⟨subschema, hmem, hmore _ _ (.anyOf hlook hmem) hholds⟩
  · cases hlook : listed (keywords.lookup "oneOf") with
    | none => rfl
    | some subschemas =>
      rw [hlook] at honeOf
      have hcount : (subschemas.countP fun subschema => v subschema data) =
          subschemas.countP fun subschema => w subschema data :=
        List.countP_congr fun subschema hmem => by rw [hsame _ _ (.oneOf hlook hmem)]
      simpa [oneOfAccepts, hcount] using honeOf
  · cases hlook : keywords.lookup "not" with
    | none => rfl
    | some subschema =>
      rw [hlook] at hnot
      simpa [notAccepts, hsame _ _ (.not hlook)] using hnot
  · cases hlook : keywords.lookup "if" with
    | none => rfl
    | some condition =>
      rw [hlook] at hif
      simp only [ifAccepts] at hif ⊢
      by_cases hbranch :
          ((keywords.lookup "then").isSome || (keywords.lookup "else").isSome) = true
      · have hcondition := hsame _ _ (.condition hlook hbranch)
        rw [if_pos hbranch] at hif ⊢
        rw [← hcondition]
        cases hholds : v condition data with
        | true =>
          cases hthen : keywords.lookup "then" with
          | none => rfl
          | some subschema =>
            simp only [hholds, hthen, ↓reduceIte, Option.all_some] at hif ⊢
            exact hmore _ _ (.thenBranch hlook hholds hthen) hif
        | false =>
          cases helse : keywords.lookup "else" with
          | none => rfl
          | some subschema =>
            simp only [hholds, helse, Bool.false_eq_true, ↓reduceIte, Option.all_some] at hif ⊢
            exact hmore _ _ (.elseBranch hlook hholds helse) hif
      · rw [if_neg hbranch]

theorem evaluate_congr
    (hsame : ∀ turned subschema part, Applies v keywords data turned subschema part →
      v subschema part = w subschema part) :
    evaluate v keywords data = evaluate w keywords data := by
  have hback : ∀ turned subschema part, Applies w keywords data turned subschema part →
      w subschema part = v subschema part := fun turned subschema part happlies =>
    (hsame turned _ _ (happlies.transfer fun _ _ => hsame true _ _)).symm
  rw [Bool.eq_iff_iff]
  constructor
  · exact evaluate_mono (fun subschema part happlies hold => by
      rwa [← hsame false _ _ happlies]) (hsame true)
  · exact evaluate_mono (fun subschema part happlies hold => by
      rwa [← hback false _ _ happlies]) (hback true)

/-! ## Verdicts in bounds -/

section

variable (v w : Json → Data → Bool)

def oneOfBetween (data : Data) : Option (List Json) → Bool
  | some subschemas => (subschemas.any fun subschema => v subschema data) &&
      decide ((subschemas.countP fun subschema => w subschema data) ≤ 1)
  | none => true

/-- Where both branches accept, the condition does not matter. -/
def ifBetween (data : Data) : Option Json → Option Json → Option Json → Bool
  | some condition, thenBranch, elseBranch =>
    if thenBranch.isSome || elseBranch.isSome then
      let thenAccepts := thenBranch.all fun subschema => v subschema data
      let elseAccepts := elseBranch.all fun subschema => v subschema data
      v condition data && thenAccepts || !w condition data && elseAccepts ||
        thenAccepts && elseAccepts
    else true
  | none, _, _ => true

/-- The keywords, with `w` read in the places where a larger verdict can let them reject.
From a lower and an upper bound it makes a lower bound, from an upper and a lower one
an upper bound. -/
def evaluateBetween (keywords : List (String × Json)) (data : Data) : Bool :=
  let properties := declared (keywords.lookup "properties")
  typeAccepts data (keywords.lookup "type") &&
    requiredAccepts data (keywords.lookup "required") &&
    constAccepts data (keywords.lookup "const") &&
    propertiesAccept v data properties &&
    additionalAccepts v data properties (keywords.lookup "additionalProperties") &&
    itemsAccept v data (keywords.lookup "items") &&
    allOfAccepts v data (listed (keywords.lookup "allOf")) &&
    anyOfAccepts v data (listed (keywords.lookup "anyOf")) &&
    oneOfBetween v w data (listed (keywords.lookup "oneOf")) &&
    notAccepts w data (keywords.lookup "not") &&
    ifBetween v w data (keywords.lookup "if") (keywords.lookup "then") (keywords.lookup "else")

theorem oneOfBetween_self (subschemas : Option (List Json)) :
    oneOfBetween v v data subschemas = oneOfAccepts v data subschemas := by
  cases subschemas with
  | none => rfl
  | some subschemas =>
    rw [oneOfBetween, oneOfAccepts, Bool.eq_iff_iff, Bool.and_eq_true, decide_eq_true_iff,
      beq_iff_eq, List.any_eq_true, ← List.countP_pos_iff]
    omega

theorem ifBetween_self (condition thenBranch elseBranch : Option Json) :
    ifBetween v v data condition thenBranch elseBranch =
      ifAccepts v data condition thenBranch elseBranch := by
  cases condition with
  | none => rfl
  | some condition =>
    simp only [ifBetween, ifAccepts]
    cases v condition data <;> simp <;> grind

/-- Bounds that meet leave one verdict. -/
theorem evaluateBetween_self : evaluateBetween v v keywords data = evaluate v keywords data := by
  simp only [evaluateBetween, evaluate, oneOfBetween_self, ifBetween_self]

end

section

variable {v' w' : Json → Data → Bool} {data : Data}
  (hmore : ∀ subschema part, v subschema part = true → v' subschema part = true)
  (hless : ∀ subschema part, w' subschema part = true → w subschema part = true)

include hmore

theorem propertiesAccept_mono {properties : List (String × Json)}
    (h : propertiesAccept v data properties = true) :
    propertiesAccept v' data properties = true := by
  refine all_mono (fun property _ hold => ?_) h
  cases hget : data.get property.1 with
  | none => rfl
  | some part =>
    rw [hget] at hold
    exact hmore _ _ hold

theorem additionalAccepts_mono {properties : List (String × Json)} {subschema : Option Json}
    (h : additionalAccepts v data properties subschema = true) :
    additionalAccepts v' data properties subschema = true := by
  cases subschema with
  | none => rfl
  | some subschema => exact all_mono (fun entry _ => hmore _ _) h

theorem itemsAccept_mono {subschema : Option Json} (h : itemsAccept v data subschema = true) :
    itemsAccept v' data subschema = true := by
  cases subschema with
  | none => rfl
  | some subschema => exact all_mono (fun part _ => hmore _ _) h

theorem allOfAccepts_mono {subschemas : Option (List Json)}
    (h : allOfAccepts v data subschemas = true) : allOfAccepts v' data subschemas = true := by
  cases subschemas with
  | none => rfl
  | some subschemas => exact all_mono (fun subschema _ => hmore _ _) h

theorem anyOfAccepts_mono {subschemas : Option (List Json)}
    (h : anyOfAccepts v data subschemas = true) : anyOfAccepts v' data subschemas = true := by
  cases subschemas with
  | none => rfl
  | some subschemas =>
    obtain ⟨subschema, hmem, hholds⟩ := List.any_eq_true.mp h
    exact List.any_eq_true.mpr ⟨subschema, hmem, hmore _ _ hholds⟩

include hless

theorem oneOfBetween_mono {subschemas : Option (List Json)}
    (h : oneOfBetween v w data subschemas = true) : oneOfBetween v' w' data subschemas = true := by
  cases subschemas with
  | none => rfl
  | some subschemas =>
    simp only [oneOfBetween, Bool.and_eq_true, decide_eq_true_eq] at h ⊢
    have hcount : (subschemas.countP fun subschema => w' subschema data) ≤
        subschemas.countP fun subschema => w subschema data :=
      List.countP_mono_left fun subschema _ => hless subschema data
    have hany : anyOfAccepts v' data (some subschemas) = true := anyOfAccepts_mono hmore h.1
    exact ⟨hany, hcount.trans h.2⟩

theorem ifBetween_mono {condition thenBranch elseBranch : Option Json}
    (h : ifBetween v w data condition thenBranch elseBranch = true) :
    ifBetween v' w' data condition thenBranch elseBranch = true := by
  cases condition with
  | none => rfl
  | some condition =>
    have hbranch : ∀ branch : Option Json, (branch.all fun subschema => v subschema data) = true →
        (branch.all fun subschema => v' subschema data) = true := by
      intro branch hall
      cases branch with
      | none => rfl
      | some subschema => exact hmore subschema data hall
    have hthen := hbranch thenBranch
    have helse := hbranch elseBranch
    have hholds := hmore condition data
    have hfails := hless condition data
    simp only [ifBetween] at h ⊢
    split
    next hsome =>
      rw [if_pos hsome] at h
      simp only [Bool.or_eq_true, Bool.and_eq_true, Bool.not_eq_true'] at h ⊢
      grind
    next => rfl

/-- **Monotony in bounds.** -/
theorem evaluateBetween_mono (h : evaluateBetween v w keywords data = true) :
    evaluateBetween v' w' keywords data = true := by
  simp only [evaluateBetween, Bool.and_eq_true] at h ⊢
  obtain ⟨⟨⟨⟨⟨⟨⟨⟨hplain, hproperties⟩, hadditional⟩, hitems⟩, hallOf⟩, hanyOf⟩, honeOf⟩, hnot⟩,
    hif⟩ := h
  refine ⟨⟨⟨⟨⟨⟨⟨⟨hplain, propertiesAccept_mono hmore hproperties⟩,
    additionalAccepts_mono hmore hadditional⟩, itemsAccept_mono hmore hitems⟩,
    allOfAccepts_mono hmore hallOf⟩, anyOfAccepts_mono hmore hanyOf⟩,
    oneOfBetween_mono hmore hless honeOf⟩, ?_⟩, ifBetween_mono hmore hless hif⟩
  cases hlook : keywords.lookup "not" with
  | none => rfl
  | some subschema =>
    rw [hlook, notAccepts, Bool.not_eq_true'] at hnot
    rw [notAccepts, Bool.not_eq_true', Bool.eq_false_iff]
    intro hholds
    rw [hless _ _ hholds] at hnot
    cases hnot

end

/-! ## Rewritten subschemas -/

section

variable (verdict : Json → Data → Bool) (f : Json → Json) (data : Data)

theorem undeclared_map (properties : List (String × Json)) :
    undeclared data (properties.map fun property => (property.1, f property.2)) =
      undeclared data properties := by
  simp [undeclared, Function.comp_def]

theorem propertiesAccept_map (properties : List (String × Json)) :
    propertiesAccept verdict data (properties.map fun property => (property.1, f property.2)) =
      propertiesAccept (fun schema => verdict (f schema)) data properties := by
  simp [propertiesAccept, List.all_map, Function.comp_def]

theorem additionalAccepts_map (properties : List (String × Json)) (additional : Option Json) :
    additionalAccepts verdict data (properties.map fun property => (property.1, f property.2))
        (additional.map f) =
      additionalAccepts (fun schema => verdict (f schema)) data properties additional := by
  cases additional with
  | none => rfl
  | some subschema => simp only [Option.map_some, additionalAccepts, undeclared_map]

theorem itemsAccept_map (subschema : Option Json) :
    itemsAccept verdict data (subschema.map f) =
      itemsAccept (fun schema => verdict (f schema)) data subschema := by
  cases subschema <;> rfl

theorem notAccepts_map (subschema : Option Json) :
    notAccepts verdict data (subschema.map f) =
      notAccepts (fun schema => verdict (f schema)) data subschema := by
  cases subschema <;> rfl

theorem allOfAccepts_map (subschemas : Option (List Json)) :
    allOfAccepts verdict data (subschemas.map (List.map f)) =
      allOfAccepts (fun schema => verdict (f schema)) data subschemas := by
  cases subschemas <;> simp [allOfAccepts, List.all_map, Function.comp_def]

theorem anyOfAccepts_map (subschemas : Option (List Json)) :
    anyOfAccepts verdict data (subschemas.map (List.map f)) =
      anyOfAccepts (fun schema => verdict (f schema)) data subschemas := by
  cases subschemas <;> simp [anyOfAccepts, List.any_map, Function.comp_def]

theorem oneOfAccepts_map (subschemas : Option (List Json)) :
    oneOfAccepts verdict data (subschemas.map (List.map f)) =
      oneOfAccepts (fun schema => verdict (f schema)) data subschemas := by
  cases subschemas <;> simp [oneOfAccepts, List.countP_map, Function.comp_def]

theorem ifAccepts_map (condition thenBranch elseBranch : Option Json) :
    ifAccepts verdict data (condition.map f) (thenBranch.map f) (elseBranch.map f) =
      ifAccepts (fun schema => verdict (f schema)) data condition thenBranch elseBranch := by
  cases condition <;> cases thenBranch <;> cases elseBranch <;> rfl

end

/-! ## Depth -/

theorem depthOfMembers_lookup {members : List (String × Json)} {key : String} {value : Json}
    (h : members.lookup key = some value) : depth value ≤ depthOfMembers members := by
  induction members with
  | nil => cases h
  | cons entry rest ih =>
    obtain ⟨name, first⟩ := entry
    rw [depthOfMembers]
    by_cases hname : key = name
    · rw [hname, List.lookup_cons_self, Option.some.injEq] at h
      rw [h]
      exact le_max_left _ _
    · have hne : (key == name) = false := by simpa using hname
      rw [List.lookup_cons, hne] at h
      exact (ih h).trans (le_max_right _ _)

theorem depthOfMembers_mem {members : List (String × Json)} {key : String} {value : Json}
    (h : (key, value) ∈ members) : depth value ≤ depthOfMembers members := by
  induction members with
  | nil => cases h
  | cons entry rest ih =>
    obtain ⟨name, first⟩ := entry
    rw [depthOfMembers]
    rcases List.mem_cons.mp h with heq | hrest
    · cases heq
      exact le_max_left _ _
    · exact (ih hrest).trans (le_max_right _ _)

theorem depthOfItems_mem {items : List Json} {item : Json} (h : item ∈ items) :
    depth item ≤ depthOfItems items := by
  induction items with
  | nil => cases h
  | cons first rest ih =>
    rw [depthOfItems]
    rcases List.mem_cons.mp h with heq | hrest
    · rw [heq]
      exact le_max_left _ _
    · exact (ih hrest).trans (le_max_right _ _)

theorem declared_depth {name : String} (h : (name, subschema) ∈ declared (keywords.lookup "properties")) :
    depth subschema ≤ depthOfMembers keywords := by
  cases hlook : keywords.lookup "properties" with
  | none =>
    rw [hlook] at h
    cases h
  | some value =>
    have hvalue := depthOfMembers_lookup hlook
    rw [hlook] at h
    cases value with
    | obj properties =>
      have hmem := depthOfMembers_mem (List.mem_of_mem_filter h)
      rw [depth] at hvalue
      omega
    | _ => cases h

theorem listed_depth {key : String} {subschemas : List Json}
    (h : listed (keywords.lookup key) = some subschemas) (hmem : subschema ∈ subschemas) :
    depth subschema ≤ depthOfMembers keywords := by
  cases hlook : keywords.lookup key with
  | none =>
    rw [hlook] at h
    cases h
  | some value =>
    have hvalue := depthOfMembers_lookup hlook
    rw [hlook] at h
    cases value with
    | arr items =>
      cases h
      have hitem := depthOfItems_mem hmem
      rw [depth] at hvalue
      omega
    | _ => cases h

theorem Applies.depth (h : Applies v keywords data turned subschema part) :
    depth subschema ≤ depthOfMembers keywords := by
  cases h with
  | property hmem => exact declared_depth hmem
  | allOf hlook hmem | anyOf hlook hmem | oneOf hlook hmem => exact listed_depth hlook hmem
  | additional hlook | item hlook | not hlook | condition hlook =>
    exact depthOfMembers_lookup hlook
  | thenBranch _ _ hlook | elseBranch _ _ hlook => exact depthOfMembers_lookup hlook

theorem one_le_depth (schema : Json) : 1 ≤ depth schema := by
  cases schema <;> simp [depth]

/-- To any depth that the schema does not exceed, the verdict is the same. -/
theorem acceptsTo_eq {n : Nat} : ∀ {m : Nat} {schema : Json} {data : Data}, depth schema ≤ n →
    depth schema ≤ m → acceptsTo n schema data = acceptsTo m schema data := by
  induction n with
  | zero =>
    intro m schema data hn
    have := one_le_depth schema
    omega
  | succ n ih =>
    intro m schema data hn hm
    cases m with
    | zero =>
      have := one_le_depth schema
      omega
    | succ m =>
      cases schema with
      | obj keywords =>
        simp only [depth] at hn hm
        exact evaluate_congr fun turned subschema part happlies => by
          have hdepth := happlies.depth
          exact ih (by omega) (by omega)
      | _ => rfl

/-- **Compositionality.** -/
theorem accepts_obj (keywords : List (String × Json)) (data : Data) :
    accepts (.obj keywords) data = evaluate accepts keywords data := by
  unfold accepts
  rw [depth, acceptsTo]
  exact evaluate_congr fun turned subschema part happlies => acceptsTo_eq happlies.depth le_rfl

end Mpas.JsonSchema
