import Mpas.Library.Pointers
import Mpas.JsonSchema

/-!
# JSON Schema with references

The meaning of a schema document in which `$ref` may lead to any place of the
document, for any validator: a schema object means what the validator makes of
the meanings of its subschemas, of the targets of its references and of the
values of its other keywords. Keywords that assert nothing are left out.

* `Validator.meaning`: the meaning of a schema, as far as it is looked into;
* `Accepts`: the verdict that looking further does not change.
-/

namespace Mpas.SchemaReferences

/-! ## Keywords -/

inductive Kind
  | schema
  | schemas
  /-- a map from names to schemas -/
  | named
  | reference
  | value
  deriving DecidableEq

def schemaKeywords : List String :=
  ["additionalProperties", "items", "contains", "propertyNames", "unevaluatedItems",
    "unevaluatedProperties", "not", "if", "then", "else"]

def schemasKeywords : List String := ["allOf", "anyOf", "oneOf", "prefixItems"]

def namedKeywords : List String := ["properties", "patternProperties", "dependentSchemas"]

def referenceKeywords : List String := ["$ref", "$dynamicRef"]

def valueKeywords : List String :=
  ["type", "const", "enum", "required", "dependentRequired", "multipleOf", "maximum",
    "exclusiveMaximum", "minimum", "exclusiveMinimum", "maxLength", "minLength", "pattern",
    "maxItems", "minItems", "uniqueItems", "maxContains", "minContains", "maxProperties",
    "minProperties", "format"]

/-- `none` of a keyword that asserts nothing, such as `default` or `$defs`. -/
def kindOf (key : String) : Option Kind :=
  if schemaKeywords.contains key then some .schema
  else if schemasKeywords.contains key then some .schemas
  else if namedKeywords.contains key then some .named
  else if referenceKeywords.contains key then some .reference
  else if valueKeywords.contains key then some .value
  else none

/-- What a validator is given of a keyword. -/
inductive Operand (ρ : Type)
  | schema (meaning : Json → ρ)
  | schemas (meanings : List (Json → ρ))
  | named (meanings : List (String × (Json → ρ)))
  | reference (meaning : Json → ρ)
  | value (value : Json)
  | malformed

/-- A validator; its results may carry more than a verdict. -/
structure Validator (ρ : Type) where
  interpret : List (String × Operand ρ) → Json → ρ
  boolean : Bool → Json → ρ
  /-- of a value that is no schema -/
  malformed : Json → ρ
  /-- of a local reference that leads nowhere -/
  dangling : Json → ρ
  /-- of a reference that is no local JSON Pointer, in its document -/
  elsewhere : Json → String → Json → ρ
  /-- of a schema that is not looked into any more -/
  exhausted : Json → ρ
  /-- a token between two slashes of a fragment -/
  decode : List Char → String
  accepted : ρ → Bool

/-! ## References -/

/-- `#`, or a fragment that is a JSON Pointer. -/
def isLocal (ref : String) : Bool := ref.toList == ['#'] || ['#', '/'].isPrefixOf ref.toList

/-- What stands between the slashes. -/
def fragmentTokens (ref : List Char) : List (List Char) :=
  if ref = ['#'] then [] else (ref.drop 2).splitOn '/'

def child (token : String) : Json → Option Json
  | .obj members => members.lookup token
  | .arr items => (Pointers.arrayIndex? token.toList).bind fun index => items[index]?
  | _ => none

/-- An object with an `$id` is a document of its own. -/
def identified : Json → Bool
  | .obj members => match members.lookup "$id" with
    | some (.str _) => true
    | _ => false
  | _ => false

/-- The document that the references of a schema are relative to. -/
def document (root schema : Json) : Json := if identified schema then schema else root

/-- The place that the tokens lead to, with its document. -/
def follow (root place : Json) : List String → Option (Json × Json)
  | [] => some (root, place)
  | token :: tokens =>
    (child token place).bind fun next => follow (document root next) next tokens

namespace Validator

variable {ρ : Type} (V : Validator ρ)

def resolve (root : Json) (ref : String) : Option (Json × Json) :=
  follow root root ((fragmentTokens ref.toList).map V.decode)

/-- Of a keyword of a kind; `meaning root schema` is the meaning of a schema of
the document `root`. -/
def operandOf (meaning : Json → Json → Json → ρ) (root value : Json) : Kind → Operand ρ
  | .schema => .schema (meaning root value)
  | .schemas => match value with
    | .arr subschemas => .schemas (subschemas.map (meaning root))
    | _ => .malformed
  | .named => match value with
    | .obj subschemas => .named (subschemas.map fun entry => (entry.1, meaning root entry.2))
    | _ => .malformed
  | .reference => match value with
    | .str ref =>
      if isLocal ref then match V.resolve root ref with
        | some found => .reference (meaning found.1 found.2)
        | none => .reference V.dangling
      else .reference (V.elsewhere root ref)
    | _ => .malformed
  | .value => .value value

def operand (meaning : Json → Json → Json → ρ) (root : Json) (key : String) (value : Json) :
    Option (Operand ρ) :=
  (kindOf key).map (V.operandOf meaning root value)

def meaning : Nat → Json → Json → Json → ρ
  | 0, _, _ => V.exhausted
  | _ + 1, _, .bool b => V.boolean b
  | n + 1, root, .obj members => V.interpret (members.filterMap fun member =>
      (V.operand (meaning n) (document root (.obj members)) member.1 member.2).map (member.1, ·))
  | _ + 1, _, _ => V.malformed

end Validator

/-- The document accepts the instance, however many more references are followed. -/
def Accepts {ρ : Type} (V : Validator ρ) (root data : Json) : Prop :=
  ∃ enough, ∀ n, enough ≤ n → V.accepted (V.meaning n root root data) = true

end Mpas.SchemaReferences
