import Mathlib.Data.List.Infix
import Mpas.PolicyEngine
import Mpas.RequestEquivalence
import Mpas.SchemaReferences

/-!
# Plugin generation

An operation's payload schema wraps the input schema of its tool, and the
references of that document move with it. The rewriting looks at members alone
and not at what they stand for, so it also reaches into data.

* `meaning_rebased`: a schema that is moved this way keeps its meaning where the
  document is `Faithful`;
* `faithful_of_plain`: documents in which nothing stands that could be mistaken;
* `generatePlugin_preserves`: what the emitted payload schemas accept.
-/

namespace Mpas.PluginCodegen

open SchemaReferences

/-! ## The generator -/

structure McpToolDefinition where
  name : String
  description : Option String := none
  inputSchema : Json
  annotations : Option Json := none
  /-- every other field -/
  extensions : List (String × Json) := []
  deriving DecidableEq

inductive Impact
  | medium
  | high
  | critical
  deriving DecidableEq, Repr

/-- `impact` is optional: generated operations have one, those of a file need not. -/
structure Operation where
  description : String
  impact : Option Impact
  executionPayloadSchema : Json
  deriving DecidableEq

structure ToolSurface where
  hash : HashObject
  toolNames : List String
  deriving DecidableEq

@[ext]
structure GeneratedPlugin where
  pluginDid : String
  pluginVersion : String
  publisherDid : String
  applicationDid : String
  protocolVersion : String
  credentialRequirements : List Json
  toolSurface : ToolSurface
  operations : List (String × Operation)
  deriving DecidableEq

def containsWord (text : List Char) (words : List String) : Bool :=
  words.any fun word => decide (word.toList <:+: text)

/-- `toLowerCase`, as far as it yields ASCII letters; the Kelvin sign becomes a `k`. -/
def lowercase (c : Char) : Char := if c.toNat = 0x212A then 'k' else c.toLower

def inferImpact (name : String) : Impact :=
  let normalized := name.toList.map lowercase
  if containsWord normalized ["delete", "remove", "destroy", "drop", "purge"] then .critical
  else if containsWord normalized ["merge", "deploy", "release", "transfer", "revoke"] then .high
  else .medium

/-- `tool.annotations?.destructiveHint === true`. -/
def McpToolDefinition.destructive (tool : McpToolDefinition) : Bool :=
  decide (tool.annotations.bind (Json.member "destructiveHint") = some (.bool true))

def rebaseReference (basePointer ref : String) : String :=
  if ref = "#" then basePointer
  else if ['#', '/'].isPrefixOf ref.toList then
    String.ofList (basePointer.toList ++ ref.toList.drop 1)
  else ref

/-- `rebased` is what the rewriting makes of the entry itself. -/
def rebaseEntry (basePointer key : String) (entry rebased : Json) : Json :=
  match entry with
  | .str ref => if key = "$ref" then .str (rebaseReference basePointer ref) else rebased
  | _ => rebased

mutual

def rebaseLocalJsonReferences (basePointer : String) : Json → Json
  | .arr items => .arr (rebaseItems basePointer items)
  | .obj members => .obj (rebaseMembers basePointer members)
  | value => value

def rebaseItems (basePointer : String) : List Json → List Json
  | [] => []
  | entry :: rest => rebaseLocalJsonReferences basePointer entry :: rebaseItems basePointer rest

def rebaseMembers (basePointer : String) : List (String × Json) → List (String × Json)
  | [] => []
  | (key, entry) :: rest =>
    (key, rebaseEntry basePointer key entry (rebaseLocalJsonReferences basePointer entry)) ::
      rebaseMembers basePointer rest

end

def argumentsPointer : String := "#/properties/arguments"

def executionPayloadSchema (tool : McpToolDefinition) : Json :=
  .obj [("type", .str "object"), ("required", .arr [.str "name", .str "arguments"]),
    ("properties", .obj [("name", .obj [("const", .str tool.name)]),
      ("arguments", rebaseLocalJsonReferences argumentsPointer tool.inputSchema)]),
    ("additionalProperties", .bool false)]

def generateOperation (tool : McpToolDefinition) : Operation where
  description := tool.description.getD ""
  impact := some (if tool.destructive then .critical else inferImpact tool.name)
  executionPayloadSchema := executionPayloadSchema tool

/-- Tools sorted by name in UTF-16 code-unit order. -/
def sortTools (tools : List McpToolDefinition) : List McpToolDefinition :=
  tools.mergeSort fun a b => Routing.unitsLe (Routing.utf16 a.name) (Routing.utf16 b.name)

/-- `digest` is the hash of the canonical text of the tools; `none` where names repeat. -/
def computeToolSurfaceHash (digest : List McpToolDefinition → String)
    (tools : List McpToolDefinition) : Option HashObject :=
  if (tools.map (·.name)).Nodup then some ⟨"sha-256", digest (sortTools tools)⟩ else none

def PLACEHOLDER : String := "did:web:PLACEHOLDER"

/-- The plugin of tools whose surface has that hash. -/
def assemblePlugin (hash : HashObject) (tools : List McpToolDefinition) (protocolVersion : String) :
    GeneratedPlugin where
  pluginDid := PLACEHOLDER
  pluginVersion := "0.1.0"
  publisherDid := PLACEHOLDER
  applicationDid := PLACEHOLDER
  protocolVersion := protocolVersion
  credentialRequirements := []
  toolSurface := ⟨hash, (sortTools tools).map (·.name)⟩
  operations := tools.map fun tool => (tool.name, generateOperation tool)

def generatePlugin (digest : List McpToolDefinition → String) (tools : List McpToolDefinition)
    (protocolVersion : String) : Option GeneratedPlugin :=
  (computeToolSurfaceHash digest tools).map fun hash => assemblePlugin hash tools protocolVersion

/-! ## The rewriting, place by place -/

/-- `within` is the answer for the entry itself. -/
def isLocalReference (key : String) (entry : Json) (within : Bool) : Bool :=
  match entry with
  | .str ref => key == "$ref" && isLocal ref
  | _ => within

mutual

/-- Anywhere in the value, a member `$ref` that is a local reference. -/
def hasLocalReference : Json → Bool
  | .arr items => itemsHaveLocalReference items
  | .obj members => membersHaveLocalReference members
  | _ => false

def itemsHaveLocalReference : List Json → Bool
  | [] => false
  | entry :: rest => hasLocalReference entry || itemsHaveLocalReference rest

def membersHaveLocalReference : List (String × Json) → Bool
  | [] => false
  | (key, entry) :: rest =>
    isLocalReference key entry (hasLocalReference entry) || membersHaveLocalReference rest

end

theorem rebaseReference_of_not_local (basePointer : String) {ref : String}
    (h : isLocal ref = false) : rebaseReference basePointer ref = ref := by
  have hroot : ref ≠ "#" := by
    rintro rfl
    exact absurd h (by decide)
  have hpointer : ['#', '/'].isPrefixOf ref.toList = false := by
    rw [isLocal, Bool.or_eq_false_iff] at h
    exact h.2
  rw [rebaseReference, if_neg hroot, hpointer, if_neg Bool.false_ne_true]

theorem rebaseItems_eq_map (basePointer : String) (items : List Json) :
    rebaseItems basePointer items = items.map (rebaseLocalJsonReferences basePointer) := by
  induction items with
  | nil => rfl
  | cons entry rest ih => rw [rebaseItems, ih, List.map_cons]

def rebaseMember (basePointer : String) (member : String × Json) : String × Json :=
  (member.1, rebaseEntry basePointer member.1 member.2
    (rebaseLocalJsonReferences basePointer member.2))

theorem rebaseMembers_eq_map (basePointer : String) (members : List (String × Json)) :
    rebaseMembers basePointer members = members.map (rebaseMember basePointer) := by
  induction members with
  | nil => rfl
  | cons member rest ih => rw [rebaseMembers, ih, List.map_cons, rebaseMember]

theorem rebaseMembers_lookup (basePointer : String) (members : List (String × Json))
    (key : String) : (rebaseMembers basePointer members).lookup key =
      (members.lookup key).map fun entry =>
        rebaseEntry basePointer key entry (rebaseLocalJsonReferences basePointer entry) := by
  induction members with
  | nil => rfl
  | cons member rest ih =>
    obtain ⟨name, entry⟩ := member
    rw [rebaseMembers]
    by_cases hname : key = name
    · rw [hname, List.lookup_cons_self, List.lookup_cons_self, Option.map_some]
    · have hne : (key == name) = false := by simpa using hname
      rw [List.lookup_cons, List.lookup_cons, hne]
      exact ih

theorem rebaseEntry_of_ne (basePointer : String) {key : String} (hkey : key ≠ "$ref")
    (entry : Json) : rebaseEntry basePointer key entry
      (rebaseLocalJsonReferences basePointer entry) = rebaseLocalJsonReferences basePointer entry := by
  cases entry with
  | str ref => rw [rebaseEntry, if_neg hkey]
  | _ => rfl

mutual

/-- A value without such members stays as it is. -/
theorem rebase_of_hasLocalReference (basePointer : String) :
    ∀ value : Json, hasLocalReference value = false →
      rebaseLocalJsonReferences basePointer value = value
  | .null, _ => rfl
  | .bool _, _ => rfl
  | .num _, _ => rfl
  | .str _, _ => rfl
  | .arr items, h => by
    rw [rebaseLocalJsonReferences, rebaseItems_of_hasLocalReference basePointer items h]
  | .obj members, h => by
    rw [rebaseLocalJsonReferences, rebaseMembers_of_hasLocalReference basePointer members h]

theorem rebaseItems_of_hasLocalReference (basePointer : String) :
    ∀ items : List Json, itemsHaveLocalReference items = false →
      rebaseItems basePointer items = items
  | [], _ => rfl
  | entry :: rest, h => by
    rw [itemsHaveLocalReference, Bool.or_eq_false_iff] at h
    rw [rebaseItems, rebase_of_hasLocalReference basePointer entry h.1,
      rebaseItems_of_hasLocalReference basePointer rest h.2]

theorem rebaseMembers_of_hasLocalReference (basePointer : String) :
    ∀ members : List (String × Json), membersHaveLocalReference members = false →
      rebaseMembers basePointer members = members
  | [], _ => rfl
  | (key, entry) :: rest, h => by
    rw [membersHaveLocalReference, Bool.or_eq_false_iff] at h
    have hentry : rebaseEntry basePointer key entry (rebaseLocalJsonReferences basePointer entry) =
        entry := by
      cases entry with
      | str ref =>
        rw [rebaseEntry]
        split
        · rename_i hkey
          have hlocal : isLocal ref = false := by simpa [isLocalReference, hkey] using h.1
          rw [rebaseReference_of_not_local basePointer hlocal]
        · rfl
      | _ => exact rebase_of_hasLocalReference basePointer _ h.1
    rw [rebaseMembers, hentry, rebaseMembers_of_hasLocalReference basePointer rest h.2]

end

/-! ## Two documents -/

abbrev rebased (value : Json) : Json := rebaseLocalJsonReferences argumentsPointer value

/-- The documents of a schema before and after it is moved from `S` into `E`. -/
inductive Moved (S E : Json) : Json → Json → Prop
  | document (h : identified S = false) : Moved S E S E
  | identified {root : Json} (h : identified root = true) : Moved S E root (rebased root)

/-- A place before and after. References are places too, of which pointers say nothing more. -/
inductive Place : Json → Json → Prop
  | same (value : Json) : Place value (rebased value)
  | text (ref ref' : String) : Place (.str ref) (.str ref')

theorem identified_rebased (value : Json) : identified (rebased value) = identified value := by
  cases value with
  | obj members =>
    rw [rebased, rebaseLocalJsonReferences, identified, identified, rebaseMembers_lookup]
    cases members.lookup "$id" with
    | none => rfl
    | some entry =>
      rw [Option.map_some, rebaseEntry_of_ne _ (by decide)]
      cases entry <;> rfl
  | _ => rfl

theorem Place.of_entry (key : String) (entry : Json) :
    Place entry (rebaseEntry argumentsPointer key entry (rebased entry)) := by
  by_cases hkey : key = "$ref"
  · cases entry with
    | str ref =>
      rw [rebaseEntry, if_pos hkey]
      exact .text _ _
    | _ => exact .same _
  · rw [rebaseEntry_of_ne _ hkey]
    exact .same _

theorem Place.child {place place' : Json} (h : Place place place') (token : String) :
    Option.Rel Place (child token place) (child token place') := by
  cases h with
  | text ref ref' => exact .none
  | same =>
    cases place with
    | obj members =>
      rw [rebased, rebaseLocalJsonReferences, SchemaReferences.child, SchemaReferences.child,
        rebaseMembers_lookup]
      cases members.lookup token with
      | none => exact .none
      | some entry => exact .some (.of_entry token entry)
    | arr items =>
      rw [rebased, rebaseLocalJsonReferences, SchemaReferences.child, SchemaReferences.child,
        rebaseItems_eq_map]
      cases Pointers.arrayIndex? token.toList with
      | none => exact .none
      | some index =>
        rw [Option.bind_some, Option.bind_some, List.getElem?_map]
        cases items[index]? with
        | none => exact .none
        | some item => exact .some (.same item)
    | _ => exact .none

variable {S E root root' place place' : Json}

theorem Moved.document_of_place (h : Moved S E root root') (hplace : Place place place') :
    Moved S E (SchemaReferences.document root place) (SchemaReferences.document root' place') := by
  cases hplace with
  | text ref ref' => exact h
  | same =>
    rw [SchemaReferences.document, SchemaReferences.document, identified_rebased]
    by_cases hid : SchemaReferences.identified place = true
    · rw [if_pos hid, if_pos hid]
      exact .identified hid
    · rwa [if_neg hid, if_neg hid]

theorem follow_moved (tokens : List String) (h : Moved S E root root')
    (hplace : Place place place') :
    Option.Rel (fun found found' => Moved S E found.1 found'.1 ∧ Place found.2 found'.2)
      (follow root place tokens) (follow root' place' tokens) := by
  induction tokens generalizing root root' place place' with
  | nil => exact .some ⟨h, hplace⟩
  | cons token tokens ih =>
    rw [follow, follow]
    have hchild := hplace.child token
    generalize child token place = found at hchild
    generalize child token place' = found' at hchild
    cases hchild with
    | none => exact .none
    | some hnext => exact ih (h.document_of_place hnext) hnext

/-! ## References -/

theorem isLocal_iff (ref : String) :
    isLocal ref = true ↔ ref = "#" ∨ ∃ rest, ref.toList = '#' :: '/' :: rest := by
  constructor
  · intro h
    rw [isLocal, Bool.or_eq_true, beq_iff_eq, List.isPrefixOf_iff_prefix] at h
    rcases h with h | ⟨rest, h⟩
    · exact .inl (String.toList_inj.mp h)
    · exact .inr ⟨rest, h.symm⟩
  · rintro (rfl | ⟨rest, h⟩)
    · decide
    · simp [isLocal, h]

theorem rebaseReference_toList {ref : String} (h : isLocal ref = true) :
    (rebaseReference argumentsPointer ref).toList =
      argumentsPointer.toList ++ ref.toList.drop 1 := by
  rw [rebaseReference]
  rcases (isLocal_iff ref).mp h with rfl | ⟨rest, hrest⟩
  · decide
  · have hroot : ref ≠ "#" := by
      rintro rfl
      cases hrest
    rw [if_neg hroot, if_pos (by simp [hrest]), String.toList_ofList]

/-- The base pointer leads the way, and its tokens come first. -/
theorem fragmentTokens_rebaseReference {ref : String} (h : isLocal ref = true) :
    fragmentTokens (rebaseReference argumentsPointer ref).toList =
      "properties".toList :: "arguments".toList :: fragmentTokens ref.toList := by
  rw [rebaseReference_toList h]
  rcases (isLocal_iff ref).mp h with rfl | ⟨rest, hrest⟩
  · decide
  · have hplain : ∀ word ∈ ["properties".toList, "arguments".toList], '/' ∉ word := by decide
    have hroot : ref.toList ≠ ['#'] := by
      rw [hrest]
      intro heq
      cases heq
    have htext : argumentsPointer.toList ++ ref.toList.drop 1 =
        '#' :: '/' :: ("properties".toList ++ '/' :: ("arguments".toList ++ '/' :: rest)) := by
      rw [hrest]
      rfl
    rw [htext, fragmentTokens, if_neg (by intro heq; cases heq), fragmentTokens, if_neg hroot, hrest]
    simp only [List.drop_succ_cons, List.drop_zero]
    rw [List.splitOn_append_cons_self_of_not_mem (hplain _ (by simp)),
      List.splitOn_append_cons_self_of_not_mem (hplain _ (by simp))]

/-! ## Meanings -/

variable {ρ : Type} (V : Validator ρ)

/-- What JSON Schema says of the keywords of a payload schema, and that the
names in it are read back as they are. -/
structure Lawful : Prop where
  properties_decoded : V.decode "properties".toList = "properties"
  arguments_decoded : V.decode "arguments".toList = "arguments"
  constant : ∀ value data : Json,
    V.accepted (V.interpret [("const", .value value)] data) = JsonSchema.deepEquals value data
  closed : ∀ (onName onArguments onOthers : Json → ρ) (name : String) (arguments : Json),
    V.accepted (V.interpret [("type", .value (.str "object")),
        ("required", .value (.arr [.str "name", .str "arguments"])),
        ("properties", .named [("name", onName), ("arguments", onArguments)]),
        ("additionalProperties", .schema onOthers)]
      (.obj [("name", .str name), ("arguments", arguments)])) =
      (V.accepted (onName (.str name)) && V.accepted (onArguments arguments))

/-- The subschemas in the value of a keyword. -/
inductive Part : Kind → Json → Json → Prop
  | schema (value : Json) : Part .schema value value
  | item {subschemas : List Json} {subschema : Json} (hmem : subschema ∈ subschemas) :
    Part .schemas (.arr subschemas) subschema
  | named {subschemas : List (String × Json)} {name : String} {subschema : Json}
    (hmem : (name, subschema) ∈ subschemas) : Part .named (.obj subschemas) subschema

/-- The schemas of a document that are applied, each with the document it is looked up in. -/
inductive Reached (S : Json) : Json → Json → Prop
  | root : Reached S S S
  | part {root value subschema : Json} {members : List (String × Json)} {key : String} {kind : Kind}
    (h : Reached S root (.obj members)) (hmem : (key, value) ∈ members)
    (hkind : kindOf key = some kind) (hpart : Part kind value subschema) :
    Reached S (document root (.obj members)) subschema
  | target {root root' target : Json} {members : List (String × Json)} {key ref : String}
    (h : Reached S root (.obj members)) (hmem : (key, .str ref) ∈ members)
    (hkind : kindOf key = some .reference) (hlocal : isLocal ref = true)
    (hresolve : V.resolve (document root (.obj members)) ref = some (root', target)) :
    Reached S root' target

/-- The rewriting changes references of this document only, and nothing but references. -/
structure Kept (root : Json) (members : List (String × Json)) : Prop where
  values : ∀ key value, (key, value) ∈ members → kindOf key = some .value →
    hasLocalReference value = false
  references : ∀ key ref, (key, .str ref) ∈ members → kindOf key = some .reference →
    key = "$ref" ∧ isLocal ref = true ∧ identified root = false

def Faithful (S : Json) : Prop :=
  ∀ root members, Reached V S root (.obj members) → Kept (document root (.obj members)) members

variable {V} {tool : McpToolDefinition}

theorem resolve_moved (hV : Lawful V) (hid : identified tool.inputSchema = false) {ref : String}
    (hlocal : isLocal ref = true) :
    Option.Rel (fun found found' =>
        Moved tool.inputSchema (executionPayloadSchema tool) found.1 found'.1 ∧
          Place found.2 found'.2)
      (V.resolve tool.inputSchema ref)
      (V.resolve (executionPayloadSchema tool) (rebaseReference argumentsPointer ref)) := by
  have hdocument : document (executionPayloadSchema tool) (rebased tool.inputSchema) =
      executionPayloadSchema tool := by
    rw [document, identified_rebased, hid, if_neg Bool.false_ne_true]
  have hway : ∀ tokens, follow (executionPayloadSchema tool) (executionPayloadSchema tool)
      ("properties" :: "arguments" :: tokens) =
        follow (executionPayloadSchema tool) (rebased tool.inputSchema) tokens := by
    intro tokens
    have hfound : child "arguments" (.obj [("name", .obj [("const", .str tool.name)]),
        ("arguments", rebased tool.inputSchema)]) = some (rebased tool.inputSchema) := rfl
    have hproperties : child "properties" (executionPayloadSchema tool) =
        some (.obj [("name", .obj [("const", .str tool.name)]),
          ("arguments", rebased tool.inputSchema)]) := rfl
    rw [follow, hproperties, Option.bind_some, follow, hfound, Option.bind_some]
    exact congrArg (fun root => follow root (rebased tool.inputSchema) tokens) hdocument
  rw [Validator.resolve, Validator.resolve, fragmentTokens_rebaseReference hlocal, List.map_cons,
    List.map_cons, hV.properties_decoded, hV.arguments_decoded, hway]
  exact follow_moved _ (.document hid) (.same _)

theorem isLocal_rebaseReference {ref : String} (h : isLocal ref = true) :
    isLocal (rebaseReference argumentsPointer ref) = true := by
  rw [isLocal, rebaseReference_toList h]
  rfl

section

variable {n : Nat} {key : String} {value : Json} {members : List (String × Json)}

/-- A keyword is given the same of its value before and after, when its
subschemas and the targets of its references mean the same. -/
theorem operand_rebased (hV : Lawful V)
    (hmoved : Moved tool.inputSchema (executionPayloadSchema tool) root root')
    (hkept : Kept root members) (hmem : (key, value) ∈ members)
    (hparts : ∀ kind part part', kindOf key = some kind → Part kind value part → Place part part' →
      V.meaning n root part = V.meaning n root' part')
    (htargets : ∀ ref found found' target target', value = .str ref →
      kindOf key = some .reference → isLocal ref = true → V.resolve root ref = some (found, target) →
      Moved tool.inputSchema (executionPayloadSchema tool) found found' → Place target target' →
      V.meaning n found target = V.meaning n found' target') :
    V.operand (V.meaning n) root key value = V.operand (V.meaning n) root' key
      (rebaseEntry argumentsPointer key value (rebased value)) := by
  rw [Validator.operand, Validator.operand]
  cases hkind : kindOf key with
  | none => rfl
  | some kind =>
    rw [Option.map_some, Option.map_some]
    congr 1
    have hkey : kind ≠ .reference → key ≠ "$ref" := by
      rintro hne rfl
      rw [show kindOf "$ref" = some .reference from by decide] at hkind
      exact hne (Option.some.inj hkind).symm
    cases kind with
    | schema =>
      rw [rebaseEntry_of_ne _ (hkey (by decide))]
      exact congrArg Operand.schema (hparts _ _ _ hkind (.schema value) (.same value))
    | schemas =>
      rw [rebaseEntry_of_ne _ (hkey (by decide))]
      cases value with
      | arr subschemas =>
        rw [rebaseLocalJsonReferences, rebaseItems_eq_map, Validator.operandOf,
          Validator.operandOf, List.map_map]
        congr 1
        apply List.map_congr_left
        intro subschema hsub
        exact hparts _ _ _ hkind (.item hsub) (.same subschema)
      | _ => rfl
    | named =>
      rw [rebaseEntry_of_ne _ (hkey (by decide))]
      cases value with
      | obj subschemas =>
        rw [rebaseLocalJsonReferences, rebaseMembers_eq_map, Validator.operandOf,
          Validator.operandOf, List.map_map]
        congr 1
        apply List.map_congr_left
        rintro ⟨name, subschema⟩ hsub
        exact congrArg (Prod.mk name) (hparts _ _ _ hkind (.named hsub) (.of_entry name subschema))
      | _ => rfl
    | reference =>
      cases value with
      | str ref =>
        obtain ⟨rfl, hlocal, hid⟩ := hkept.references key ref hmem hkind
        cases hmoved with
        | identified h => exact absurd h (by rw [hid]; exact Bool.false_ne_true)
        | document =>
          rw [rebaseEntry, if_pos rfl, Validator.operandOf, Validator.operandOf, if_pos hlocal,
            if_pos (isLocal_rebaseReference hlocal)]
          have hfound := resolve_moved hV hid hlocal
          have htarget := fun found found' target target' =>
            htargets ref found found' target target' rfl hkind hlocal
          generalize V.resolve tool.inputSchema ref = one at hfound htarget
          generalize V.resolve (executionPayloadSchema tool) _ = other at hfound
          cases hfound with
          | none => rfl
          | some h => exact congrArg Operand.reference (htarget _ _ _ _ rfl h.1 h.2)
      | _ => rfl
    | value =>
      rw [rebaseEntry_of_ne _ (hkey (by decide)),
        rebase_of_hasLocalReference _ value (hkept.values key value hmem hkind)]
      rfl

end

/-- By induction on how many more references are followed. -/
theorem meaning_rebased (hV : Lawful V) (hfaithful : Faithful V tool.inputSchema) (n : Nat)
    (hmoved : Moved tool.inputSchema (executionPayloadSchema tool) (document root place)
      (document root' place'))
    (hplace : Place place place') (hreached : Reached V tool.inputSchema root place) :
    V.meaning n root place = V.meaning n root' place' := by
  induction n generalizing root root' place place' with
  | zero => rfl
  | succ n ih =>
    cases hplace with
    | text ref ref' => rfl
    | same =>
      cases place with
      | obj members =>
        have hkept := hfaithful root members hreached
        rw [rebased, rebaseLocalJsonReferences] at hmoved ⊢
        rw [Validator.meaning, Validator.meaning]
        congr 1
        rw [rebaseMembers_eq_map, List.filterMap_map, ← rebaseMembers_eq_map]
        apply List.filterMap_congr
        rintro ⟨key, value⟩ hmem
        rw [Function.comp_apply, rebaseMember]
        congr 1
        apply operand_rebased hV hmoved hkept hmem
        · intro kind part part' hkind hpart hplace
          exact ih (hmoved.document_of_place hplace) hplace (hreached.part hmem hkind hpart)
        · intro ref found found' target target' hvalue hkind hlocal hresolve hfound hplace
          subst hvalue
          exact ih (hfound.document_of_place hplace) hplace
            (hreached.target hmem hkind hlocal hresolve)
      | _ => rfl

/-! ## Payload schemas -/

def payload (name : String) (arguments : List (String × Json)) : Json :=
  .obj [("name", .str name), ("arguments", .obj arguments)]

/-- What a payload schema accepts is left to its schema of the arguments. -/
theorem payload_accepted (hV : Lawful V) (n : Nat) (arguments : List (String × Json)) :
    V.accepted (V.meaning (n + 2) (executionPayloadSchema tool) (executionPayloadSchema tool)
      (payload tool.name arguments)) =
      V.accepted (V.meaning (n + 1) (executionPayloadSchema tool) (rebased tool.inputSchema)
        (.obj arguments)) := by
  have hname : V.accepted (V.meaning (n + 1) (executionPayloadSchema tool)
      (.obj [("const", .str tool.name)]) (.str tool.name)) = true := by
    refine (hV.constant (.str tool.name) (.str tool.name)).trans ?_
    rw [JsonSchema.deepEquals, beq_self_eq_true]
  refine (hV.closed _ _ _ tool.name (.obj arguments)).trans ?_
  exact (congrArg (· && _) hname).trans (Bool.true_and _)

theorem accepts_payload (hV : Lawful V) (hfaithful : Faithful V tool.inputSchema)
    (arguments : List (String × Json)) :
    Accepts V (executionPayloadSchema tool) (payload tool.name arguments) ↔
      Accepts V tool.inputSchema (.obj arguments) := by
  have hmoved : Moved tool.inputSchema (executionPayloadSchema tool)
      (document tool.inputSchema tool.inputSchema)
      (document (executionPayloadSchema tool) (rebased tool.inputSchema)) := by
    rw [document, document, identified_rebased, ite_self]
    by_cases hid : identified tool.inputSchema = true
    · rw [if_pos hid]
      exact .identified hid
    · rw [if_neg hid]
      exact .document (by simpa using hid)
  have hsame : ∀ n, V.accepted (V.meaning (n + 2) (executionPayloadSchema tool)
      (executionPayloadSchema tool) (payload tool.name arguments)) =
        V.accepted (V.meaning (n + 1) tool.inputSchema tool.inputSchema (.obj arguments)) := by
    intro n
    rw [payload_accepted hV, meaning_rebased hV hfaithful (n + 1) hmoved (.same _) .root]
  constructor
  · rintro ⟨enough, h⟩
    refine ⟨enough + 1, fun n hn => ?_⟩
    obtain ⟨k, rfl⟩ : ∃ k, n = k + 1 := ⟨n - 1, by omega⟩
    rw [← hsame k]
    exact h (k + 2) (by omega)
  · rintro ⟨enough, h⟩
    refine ⟨enough + 2, fun n hn => ?_⟩
    obtain ⟨k, rfl⟩ : ∃ k, n = k + 2 := ⟨n - 2, by omega⟩
    rw [hsame k]
    exact h (k + 1) (by omega)

/-! ## Documents of plain schemas -/

/-- A reference, and no `$ref` to a place of the document. -/
def isOtherReference (key : String) : Json → Bool
  | .str ref => kindOf key == some .reference && !(key == "$ref" && isLocal ref)
  | _ => false

/-- `within` is the answer for the entry itself. -/
def plainEntry (key : String) (entry : Json) (within : Bool) : Bool :=
  within && !(kindOf key == some .value && hasLocalReference entry) &&
    !isOtherReference key entry

mutual

/-- No `$id`, no data that looks like a local reference, no references but local ones. -/
def plain : Json → Bool
  | .arr items => plainItems items
  | .obj members => !identified (.obj members) && plainMembers members
  | _ => true

def plainItems : List Json → Bool
  | [] => true
  | entry :: rest => plain entry && plainItems rest

def plainMembers : List (String × Json) → Bool
  | [] => true
  | (key, entry) :: rest => plainEntry key entry (plain entry) && plainMembers rest

end

theorem plain_of_item {items : List Json} {item : Json} (h : plainItems items = true)
    (hmem : item ∈ items) : plain item = true := by
  induction items with
  | nil => cases hmem
  | cons entry rest ih =>
    rw [plainItems, Bool.and_eq_true] at h
    cases hmem with
    | head => exact h.1
    | tail _ hmem => exact ih h.2 hmem

theorem plain_of_member {members : List (String × Json)} {key : String} {entry : Json}
    (h : plainMembers members = true) (hmem : (key, entry) ∈ members) :
    plainEntry key entry (plain entry) = true := by
  induction members with
  | nil => cases hmem
  | cons member rest ih =>
    rw [plainMembers, Bool.and_eq_true] at h
    cases hmem with
    | head => exact h.1
    | tail _ hmem => exact ih h.2 hmem

theorem plainEntry_within {key : String} {entry : Json} {within : Bool}
    (h : plainEntry key entry within = true) : within = true := by
  rw [plainEntry, Bool.and_eq_true, Bool.and_eq_true] at h
  exact h.1.1

theorem plain_of_child {token : String} (h : plain place = true)
    (hchild : child token place = some place') : plain place' = true := by
  cases place with
  | obj members =>
    rw [plain, Bool.and_eq_true] at h
    exact plainEntry_within (plain_of_member h.2 (Routing.mem_of_lookup hchild))
  | arr items =>
    rw [plain] at h
    obtain ⟨index, _, hitem⟩ := Option.bind_eq_some_iff.mp hchild
    exact plain_of_item h (List.mem_of_getElem? hitem)
  | _ => cases hchild

theorem identified_of_plain (h : plain place = true) : identified place = false := by
  cases place with
  | obj members =>
    rw [plain, Bool.and_eq_true] at h
    simpa using h.1
  | _ => rfl

theorem document_of_plain (root : Json) (h : plain place = true) : document root place = root := by
  rw [document, identified_of_plain h, if_neg Bool.false_ne_true]

theorem follow_plain {tokens : List String} (h : plain place = true) {found : Json × Json}
    (hfollow : follow root place tokens = some found) : found.1 = root ∧ plain found.2 = true := by
  induction tokens generalizing place with
  | nil =>
    cases hfollow
    exact ⟨rfl, h⟩
  | cons token tokens ih =>
    obtain ⟨next, hnext, hrest⟩ := Option.bind_eq_some_iff.mp hfollow
    have hplain := plain_of_child h hnext
    rw [document_of_plain root hplain] at hrest
    exact ih hplain hrest

theorem Part.plain {kind : Kind} {value part : Json} (hpart : Part kind value part)
    (h : plain value = true) : PluginCodegen.plain part = true := by
  cases hpart with
  | schema => exact h
  | item hmem =>
    rw [PluginCodegen.plain] at h
    exact plain_of_item h hmem
  | named hmem =>
    rw [PluginCodegen.plain, Bool.and_eq_true] at h
    exact plainEntry_within (plain_of_member h.2 hmem)

theorem Reached.plain (h : Reached V S root place) (hplain : PluginCodegen.plain S = true) :
    root = S ∧ PluginCodegen.plain place = true := by
  induction h with
  | root => exact ⟨rfl, hplain⟩
  | part _ hmem _ hpart ih =>
    obtain ⟨rfl, hobj⟩ := ih
    have hmembers := hobj
    rw [PluginCodegen.plain, Bool.and_eq_true] at hmembers
    exact ⟨document_of_plain _ hobj,
      hpart.plain (plainEntry_within (plain_of_member hmembers.2 hmem))⟩
  | target _ _ _ _ hresolve ih =>
    obtain ⟨rfl, hobj⟩ := ih
    rw [document_of_plain _ hobj, Validator.resolve] at hresolve
    exact follow_plain hplain hresolve

theorem faithful_of_plain (h : plain S = true) : Faithful V S := by
  intro root members hreached
  obtain ⟨rfl, hobj⟩ := hreached.plain h
  rw [document_of_plain _ hobj]
  rw [plain, Bool.and_eq_true] at hobj
  constructor
  · intro key value hmem hkind
    have hentry := plain_of_member hobj.2 hmem
    rw [plainEntry, Bool.and_eq_true, Bool.and_eq_true] at hentry
    simpa [hkind] using hentry.1.2
  · intro key ref hmem hkind
    have hentry := plain_of_member hobj.2 hmem
    rw [plainEntry, Bool.and_eq_true] at hentry
    obtain ⟨hkey, hlocal⟩ : key = "$ref" ∧ isLocal ref = true := by
      simpa [isOtherReference, hkind] using hentry.2
    exact ⟨hkey, hlocal, identified_of_plain h⟩

/-! ## The emitted plugin -/

/-- The payload schema of the tool's operation accepts the arguments that its input schema does. -/
def Preserves (V : Validator ρ) (plugin : GeneratedPlugin) (tool : McpToolDefinition) : Prop :=
  ∃ operation, plugin.operations.lookup tool.name = some operation ∧
    ∀ arguments : List (String × Json),
      Accepts V operation.executionPayloadSchema (payload tool.name arguments) ↔
        Accepts V tool.inputSchema (.obj arguments)

/-- A tool is found under its name in what is made of each tool. -/
theorem lookup_named {β : Type} {f : McpToolDefinition → β} {tools : List McpToolDefinition}
    (hnodup : (tools.map (·.name)).Nodup) (hmem : tool ∈ tools) :
    (tools.map fun tool => (tool.name, f tool)).lookup tool.name = some (f tool) := by
  induction tools with
  | nil => cases hmem
  | cons first rest ih =>
    rw [List.map_cons, List.nodup_cons] at hnodup
    rw [List.map_cons, List.lookup_cons]
    cases hmem with
    | head => rw [beq_self_eq_true]
    | tail _ hmem =>
      have hne : (tool.name == first.name) = false := by
        rw [beq_eq_false_iff_ne]
        intro heq
        exact hnodup.1 (heq ▸ List.mem_map_of_mem hmem)
      rw [hne]
      exact ih hnodup.2 hmem

theorem generatePlugin_operation {digest : List McpToolDefinition → String}
    {tools : List McpToolDefinition} {protocolVersion : String} {plugin : GeneratedPlugin}
    (h : generatePlugin digest tools protocolVersion = some plugin) (hmem : tool ∈ tools) :
    plugin.operations.lookup tool.name = some (generateOperation tool) := by
  obtain ⟨hash, hhash, rfl⟩ := Option.map_eq_some_iff.mp h
  rw [computeToolSurfaceHash] at hhash
  split at hhash
  · rename_i hnodup
    exact lookup_named hnodup hmem
  · cases hhash

/-- A schema that wants one local reference, as data. -/
def constantReference (ref : String) : Json := .obj [("const", .obj [("$ref", .str ref)])]

theorem rebaseReference_ne {ref : String} (h : isLocal ref = true) :
    rebaseReference argumentsPointer ref ≠ ref := by
  intro heq
  have hlength := congrArg (fun text => text.toList.length) heq
  simp only [rebaseReference_toList h, List.length_append, List.length_drop] at hlength
  rw [show argumentsPointer.toList.length = 22 from rfl] at hlength
  omega

/-- That data is another in the payload schema. -/
theorem constantReference_rejected (hV : Lawful V) {ref : String} (hlocal : isLocal ref = true)
    (hschema : tool.inputSchema = constantReference ref) :
    Accepts V tool.inputSchema (.obj [("$ref", .str ref)]) ∧
      ¬ Accepts V (executionPayloadSchema tool) (payload tool.name [("$ref", .str ref)]) := by
  have haccepted : ∀ n, V.accepted (V.meaning (n + 1) tool.inputSchema tool.inputSchema
      (.obj [("$ref", .str ref)])) = true := by
    intro n
    rw [hschema]
    refine (hV.constant (.obj [("$ref", .str ref)]) (.obj [("$ref", .str ref)])).trans ?_
    simp [JsonSchema.deepEquals, JsonSchema.equalMembers]
  have hrejected : ∀ n, V.accepted (V.meaning (n + 2) (executionPayloadSchema tool)
      (executionPayloadSchema tool) (payload tool.name [("$ref", .str ref)])) = false := by
    intro n
    rw [payload_accepted hV, hschema]
    refine (hV.constant (.obj [("$ref", .str (rebaseReference argumentsPointer ref))])
      (.obj [("$ref", .str ref)])).trans ?_
    simp [JsonSchema.deepEquals, JsonSchema.equalMembers, rebaseReference_ne hlocal]
  constructor
  · refine ⟨1, fun n hn => ?_⟩
    obtain ⟨k, rfl⟩ : ∃ k, n = k + 1 := ⟨n - 1, by omega⟩
    exact haccepted k
  · rintro ⟨enough, h⟩
    exact Bool.false_ne_true ((hrejected enough).symm.trans (h (enough + 2) (by omega)))

theorem generatePlugin_preserves (hV : Lawful V) {digest : List McpToolDefinition → String}
    {tools : List McpToolDefinition} {protocolVersion : String} {plugin : GeneratedPlugin}
    (hplugin : generatePlugin digest tools protocolVersion = some plugin) :
    (∀ tool ∈ tools, Faithful V tool.inputSchema → Preserves V plugin tool) ∧
      ∀ tool ∈ tools, ∀ ref, isLocal ref = true → tool.inputSchema = constantReference ref →
        ¬ Preserves V plugin tool := by
  constructor
  · intro tool hmem hfaithful
    exact ⟨generateOperation tool, generatePlugin_operation hplugin hmem,
      accepts_payload hV hfaithful⟩
  · rintro tool hmem ref hlocal hschema ⟨operation, hoperation, hsame⟩
    obtain rfl : generateOperation tool = operation := by
      rw [generatePlugin_operation hplugin hmem] at hoperation
      exact Option.some.inj hoperation
    obtain ⟨haccepted, hrejected⟩ := constantReference_rejected hV hlocal hschema
    exact hrejected ((hsame _).mpr haccepted)

/-! ## A validator of the listed keywords -/

def valueAccepts (key : String) (value data : Json) : Bool :=
  if key = "type" then JsonSchema.typeAccepts (.json data) (some value)
  else if key = "const" then JsonSchema.deepEquals value data
  else match value, data with
    | .arr values, .obj members =>
      if key = "required" then values.all fun name => match name with
        | .str name => (members.lookup name).isSome
        | _ => true
      else key != "enum" || values.any (JsonSchema.deepEquals · data)
    | .arr values, _ => key != "enum" || values.any (JsonSchema.deepEquals · data)
    | _, _ => true

def schemaAccepts (key : String) (declared : List String) (meaning : Json → Bool) (data : Json) :
    Bool :=
  if key = "not" then !meaning data
  else match data with
    | .arr items => key != "items" || items.all meaning
    | .obj members => key != "additionalProperties" ||
        members.all fun member => declared.contains member.1 || meaning member.2
    | _ => true

def schemasAccept (key : String) (meanings : List (Json → Bool)) (data : Json) : Bool :=
  if key = "allOf" then meanings.all fun meaning => meaning data
  else if key = "anyOf" then meanings.any fun meaning => meaning data
  else key != "oneOf" || meanings.countP (fun meaning => meaning data) == 1

def namedAccept (key : String) (meanings : List (String × (Json → Bool))) : Json → Bool
  | .obj members => key != "properties" ||
      meanings.all fun property => (members.lookup property.1).all property.2
  | _ => true

def operandAccepts (declared : List String) (data : Json) (key : String) : Operand Bool → Bool
  | .schema meaning => schemaAccepts key declared meaning data
  | .schemas meanings => schemasAccept key meanings data
  | .named meanings => namedAccept key meanings data
  | .reference meaning => meaning data
  | .value value => valueAccepts key value data
  | .malformed => false

/-- The names under `properties`. -/
def declaredNames (operands : List (String × Operand Bool)) : List String :=
  match operands.lookup "properties" with
  | some (.named meanings) => meanings.map (·.1)
  | _ => []

def listedKeywords : Validator Bool where
  interpret operands data := operands.all fun operand =>
    operandAccepts (declaredNames operands) data operand.1 operand.2
  boolean b _ := b
  malformed _ := false
  dangling _ := false
  elsewhere _ _ _ := false
  exhausted _ := false
  decode token := String.ofList
    (PolicyEngine.replaceEscape '0' '~' (PolicyEngine.replaceEscape '1' '/' token))
  accepted := id

theorem listedKeywords_lawful : Lawful listedKeywords where
  properties_decoded := by decide
  arguments_decoded := by decide
  constant value data := by
    simp [listedKeywords, operandAccepts, valueAccepts]
  closed onName onArguments onOthers name arguments := by
    simp [listedKeywords, operandAccepts, valueAccepts, schemaAccepts, namedAccept, declaredNames,
      JsonSchema.typeAccepts, JsonSchema.hasType, List.lookup_cons]

/-- A tool with shared and recursive schemas. -/
def addReferenceVariable : McpToolDefinition where
  name := "add_reference_variable"
  inputSchema := .obj [("type", .str "object"),
    ("$defs", .obj [("ReferenceVariable", .obj [("type", .str "object"),
      ("properties", .obj [("name", .obj [("type", .str "string")])])])]),
    ("properties", .obj [
      ("variables", .obj [("type", .str "array"),
        ("items", .obj [("$ref", .str "#/$defs/ReferenceVariable")])]),
      ("recursive", .obj [("$ref", .str "#")])])]

theorem generatePlugin_preserves_references :
    ∃ plugin, generatePlugin (fun _ => "") [addReferenceVariable] "2025-06-18" = some plugin ∧
      Preserves listedKeywords plugin addReferenceVariable := by
  have hplugin : generatePlugin (fun _ => "") [addReferenceVariable] "2025-06-18" = some _ := rfl
  exact ⟨_, hplugin, (generatePlugin_preserves listedKeywords_lawful hplugin).1
    addReferenceVariable List.mem_cons_self (faithful_of_plain (by decide))⟩

/-- A tool that takes a reference as an argument. -/
def setSchema : McpToolDefinition where
  name := "set_schema"
  inputSchema := .obj [("type", .str "object"),
    ("properties", .obj [("schema", .obj [("enum", .arr [
      .obj [("$ref", .str "#/$defs/User")], .obj [("$ref", .str "#/$defs/Group")]])])]),
    ("required", .arr [.str "schema"])]

def setSchemaArguments : List (String × Json) :=
  [("schema", .obj [("$ref", .str "#/$defs/User")])]

theorem generatePlugin_alters_enum :
    ∃ plugin, generatePlugin (fun _ => "") [setSchema] "2025-06-18" = some plugin ∧
      ∃ operation, plugin.operations.lookup "set_schema" = some operation ∧
        Accepts listedKeywords setSchema.inputSchema (.obj setSchemaArguments) ∧
        ¬ Accepts listedKeywords operation.executionPayloadSchema
          (payload "set_schema" setSchemaArguments) := by
  have haccepted : ∀ n, listedKeywords.meaning (n + 3) setSchema.inputSchema setSchema.inputSchema
      (.obj setSchemaArguments) = true := fun _ => rfl
  have hrejected : ∀ n, listedKeywords.meaning (n + 4) (executionPayloadSchema setSchema)
      (executionPayloadSchema setSchema) (payload "set_schema" setSchemaArguments) = false :=
    fun _ => rfl
  refine ⟨_, rfl, generateOperation setSchema, rfl, ⟨3, fun n hn => ?_⟩, ?_⟩
  · obtain ⟨k, rfl⟩ : ∃ k, n = k + 3 := ⟨n - 3, by omega⟩
    exact haccepted k
  · rintro ⟨enough, h⟩
    exact Bool.false_ne_true ((hrejected enough).symm.trans (h (enough + 4) (by omega)))

end Mpas.PluginCodegen
