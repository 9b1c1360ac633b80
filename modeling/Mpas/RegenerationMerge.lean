import Mathlib.Data.List.Nodup
import Mpas.BridgeGenerator
import Mpas.PluginCodegen

/-!
# Merging a regeneration

What a run of the generator makes of the files of the last one and of the edits
since. Reviewed data are looked up by the name of a tool in plain objects, and
under some names every object has something that is not its own.

* `runGenerate_ok_iff`: when a run succeeds, and the files it leaves;
* `runGenerate_files`: it is a run of `BridgeGenerator` in which nothing fails;
* `Exact`: what a merge keeps of the files before it;
* `outcome_again`: what a second run makes of the files it finds;
* `regeneration_exact_iff`: the runs whose merge is exact.
-/

namespace Mpas.RegenerationMerge

open PluginCodegen
open Checks (throwIf)

/-! ## Plain objects -/

/-- What an object has under a name. -/
inductive Property (α : Type)
  | own (value : α)
  /-- of every object; it has none of the fields that are read here -/
  | inherited
  deriving DecidableEq

variable {α : Type}

/-- `members[name]` of an object that was read. -/
def property (members : List (String × α)) (name : String) : Option (Property α) :=
  match members.lookup name with
  | some value => some (.own value)
  | none => if JsonSchema.inheritedNames.contains name then some .inherited else none

/-- An object that is filled by assignments. -/
structure Table (α : Type) where
  members : List (String × Property α)
  prototype : Property α

def Table.empty : Table α := ⟨[], .inherited⟩

/-- `table[name] = value`. -/
def Table.assign (table : Table α) (name : String) (value : Property α) : Table α :=
  if name = "__proto__" then { table with prototype := value }
  else if (table.members.lookup name).isSome then
    { table with members := table.members.map fun member =>
        if member.1 = name then (name, value) else member }
  else { table with members := table.members ++ [(name, value)] }

/-- `table[name]`. -/
def Table.get (table : Table α) (name : String) : Option (Property α) :=
  match table.members.lookup name with
  | some value => some value
  | none =>
    if name = "__proto__" then some table.prototype
    else if JsonSchema.inheritedNames.contains name then some .inherited else none

def Property.own? : Property α → Option α
  | .own value => some value
  | .inherited => none

/-- The members that are written to a file. -/
def Table.written (table : Table α) : List (String × α) :=
  table.members.filterMap fun member => member.2.own?.map (member.1, ·)

/-! ## Files -/

structure Snapshot where
  toolSurface : HashObject
  tools : List McpToolDefinition
  deriving DecidableEq

structure ClassificationEntry where
  impact : Impact
  rationale : String
  deriving DecidableEq

structure ClassificationDraft where
  draft : Bool
  operations : List (String × ClassificationEntry)
  deriving DecidableEq

/-- `Partial<GeneratedPlugin>` -/
structure PluginFile where
  pluginDid : Option String
  pluginVersion : Option String
  publisherDid : Option String
  applicationDid : Option String
  protocolVersion : Option String
  credentialRequirements : Option Json
  toolSurface : Option ToolSurface
  operations : Option (List (String × Operation))
  deriving DecidableEq

structure IntentionalDeviations where
  renamedTools : Option Json
  wrappedSchemas : Option Json
  modifiedDescriptions : Option Json
  addedTools : Option (List String)
  outputSchemaUnions : Option (List String)
  extensionCapabilities : Option (List String)
  protocolModes : Option Json
  note : Option String
  deriving DecidableEq

structure HarnessConfig where
  command : String
  args : List String
  env : Option Json
  intentionalDeviations : Option IntentionalDeviations
  deriving DecidableEq

structure DiscoveryMetadata where
  serverName : String
  serverVersion : Option String
  protocolVersion : String
  upstreamCommand : List String
  generatorVersion : String
  capturedAt : String
  deriving DecidableEq

structure Publisher where
  name : String
  githubOrg : String
  publisherDid : Option String := none
  repository : Option String := none
  deriving DecidableEq

structure RegisteredApplication where
  name : String
  description : String
  applicationDid : String
  website : Option String := none
  deriving DecidableEq

structure OrgConfig where
  publisher : Publisher
  application : RegisteredApplication
  deriving DecidableEq

structure RegistryEntry where
  application : RegisteredApplication
  upstreamName : String
  protocolVersion : String
  toolSurface : HashObject
  repository : String
  artifactDid : String
  publisher : Publisher
  deriving DecidableEq

/-- The files under `bridge/`. -/
structure Bridge where
  index : String
  toolsJson : String
  workflowStore : String
  packageJson : String
  tsconfig : String
  readme : String
  deriving DecidableEq

/-- `applications/<name>/`; `none` of a file that does not exist. -/
@[ext]
structure Directory where
  snapshot : Option Snapshot := none
  metadata : Option DiscoveryMetadata := none
  classification : Option ClassificationDraft := none
  plugin : Option PluginFile := none
  harnessConfig : Option HarnessConfig := none
  registryEntry : Option RegistryEntry := none
  bridge : Option Bridge := none
  changelog : Option String := none
  deriving DecidableEq

structure UpstreamInfo where
  command : String
  args : List String
  serverName : String
  serverVersion : Option String
  protocolVersion : String
  tools : List McpToolDefinition
  deriving DecidableEq

/-- `orgConfig`: what `loadOrgConfig` returns. -/
structure GenerateOptions where
  appName : String
  applicationDid : Option String := none
  orgConfig : Option OrgConfig := none

/-- The functions whose results are written as they are. -/
structure Generators where
  /-- the SHA-256 of the canonical text of the tools -/
  digest : List McpToolDefinition → String
  computeArtifactDid : GeneratedPlugin → String
  bridge : String → UpstreamInfo → Except String Bridge

def GENERATOR_VERSION : String := "0.2.0"

/-! ## Classification -/

def classifyTool (tool : McpToolDefinition) : ClassificationEntry :=
  if tool.destructive then ⟨.critical, "mcp-annotation: destructiveHint=true"⟩
  else ⟨inferImpact tool.name, "name-heuristic"⟩

/-- A classification before it is written. -/
structure Classification where
  draft : Bool
  operations : Table ClassificationEntry

def buildClassificationDraft (tools : List McpToolDefinition) : Classification where
  draft := true
  operations := (sortTools tools).foldl
    (fun operations tool => operations.assign tool.name (.own (classifyTool tool))) .empty

def mergeEntry (existing : ClassificationDraft) (merged : Table ClassificationEntry × Bool)
    (tool : McpToolDefinition) : Table ClassificationEntry × Bool :=
  match property existing.operations tool.name with
  | some kept => (merged.1.assign tool.name kept, merged.2)
  | none => (merged.1.assign tool.name (.own (classifyTool tool)), true)

def mergeClassificationDraft (existing : ClassificationDraft) (tools : List McpToolDefinition) :
    Classification :=
  let (operations, addedUnreviewed) :=
    (sortTools tools).foldl (mergeEntry existing) (.empty, false)
  ⟨existing.draft || addedUnreviewed, operations⟩

def mergedClassification (existing : Option ClassificationDraft) (tools : List McpToolDefinition) :
    Classification :=
  match existing with
  | none => buildClassificationDraft tools
  | some existing => mergeClassificationDraft existing tools

def Classification.file (classification : Classification) : ClassificationDraft :=
  ⟨classification.draft, classification.operations.written⟩

/-! ## Harness configuration -/

def TASKS_EXTENSIONS : List String := ["io.modelcontextprotocol/tasks", "org.oma3/mpas"]

def strings (values : List String) : Json := .arr (values.map .str)

def compatibilityProtocolModes : Json :=
  .obj [
    ("tasks", .obj [("handshake", .str "server/discover"), ("addedTools", .arr []),
      ("modifiedDescriptions", .arr []), ("outputSchemaUnions", .arr []),
      ("extensionCapabilities", strings TASKS_EXTENSIONS)]),
    ("compatibility", .obj [("handshake", .str "initialize"),
      ("addedTools", strings ["mpas_wait_for_action_result"]),
      ("modifiedDescriptions", strings ["application-tools"]),
      ("outputSchemaUnions", strings ["application-tools-with-output-schema"]),
      ("extensionCapabilities", .arr [])])]

def HARNESS_NOTE : String :=
  "The bridge auto-detects MCP Tasks or the conventional MPAS wait-tool compatibility surface. Tasks mode preserves upstream tool definitions."

/-- The generated fields beside three that may be manual. -/
def deviations (renamedTools wrappedSchemas modifiedDescriptions : Json) : IntentionalDeviations where
  renamedTools := some renamedTools
  wrappedSchemas := some wrappedSchemas
  modifiedDescriptions := some modifiedDescriptions
  addedTools := some []
  outputSchemaUnions := some []
  extensionCapabilities := some TASKS_EXTENSIONS
  protocolModes := some compatibilityProtocolModes
  note := some HARNESS_NOTE

def buildHarnessConfig (upstream : UpstreamInfo) : HarnessConfig :=
  ⟨upstream.command, upstream.args, none, some (deviations (.obj []) (.arr []) (.arr []))⟩

def mergeHarnessConfig (existing : HarnessConfig) (upstream : UpstreamInfo) : HarnessConfig :=
  let manual := existing.intentionalDeviations
  let legacyMpasProfile := ((manual.bind (·.addedTools)).map
    (·.contains "mpas_wait_for_action_result")).getD false
  ⟨upstream.command, upstream.args, existing.env.filter Json.truthy,
    some (deviations (Json.nullish (manual.bind (·.renamedTools)) (.obj []))
      (Json.nullish (manual.bind (·.wrappedSchemas)) (.arr []))
      (if legacyMpasProfile then .arr []
        else Json.nullish (manual.bind (·.modifiedDescriptions)) (.arr [])))⟩

def mergedHarnessConfig (existing : Option HarnessConfig) (upstream : UpstreamInfo) :
    HarnessConfig :=
  match existing with
  | none => buildHarnessConfig upstream
  | some existing => mergeHarnessConfig existing upstream

/-! ## Plugin -/

def selectGovernedTools (tools : List McpToolDefinition) (previousPlugin : Option PluginFile)
    (previousSnapshot : Option Snapshot) : List McpToolDefinition :=
  match previousPlugin with
  | none => tools
  | some plugin =>
    let previousOperations := (plugin.operations.getD []).map (·.1)
    match previousSnapshot with
    | none => tools.filter fun tool => previousOperations.contains tool.name
    | some snapshot =>
      let previousSurface := snapshot.tools.map (·.name)
      tools.filter fun tool =>
        previousOperations.contains tool.name || !previousSurface.contains tool.name

def ALLOWED_REQUIREMENT_MEMBERS : List String :=
  ["type", "expectedAuthority", "refreshScope", "description"]

def isString : Json → Bool
  | .str _ => true
  | _ => false

def isStringArray : Json → Bool
  | .arr items => items.all isString
  | _ => false

def isNonEmptyString : Json → Bool
  | .str text => text != ""
  | _ => false

def requirementMessage (index : Nat) (rest : String) : String :=
  "plugin credentialRequirements[" ++ toString index ++ "]" ++ rest

def validateRequirement (item : Json) (index : Nat) : Except String Unit :=
  match item with
  | .obj requirement =>
    match (requirement.map (·.1)).find? fun key => !ALLOWED_REQUIREMENT_MEMBERS.contains key with
    | some unexpected =>
      .error (requirementMessage index (" contains undeclared member " ++ unexpected ++ "."))
    | none =>
      if !(requirement.lookup "type").any isString then
        .error (requirementMessage index ".type must be a string.")
      else if !(requirement.lookup "expectedAuthority").all isStringArray then
        .error (requirementMessage index ".expectedAuthority must be a string array.")
      else if !(requirement.lookup "refreshScope").all isNonEmptyString then
        .error (requirementMessage index ".refreshScope must be a non-empty string.")
      else if !(requirement.lookup "description").all isString then
        .error (requirementMessage index ".description must be a string.")
      else .ok ()
  | _ => .error (requirementMessage index " must be an object.")

def validateRequirements : List Json → Nat → Except String Unit
  | [], _ => .ok ()
  | item :: rest, index => do
    validateRequirement item index
    validateRequirements rest (index + 1)

def validateCredentialRequirements (value : Json) : Except String (List Json) :=
  match value with
  | .arr items => do
    validateRequirements items 0
    return items
  | _ => .error "plugin credentialRequirements must be an array."

/-- The identity fields of the plugin there was. -/
def mergeIdentity (previous : Option PluginFile) (requirements : Option (List Json))
    (plugin : GeneratedPlugin) : GeneratedPlugin :=
  match previous with
  | none => plugin
  | some previous =>
    { plugin with
      pluginDid := previous.pluginDid.getD plugin.pluginDid
      pluginVersion := previous.pluginVersion.getD plugin.pluginVersion
      publisherDid := previous.publisherDid.getD plugin.publisherDid
      applicationDid := previous.applicationDid.getD plugin.applicationDid
      credentialRequirements := requirements.getD plugin.credentialRequirements }

def overrideApplicationDid (options : GenerateOptions) (plugin : GeneratedPlugin) :
    GeneratedPlugin :=
  match options.applicationDid <|> options.orgConfig.map (·.application.applicationDid) with
  | none => plugin
  | some applicationDid =>
    if applicationDid = "" then plugin else { plugin with applicationDid := applicationDid }

/-- `previousPlugin?.operations?.[name]?.impact` -/
def previousImpact (previous : Option PluginFile) (name : String) : Option Impact :=
  match (previous.bind (·.operations)).bind (property · name) with
  | some (.own operation) => operation.impact
  | _ => none

def mergeImpact (previous : Option PluginFile) (classification : Classification) (name : String)
    (operation : Operation) : Operation :=
  match previousImpact previous name with
  | some impact => { operation with impact := some impact }
  | none =>
    match classification.operations.get name with
    | some (.own entry) => { operation with impact := some entry.impact }
    | some .inherited => { operation with impact := none }
    | none => operation

def mergeImpacts (previous : Option PluginFile) (classification : Classification)
    (plugin : GeneratedPlugin) : GeneratedPlugin :=
  { plugin with operations := plugin.operations.map fun entry =>
      (entry.1, mergeImpact previous classification entry.1 entry.2) }

def pluginFile (plugin : GeneratedPlugin) : PluginFile where
  pluginDid := some plugin.pluginDid
  pluginVersion := some plugin.pluginVersion
  publisherDid := some plugin.publisherDid
  applicationDid := some plugin.applicationDid
  protocolVersion := some plugin.protocolVersion
  credentialRequirements := some (.arr plugin.credentialRequirements)
  toolSurface := some plugin.toolSurface
  operations := some plugin.operations

/-! ## Registry entry -/

def buildRegistryEntry (options : GenerateOptions) (upstream : UpstreamInfo)
    (applicationDid artifactDid : String) (toolSurface : HashObject) : RegistryEntry where
  application := match options.orgConfig with
    | some orgConfig => orgConfig.application
    | none =>
      { name := options.appName
        description := "MPAS-protected " ++ options.appName ++ " via " ++ upstream.serverName ++
          ". PLACEHOLDER: review before submitting."
        applicationDid := applicationDid }
  upstreamName := upstream.serverName
  protocolVersion := upstream.protocolVersion
  toolSurface := toolSurface
  repository := "PLACEHOLDER: URL to the published plugin.json"
  artifactDid := artifactDid
  publisher := match options.orgConfig with
    | some orgConfig => orgConfig.publisher
    | none => { name := "PLACEHOLDER", githubOrg := "PLACEHOLDER" }

def missingFields (entry : RegistryEntry) : List String :=
  [(entry.application.name, "application.name"),
    (entry.application.description, "application.description"),
    (entry.application.applicationDid, "application.applicationDid"),
    (entry.repository, "plugin.repository"), (entry.publisher.name, "publisher.name"),
    (entry.publisher.githubOrg, "publisher.githubOrg")].filterMap fun field =>
      if field.1 = "" then some field.2 else none

def validateRegistryEntry (entry : RegistryEntry) : Except String Unit :=
  if missingFields entry = [] then .ok ()
  else .error ("Registry entry is missing required fields: " ++
    ", ".intercalate (missingFields entry))

/-! ## A run -/

/-- `/^[a-z][a-z0-9-]*$/` -/
def appNameMatches (name : String) : Bool :=
  match name.toList with
  | [] => false
  | c :: rest =>
    (decide ('a' ≤ c) && decide (c ≤ 'z')) &&
      rest.all fun c => (decide ('a' ≤ c) && decide (c ≤ 'z')) || c.isDigit || c == '-'

def buildDiscoveryMetadata (upstream : UpstreamInfo) (capturedAt : String) : DiscoveryMetadata where
  serverName := upstream.serverName
  serverVersion := upstream.serverVersion.filter (· ≠ "")
  protocolVersion := upstream.protocolVersion
  upstreamCommand := upstream.command :: upstream.args
  generatorVersion := GENERATOR_VERSION
  capturedAt := capturedAt

def readRequirements (app : Directory) : Except String (Option (List Json)) :=
  match app.plugin.bind (·.credentialRequirements) with
  | none => .ok none
  | some value => (validateCredentialRequirements value).map some

def orThrow (message : String) : Option α → Except String α
  | some value => .ok value
  | none => .error message

def mergePlugin (options : GenerateOptions) (upstream : UpstreamInfo) (app : Directory)
    (requirements : Option (List Json)) (generated : GeneratedPlugin) : GeneratedPlugin :=
  mergeImpacts app.plugin (mergedClassification app.classification upstream.tools)
    (overrideApplicationDid options (mergeIdentity app.plugin requirements generated))

/-- What a run writes; a changelog is created once. -/
def artifacts (options : GenerateOptions) (upstream : UpstreamInfo) (capturedAt : String)
    (app : Directory) (toolSurface : HashObject) (plugin : GeneratedPlugin) (entry : RegistryEntry)
    (bridge : Bridge) : Directory where
  snapshot := some ⟨toolSurface, sortTools upstream.tools⟩
  metadata := some (buildDiscoveryMetadata upstream capturedAt)
  classification := some (mergedClassification app.classification upstream.tools).file
  plugin := some (pluginFile plugin)
  harnessConfig := some (mergedHarnessConfig app.harnessConfig upstream)
  registryEntry := some entry
  bridge := some bridge
  changelog := some (app.changelog.getD ("# Changelog — " ++ options.appName ++
    "\n\nRecord manual review decisions and regenerations here.\n"))

/-- The files after a run without `.generator-keep`; `capturedAt` is the time
where the options have none. -/
def runGenerate (G : Generators) (options : GenerateOptions) (upstream : UpstreamInfo)
    (capturedAt : String) (app : Directory) : Except String Directory := do
  throwIf (appNameMatches options.appName = false)
    ("Invalid --app name \"" ++ options.appName ++ "\" (lowercase, hyphenated).")
  let requirements ← readRequirements app
  let toolSurface ← orThrow "Duplicate tool names"
    (computeToolSurfaceHash G.digest (sortTools upstream.tools))
  let generated ← orThrow "Duplicate tool names" (generatePlugin G.digest
    (selectGovernedTools (sortTools upstream.tools) app.plugin app.snapshot)
    upstream.protocolVersion)
  let plugin := mergePlugin options upstream app requirements
    { generated with toolSurface := ⟨toolSurface, (sortTools upstream.tools).map (·.name)⟩ }
  let entry := buildRegistryEntry options upstream plugin.applicationDid
    (G.computeArtifactDid plugin) toolSurface
  validateRegistryEntry entry
  let bridge ← G.bridge options.appName upstream
  return artifacts options upstream capturedAt app toolSurface plugin entry bridge

/-! ## Tables that are filled once -/

def Table.of (entries : List (String × Property α)) : Table α :=
  ⟨entries.filter fun entry => entry.1 != "__proto__",
    (entries.lookup "__proto__").getD .inherited⟩

theorem lookup_none_of_not_mem {β : Type} {members : List (String × β)} {name : String}
    (h : name ∉ members.map (·.1)) : members.lookup name = none := by
  refine List.lookup_eq_none_iff.mpr fun member hmember => ?_
  rw [bne_iff_ne]
  rintro rfl
  exact h (List.mem_map_of_mem hmember)

theorem foldl_assign (entries : List (String × Property α)) (table : Table α)
    (hnodup : (entries.map (·.1)).Nodup)
    (hfresh : ∀ entry ∈ entries, entry.1 ∉ table.members.map (·.1)) :
    entries.foldl (fun table entry => table.assign entry.1 entry.2) table =
      ⟨table.members ++ entries.filter fun entry => entry.1 != "__proto__",
        (entries.lookup "__proto__").getD table.prototype⟩ := by
  induction entries generalizing table with
  | nil => simp
  | cons entry rest ih =>
    obtain ⟨name, value⟩ := entry
    rw [List.map_cons, List.nodup_cons] at hnodup
    rw [List.foldl_cons]
    by_cases hname : name = "__proto__"
    · have hassign : table.assign name value = { table with prototype := value } := if_pos hname
      have hrest : rest.lookup "__proto__" = none := by
        rw [← hname]
        exact lookup_none_of_not_mem hnodup.1
      rw [hassign]
      refine (ih { table with prototype := value } hnodup.2
        fun entry hmem => hfresh entry (.tail _ hmem)).trans ?_
      simp [hname, hrest]
    · have hlook : table.members.lookup name = none :=
        lookup_none_of_not_mem (hfresh _ List.mem_cons_self)
      have hassign : table.assign name value =
          { table with members := table.members ++ [(name, value)] } := by
        simp [Table.assign, hname, hlook]
      have hne : ("__proto__" == name) = false := by simpa using Ne.symm hname
      rw [hassign, ih _ hnodup.2]
      · simp [hname, List.lookup_cons, hne]
      · intro entry hmem
        rw [List.map_append, List.mem_append, not_or]
        refine ⟨hfresh entry (.tail _ hmem), ?_⟩
        intro heq
        rw [List.map_cons, List.map_nil, List.mem_singleton] at heq
        exact hnodup.1 (heq ▸ List.mem_map_of_mem hmem)

section

variable {xs : List McpToolDefinition} {value : McpToolDefinition → Property α}

def named (value : McpToolDefinition → Property α) (tool : McpToolDefinition) :
    String × Property α :=
  (tool.name, value tool)

theorem lookup_members_of {name : String} (hname : name ≠ "__proto__")
    (entries : List (String × Property α)) :
    (Table.of entries).members.lookup name = entries.lookup name := by
  have hfilter : (entries.filter fun entry => entry.1 != "__proto__").lookup name =
      entries.lookup name := by
    induction entries with
    | nil => rfl
    | cons entry rest ih =>
      rw [List.filter_cons]
      split
      · rw [List.lookup_cons, List.lookup_cons, ih]
      · rename_i hentry
        have hne : (name == entry.1) = false := by
          rw [beq_eq_false_iff_ne]
          intro heq
          exact hname (heq.trans (by simpa using hentry))
        rw [List.lookup_cons, hne, ih]
  exact hfilter

theorem Table.get_of {tool : McpToolDefinition} (hnodup : (xs.map (·.name)).Nodup)
    (hmem : tool ∈ xs) : (Table.of (xs.map (named value))).get tool.name = some (value tool) := by
  have hlook : (xs.map (named value)).lookup tool.name = some (value tool) :=
    lookup_named hnodup hmem
  by_cases hproto : tool.name = "__proto__"
  · have hfiltered : (Table.of (xs.map (named value))).members.lookup tool.name = none := by
      apply lookup_none_of_not_mem
      simp [Table.of, hproto]
    rw [Table.get, hfiltered]
    rw [hproto] at hlook
    simp [Table.of, hproto, hlook]
  · have hfiltered : (Table.of (xs.map (named value))).members.lookup tool.name =
        (xs.map (named value)).lookup tool.name := lookup_members_of hproto _
    rw [Table.get, hfiltered, hlook]

/-- What becomes of the tool's entry in a file. -/
def writtenEntry (value : McpToolDefinition → Property α) (tool : McpToolDefinition) : Option α :=
  if tool.name = "__proto__" then none else (value tool).own?

theorem Table.written_of : (Table.of (xs.map (named value))).written =
    xs.filterMap fun tool => (writtenEntry value tool).map (tool.name, ·) := by
  rw [Table.written, Table.of]
  induction xs with
  | nil => rfl
  | cons tool rest ih =>
    rw [List.map_cons, List.filter_cons, List.filterMap_cons, writtenEntry]
    by_cases hproto : tool.name = "__proto__"
    · simpa [named, hproto] using ih
    · simp only [named, bne_iff_ne, ne_eq, hproto, not_false_eq_true, if_true, if_false,
        List.filterMap_cons]
      rw [← ih]

theorem lookup_written {tool : McpToolDefinition} (hnodup : (xs.map (·.name)).Nodup)
    (hmem : tool ∈ xs) :
    (Table.of (xs.map (named value))).written.lookup tool.name = writtenEntry value tool := by
  rw [Table.written_of]
  induction xs with
  | nil => cases hmem
  | cons first rest ih =>
    rw [List.map_cons, List.nodup_cons] at hnodup
    rw [List.filterMap_cons]
    cases hmem with
    | head =>
      cases hentry : writtenEntry value tool with
      | none =>
        rw [Option.map_none]
        apply lookup_none_of_not_mem
        intro hin
        obtain ⟨entry, hentry, hname⟩ := List.mem_map.mp hin
        obtain ⟨other, hother, hsome⟩ := List.mem_filterMap.mp hentry
        obtain ⟨_, _, rfl⟩ := Option.map_eq_some_iff.mp hsome
        exact hnodup.1 (hname ▸ List.mem_map_of_mem hother)
      | some found => rw [Option.map_some, List.lookup_cons_self]
    | tail _ hmem =>
      have hne : (tool.name == first.name) = false := by
        rw [beq_eq_false_iff_ne]
        intro heq
        exact hnodup.1 (heq ▸ List.mem_map_of_mem hmem)
      cases writtenEntry value first with
      | none => exact ih hnodup.2 hmem
      | some found =>
        rw [Option.map_some, List.lookup_cons, hne]
        exact ih hnodup.2 hmem

end

/-! ## The merged classification -/

theorem sortTools_perm (tools : List McpToolDefinition) : (sortTools tools).Perm tools :=
  List.mergeSort_perm _ _

theorem mem_sortTools {tool : McpToolDefinition} {tools : List McpToolDefinition} :
    tool ∈ sortTools tools ↔ tool ∈ tools :=
  (sortTools_perm tools).mem_iff

theorem sortTools_nodup {tools : List McpToolDefinition} :
    ((sortTools tools).map (·.name)).Nodup ↔ (tools.map (·.name)).Nodup :=
  ((sortTools_perm tools).map _).nodup_iff

/-- What the merge finds or makes for a tool. -/
def mergedValue (existing : Option ClassificationDraft) (tool : McpToolDefinition) :
    Property ClassificationEntry :=
  (existing.bind fun existing => property existing.operations tool.name).getD
    (.own (classifyTool tool))

theorem foldl_mergeEntry (existing : ClassificationDraft) (tools : List McpToolDefinition)
    (merged : Table ClassificationEntry × Bool) :
    tools.foldl (mergeEntry existing) merged =
      ((tools.map (named (mergedValue (some existing)))).foldl
          (fun table entry => table.assign entry.1 entry.2) merged.1,
        merged.2 || tools.any fun tool => (property existing.operations tool.name).isNone) := by
  induction tools generalizing merged with
  | nil => simp
  | cons tool rest ih =>
    have hstep : mergeEntry existing merged tool =
        (merged.1.assign tool.name (mergedValue (some existing) tool),
          merged.2 || (property existing.operations tool.name).isNone) := by
      rw [mergeEntry, mergedValue, Option.bind_some]
      cases property existing.operations tool.name <;> simp
    rw [List.foldl_cons, ih, hstep, List.map_cons, List.foldl_cons, List.any_cons, Bool.or_assoc]
    rfl

variable {existing : Option ClassificationDraft} {tools : List McpToolDefinition}

theorem mergedClassification_operations (hnodup : (tools.map (·.name)).Nodup) :
    (mergedClassification existing tools).operations =
      .of ((sortTools tools).map (named (mergedValue existing))) := by
  have hkeys : (((sortTools tools).map (named (mergedValue existing))).map (·.1)).Nodup := by
    rw [List.map_map]
    exact sortTools_nodup.mpr hnodup
  have hfilled := foldl_assign _ .empty hkeys fun _ _ => List.not_mem_nil
  cases existing with
  | none =>
    rw [List.foldl_map] at hfilled
    exact hfilled
  | some existing =>
    rw [mergedClassification, mergeClassificationDraft, foldl_mergeEntry]
    exact hfilled

theorem mergedClassification_draft : (mergedClassification existing tools).draft =
    match existing with
    | none => true
    | some existing =>
      existing.draft || tools.any fun tool => (property existing.operations tool.name).isNone := by
  cases existing with
  | none => rfl
  | some existing =>
    rw [mergedClassification, mergeClassificationDraft, foldl_mergeEntry, Bool.false_or]
    dsimp only
    rw [(sortTools_perm tools).any_eq]

theorem file_operations (hnodup : (tools.map (·.name)).Nodup) :
    (mergedClassification existing tools).file.operations =
      (sortTools tools).filterMap fun tool =>
        (writtenEntry (mergedValue existing) tool).map (tool.name, ·) := by
  rw [Classification.file, mergedClassification_operations hnodup, Table.written_of]

theorem file_lookup {tool : McpToolDefinition} (hnodup : (tools.map (·.name)).Nodup)
    (hmem : tool ∈ tools) :
    (mergedClassification existing tools).file.operations.lookup tool.name =
      writtenEntry (mergedValue existing) tool := by
  rw [Classification.file, mergedClassification_operations hnodup]
  exact lookup_written (sortTools_nodup.mpr hnodup) (mem_sortTools.mpr hmem)

theorem property_inherited {members : List (String × α)} {name : String}
    (h : property members name = some .inherited) :
    members.lookup name = none ∧ JsonSchema.inheritedNames.contains name = true := by
  unfold property at h
  split at h
  · cases h
  · split at h
    · rename_i hlook hname
      exact ⟨hlook, hname⟩
    · cases h

theorem property_of_lookup {members : List (String × α)} {name : String} {value : α}
    (h : members.lookup name = some value) : property members name = some (.own value) := by
  rw [property, h]

theorem property_of_inherited {members : List (String × α)} {name : String}
    (hlook : members.lookup name = none) (hname : JsonSchema.inheritedNames.contains name = true) :
    property members name = some .inherited := by
  rw [property, hlook]
  exact if_pos hname

/-- The merge makes an inherited value of a tool only for a classification that has no entry. -/
theorem mergedValue_inherited {tool : McpToolDefinition}
    (h : mergedValue existing tool = .inherited) :
    ∃ previous, existing = some previous ∧ previous.operations.lookup tool.name = none ∧
      JsonSchema.inheritedNames.contains tool.name = true := by
  cases existing with
  | none => cases h
  | some previous =>
    rw [mergedValue, Option.bind_some] at h
    cases hproperty : property previous.operations tool.name with
    | none => rw [hproperty] at h; cases h
    | some found =>
      rw [hproperty, Option.getD_some] at h
      subst h
      exact ⟨previous, rfl, property_inherited hproperty⟩

/-- What a merge finds in the file of the last one. -/
theorem property_again {tool : McpToolDefinition} (hnodup : (tools.map (·.name)).Nodup)
    (hmem : tool ∈ tools) :
    property (mergedClassification existing tools).file.operations tool.name =
      some (if tool.name = "__proto__" then .inherited else mergedValue existing tool) := by
  have hlook : (mergedClassification existing tools).file.operations.lookup tool.name =
      writtenEntry (mergedValue existing) tool := file_lookup hnodup hmem
  rw [writtenEntry] at hlook
  by_cases hproto : tool.name = "__proto__"
  · rw [if_pos hproto] at hlook ⊢
    exact property_of_inherited hlook (by rw [hproto]; decide)
  · rw [if_neg hproto] at hlook ⊢
    cases hvalue : mergedValue existing tool with
    | own value =>
      rw [hvalue] at hlook
      exact property_of_lookup hlook
    | inherited =>
      rw [hvalue] at hlook
      obtain ⟨_, _, _, hname⟩ := mergedValue_inherited hvalue
      exact property_of_inherited hlook hname

theorem mergedValue_again {tool : McpToolDefinition} (hnodup : (tools.map (·.name)).Nodup)
    (hmem : tool ∈ tools) :
    mergedValue (some (mergedClassification existing tools).file) tool =
      if tool.name = "__proto__" then .inherited else mergedValue existing tool := by
  rw [mergedValue, Option.bind_some, property_again hnodup hmem, Option.getD_some]

theorem file_again (hnodup : (tools.map (·.name)).Nodup) :
    (mergedClassification (some (mergedClassification existing tools).file) tools).file =
      (mergedClassification existing tools).file := by
  have hoperations :
      (mergedClassification (some (mergedClassification existing tools).file) tools).file.operations =
        (mergedClassification existing tools).file.operations := by
    rw [file_operations hnodup, file_operations hnodup]
    apply List.filterMap_congr
    intro tool hmem
    rw [writtenEntry, writtenEntry, mergedValue_again hnodup (mem_sortTools.mp hmem)]
    split
    · rfl
    · rfl
  have hdraft :
      (mergedClassification (some (mergedClassification existing tools).file) tools).draft =
        (mergedClassification existing tools).draft := by
    rw [mergedClassification_draft]
    dsimp only
    have hnone : (tools.any fun tool => (property
        (mergedClassification existing tools).file.operations tool.name).isNone) = false := by
      rw [List.any_eq_false]
      intro tool hmem
      rw [property_again hnodup hmem]
      exact Bool.false_ne_true
    rw [hnone, Bool.or_false, Classification.file]
  calc (mergedClassification (some (mergedClassification existing tools).file) tools).file
      = ⟨(mergedClassification existing tools).draft,
          (mergedClassification existing tools).file.operations⟩ := by
        rw [← hoperations, ← hdraft]
        rfl
    _ = (mergedClassification existing tools).file := rfl

/-! ## The files of a run -/

section

variable (G : Generators) (options : GenerateOptions) (upstream : UpstreamInfo)
  (capturedAt : String) (app : Directory)

def surfaceHash : HashObject := ⟨"sha-256", G.digest (sortTools (sortTools upstream.tools))⟩

/-- The plugin of a run, without the hash of its own that is not kept. -/
def generatedPlugin : GeneratedPlugin :=
  { assemblePlugin (surfaceHash G upstream)
      (selectGovernedTools (sortTools upstream.tools) app.plugin app.snapshot)
      upstream.protocolVersion with
    toolSurface := ⟨surfaceHash G upstream, (sortTools upstream.tools).map (·.name)⟩ }

def mergedPlugin (requirements : Option (List Json)) : GeneratedPlugin :=
  mergePlugin options upstream app requirements (generatedPlugin G upstream app)

def mergedEntry (plugin : GeneratedPlugin) : RegistryEntry :=
  buildRegistryEntry options upstream plugin.applicationDid (G.computeArtifactDid plugin)
    (surfaceHash G upstream)

def outcome (plugin : GeneratedPlugin) (bridge : Bridge) : Directory :=
  artifacts options upstream capturedAt app (surfaceHash G upstream) plugin
    (mergedEntry G options upstream plugin) bridge

/-- What a run needs to come to its end, and what it has read and made by then. -/
structure Accepted (requirements : Option (List Json)) (bridge : Bridge) : Prop where
  appName : appNameMatches options.appName = true
  validated : readRequirements app = .ok requirements
  distinct : (upstream.tools.map (·.name)).Nodup
  entry : validateRegistryEntry
    (mergedEntry G options upstream (mergedPlugin G options upstream app requirements)) = .ok ()
  bridge : G.bridge options.appName upstream = .ok bridge

end

/-- Membership is decided by the names of the tools. -/
theorem selectGovernedTools_filter (tools : List McpToolDefinition) (plugin : Option PluginFile)
    (snapshot : Option Snapshot) : ∃ governs : String → Bool,
      selectGovernedTools tools plugin snapshot = tools.filter fun tool => governs tool.name := by
  cases plugin with
  | none => exact ⟨fun _ => true, by simp [selectGovernedTools]⟩
  | some plugin =>
    cases snapshot with
    | none => exact ⟨fun name => ((plugin.operations.getD []).map (·.1)).contains name, rfl⟩
    | some snapshot =>
      exact ⟨fun name => ((plugin.operations.getD []).map (·.1)).contains name ||
        !(snapshot.tools.map (·.name)).contains name, rfl⟩

variable {G : Generators} {options : GenerateOptions} {upstream : UpstreamInfo}
  {capturedAt : String} {app after : Directory}

theorem selectGovernedTools_nodup {plugin : Option PluginFile} {snapshot : Option Snapshot}
    (h : (tools.map (·.name)).Nodup) :
    ((selectGovernedTools tools plugin snapshot).map (·.name)).Nodup := by
  obtain ⟨governs, hgoverned⟩ := selectGovernedTools_filter tools plugin snapshot
  rw [hgoverned]
  exact h.sublist (List.filter_sublist.map _)

theorem computeToolSurfaceHash_of_nodup {digest : List McpToolDefinition → String}
    (h : (tools.map (·.name)).Nodup) :
    computeToolSurfaceHash digest tools = some ⟨"sha-256", digest (sortTools tools)⟩ := by
  rw [computeToolSurfaceHash, if_pos h]

theorem generatePlugin_of_nodup {digest : List McpToolDefinition → String} {version : String}
    (h : (tools.map (·.name)).Nodup) : generatePlugin digest tools version =
      some (assemblePlugin ⟨"sha-256", digest (sortTools tools)⟩ tools version) := by
  rw [generatePlugin, computeToolSurfaceHash_of_nodup h, Option.map_some]

theorem runGenerate_ok_iff : runGenerate G options upstream capturedAt app = .ok after ↔
    ∃ requirements bridge, Accepted G options upstream app requirements bridge ∧
      after = outcome G options upstream capturedAt app
        (mergedPlugin G options upstream app requirements) bridge := by
  have hhash : ∀ {hash : HashObject},
      orThrow "Duplicate tool names" (computeToolSurfaceHash G.digest (sortTools upstream.tools)) =
        .ok hash ↔ (upstream.tools.map (·.name)).Nodup ∧ hash = surfaceHash G upstream := by
    intro hash
    by_cases hnodup : (upstream.tools.map (·.name)).Nodup
    · rw [computeToolSurfaceHash_of_nodup (sortTools_nodup.mpr hnodup), orThrow, Except.ok.injEq]
      exact ⟨fun h => ⟨hnodup, h.symm⟩, fun h => h.2.symm⟩
    · rw [computeToolSurfaceHash, if_neg (fun h => hnodup (sortTools_nodup.mp h)), orThrow]
      exact ⟨(fun h => by cases h), fun h => absurd h.1 hnodup⟩
  have hplugin : (upstream.tools.map (·.name)).Nodup → generatePlugin G.digest
      (selectGovernedTools (sortTools upstream.tools) app.plugin app.snapshot)
      upstream.protocolVersion = some (assemblePlugin
        ⟨"sha-256", G.digest (sortTools
          (selectGovernedTools (sortTools upstream.tools) app.plugin app.snapshot))⟩
        (selectGovernedTools (sortTools upstream.tools) app.plugin app.snapshot)
        upstream.protocolVersion) :=
    fun hnodup => generatePlugin_of_nodup (selectGovernedTools_nodup (sortTools_nodup.mpr hnodup))
  rw [runGenerate, Checks.throwIf_bind_eq_ok]
  simp only [Checks.bind_eq_ok, hhash]
  constructor
  · rintro ⟨hname, requirements, hvalid, _, ⟨hnodup, rfl⟩, generated, hgenerated, _, hentry,
      bridge, hbridge, hafter⟩
    rw [hplugin hnodup, orThrow, Except.ok.injEq] at hgenerated
    subst hgenerated
    refine ⟨requirements, bridge, ⟨by simpa using hname, hvalid, hnodup, hentry, hbridge⟩, ?_⟩
    cases hafter
    rfl
  · rintro ⟨requirements, bridge, haccepted, rfl⟩
    have hgenerated := congrArg (orThrow "Duplicate tool names") (hplugin haccepted.distinct)
    exact ⟨by simpa using haccepted.appName, requirements, haccepted.validated, _,
      ⟨haccepted.distinct, rfl⟩, _, hgenerated, (), haccepted.entry, bridge, haccepted.bridge, rfl⟩

/-! ## The merged plugin -/

def chosenApplicationDid (options : GenerateOptions) (applicationDid : String) : String :=
  match options.applicationDid <|> options.orgConfig.map (·.application.applicationDid) with
  | none => applicationDid
  | some chosen => if chosen = "" then applicationDid else chosen

theorem chosenApplicationDid_again (applicationDid : String) :
    chosenApplicationDid options (chosenApplicationDid options applicationDid) =
      chosenApplicationDid options applicationDid := by
  unfold chosenApplicationDid
  cases options.applicationDid <|> options.orgConfig.map (·.application.applicationDid) with
  | none => rfl
  | some chosen => by_cases hempty : chosen = "" <;> simp [hempty]

theorem overrideApplicationDid_eq (plugin : GeneratedPlugin) :
    overrideApplicationDid options plugin =
      { plugin with applicationDid := chosenApplicationDid options plugin.applicationDid } := by
  unfold overrideApplicationDid chosenApplicationDid
  split
  · rfl
  · split <;> rfl

variable {requirements : Option (List Json)} {bridge : Bridge}

/-- The fields of the generated plugin that are not merged. -/
theorem mergedPlugin_generated :
    (mergedPlugin G options upstream app requirements).protocolVersion = upstream.protocolVersion ∧
      (mergedPlugin G options upstream app requirements).toolSurface =
        (generatedPlugin G upstream app).toolSurface := by
  rw [mergedPlugin, mergePlugin, overrideApplicationDid_eq]
  cases hplugin : app.plugin <;> exact ⟨rfl, rfl⟩

theorem mergedPlugin_applicationDid :
    chosenApplicationDid options (mergedPlugin G options upstream app requirements).applicationDid =
      (mergedPlugin G options upstream app requirements).applicationDid := by
  rw [mergedPlugin, mergePlugin, overrideApplicationDid_eq]
  exact chosenApplicationDid_again _

/-- The operation of a tool after the merge. -/
def mergedOperation (upstream : UpstreamInfo) (app : Directory) (tool : McpToolDefinition) :
    Operation :=
  mergeImpact app.plugin (mergedClassification app.classification upstream.tools) tool.name
    (generateOperation tool)

def governed (upstream : UpstreamInfo) (app : Directory) : List McpToolDefinition :=
  selectGovernedTools (sortTools upstream.tools) app.plugin app.snapshot

theorem mergedPlugin_operations :
    (mergedPlugin G options upstream app requirements).operations =
      (governed upstream app).map fun tool => (tool.name, mergedOperation upstream app tool) := by
  rw [mergedPlugin, mergePlugin, overrideApplicationDid_eq]
  have hgenerated : (mergeIdentity app.plugin requirements
      (generatedPlugin G upstream app)).operations =
        (governed upstream app).map fun tool => (tool.name, generateOperation tool) := by
    cases hplugin : app.plugin <;> rfl
  rw [mergeImpacts]
  dsimp only
  rw [hgenerated, List.map_map]
  rfl

theorem governed_subset {tool : McpToolDefinition} (h : tool ∈ governed upstream app) :
    tool ∈ upstream.tools := by
  obtain ⟨governs, hgoverned⟩ :=
    selectGovernedTools_filter (sortTools upstream.tools) app.plugin app.snapshot
  rw [governed, hgoverned] at h
  exact mem_sortTools.mp (List.mem_filter.mp h).1

theorem governed_nodup (h : (upstream.tools.map (·.name)).Nodup) :
    ((governed upstream app).map (·.name)).Nodup :=
  selectGovernedTools_nodup (sortTools_nodup.mpr h)

/-! ## The two files that decide membership -/

def document (file : Option α) : BridgeGenerator.Document α := file.elim .absent .written

/-- The files by the names in them. -/
def Directory.files (app : Directory) : BridgeGenerator.Application where
  snapshot := document (app.snapshot.map fun snapshot => ⟨some (snapshot.tools.map (·.name))⟩)
  plugin := document (app.plugin.map fun plugin => ⟨(plugin.operations.getD []).map (·.1)⟩)
  classification := document (app.classification.map fun draft => draft.operations.map (·.1))
  harnessConfig := document (app.harnessConfig.map fun _ => ())

theorem document_value? (file : Option α) : (document file).value? = file := by
  cases file <;> rfl

theorem document_ne_malformed (file : Option α) : document file ≠ .malformed := by
  cases file <;> nofun

theorem files_intact (app : Directory) : BridgeGenerator.Intact app.files where
  snapshot := document_ne_malformed _
  plugin := document_ne_malformed _
  classification := document_ne_malformed _
  harnessConfig := document_ne_malformed _

theorem governed_names : (governed upstream app).map (·.name) =
    BridgeGenerator.governed app.files ((sortTools upstream.tools).map (·.name)) := by
  rw [governed, BridgeGenerator.governed, Directory.files, document_value?, document_value?]
  cases app.plugin with
  | none => rfl
  | some plugin =>
    cases app.snapshot with
    | none =>
      simp only [selectGovernedTools, BridgeGenerator.selectGovernedTools, Option.map_some,
        Option.map_none, Option.bind_none, List.filter_map]
      rfl
    | some snapshot =>
      simp only [selectGovernedTools, BridgeGenerator.selectGovernedTools, Option.map_some,
        Option.bind_some, List.filter_map]
      rfl

/-- **One generator.** A merge leaves the tool list and the operations that a run leaves in
which no file operation fails. -/
theorem runGenerate_files (h : runGenerate G options upstream capturedAt app = .ok after) :
    ∃ left, Faulty.Returns (BridgeGenerator.runGenerate ((sortTools upstream.tools).map (·.name)))
        app.files left ∧
      BridgeGenerator.Holds after.files.snapshot after.files.plugin left := by
  obtain ⟨requirements, bridge, haccepted, rfl⟩ := runGenerate_ok_iff.mp h
  obtain ⟨left, hreturns⟩ := BridgeGenerator.runGenerate_completes (files_intact app)
    (sortTools_nodup.mpr haccepted.distinct)
  refine ⟨left, hreturns, ?_⟩
  have hoperations : ((mergedPlugin G options upstream app requirements).operations.map (·.1)) =
      BridgeGenerator.governed app.files ((sortTools upstream.tools).map (·.name)) := by
    rw [mergedPlugin_operations, List.map_map, ← governed_names]
    rfl
  obtain ⟨hsnapshot, hplugin⟩ := (BridgeGenerator.runGenerate_returns hreturns).2
  rw [← hoperations] at hplugin
  exact ⟨hsnapshot, hplugin⟩

/-! ## The second run -/

theorem validateCredentialRequirements_eq_ok {value : Json} {items : List Json} :
    validateCredentialRequirements value = .ok items ↔
      value = .arr items ∧ validateRequirements items 0 = .ok () := by
  cases value with
  | arr found =>
    rw [validateCredentialRequirements, Checks.bind_eq_ok]
    constructor
    · rintro ⟨_, hvalid, hitems⟩
      cases hitems
      exact ⟨rfl, hvalid⟩
    · rintro ⟨heq, hvalid⟩
      cases heq
      exact ⟨(), hvalid, rfl⟩
  | _ => exact ⟨fun h => (nomatch h), fun h => (nomatch h.1)⟩

/-- Requirements that were read, or generated, pass their check again. -/
theorem mergedPlugin_requirements (h : readRequirements app = .ok requirements) :
    validateRequirements (mergedPlugin G options upstream app requirements).credentialRequirements 0 =
      .ok () := by
  have hread : ∀ items, requirements = some items → validateRequirements items 0 = .ok () := by
    rintro items rfl
    unfold readRequirements at h
    split at h
    · cases h
    · obtain ⟨found, hvalid, hfound⟩ := Checks.map_eq_ok.mp h
      cases hfound
      exact (validateCredentialRequirements_eq_ok.mp hvalid).2
  rw [mergedPlugin, mergePlugin, overrideApplicationDid_eq]
  cases hplugin : app.plugin with
  | none => rfl
  | some previous =>
    cases requirements with
    | none => rfl
    | some items => exact hread items rfl

theorem governed_again :
    governed upstream (outcome G options upstream capturedAt app
      (mergedPlugin G options upstream app requirements) bridge) = governed upstream app := by
  obtain ⟨governs, hgoverned⟩ :=
    selectGovernedTools_filter (sortTools upstream.tools) app.plugin app.snapshot
  have hnames : ((mergedPlugin G options upstream app requirements).operations.map (·.1)) =
      (governed upstream app).map (·.name) := by
    rw [mergedPlugin_operations, List.map_map]
    rfl
  have hfilter : governed upstream app =
      (sortTools upstream.tools).filter fun tool => governs tool.name := hgoverned
  show (sortTools upstream.tools).filter (fun tool =>
    ((mergedPlugin G options upstream app requirements).operations.map (·.1)).contains tool.name ||
      !((sortTools upstream.tools).map (·.name)).contains tool.name) = _
  rw [hnames]
  refine Eq.trans ?_ hfilter.symm
  apply List.filter_congr
  intro tool hmem
  have hsurface : ((sortTools upstream.tools).map (·.name)).contains tool.name = true := by
    simpa using ⟨tool, hmem, rfl⟩
  rw [hsurface, Bool.not_true, Bool.or_false, Bool.eq_iff_iff, List.contains_iff_mem, List.mem_map]
  constructor
  · rintro ⟨other, hother, hname⟩
    rw [hfilter, List.mem_filter] at hother
    rw [← hname]
    exact hother.2
  · intro hgoverns
    exact ⟨tool, hfilter ▸ List.mem_filter.mpr ⟨hmem, hgoverns⟩, rfl⟩

theorem get_merged {tool : McpToolDefinition} (hnodup : (upstream.tools.map (·.name)).Nodup)
    (hmem : tool ∈ upstream.tools) :
    (mergedClassification app.classification upstream.tools).operations.get tool.name =
      some (mergedValue app.classification tool) := by
  rw [mergedClassification_operations hnodup]
  exact Table.get_of (sortTools_nodup.mpr hnodup) (mem_sortTools.mpr hmem)

theorem mergedOperation_eq {tool : McpToolDefinition}
    (hnodup : (upstream.tools.map (·.name)).Nodup) (hmem : tool ∈ upstream.tools) :
    mergedOperation upstream app tool =
      { generateOperation tool with
        impact := (previousImpact app.plugin tool.name).or
          ((mergedValue app.classification tool).own?.map (·.impact)) } := by
  rw [mergedOperation, mergeImpact, get_merged hnodup hmem]
  cases previousImpact app.plugin tool.name with
  | some impact => rfl
  | none => cases mergedValue app.classification tool <;> rfl

theorem previousImpact_again {tool : McpToolDefinition}
    (hnodup : (upstream.tools.map (·.name)).Nodup) (hmem : tool ∈ governed upstream app) :
    previousImpact (some (pluginFile (mergedPlugin G options upstream app requirements))) tool.name =
      (mergedOperation upstream app tool).impact := by
  have hlook : (mergedPlugin G options upstream app requirements).operations.lookup tool.name =
      some (mergedOperation upstream app tool) := by
    rw [mergedPlugin_operations]
    exact lookup_named (governed_nodup hnodup) hmem
  rw [previousImpact]
  show (match property (mergedPlugin G options upstream app requirements).operations tool.name with
    | some (.own operation) => operation.impact
    | _ => none) = _
  rw [property_of_lookup hlook]

theorem mergedOperation_again {tool : McpToolDefinition}
    (hnodup : (upstream.tools.map (·.name)).Nodup) (hmem : tool ∈ governed upstream app) :
    mergedOperation upstream (outcome G options upstream capturedAt app
      (mergedPlugin G options upstream app requirements) bridge) tool =
        mergedOperation upstream app tool := by
  have htool := governed_subset hmem
  have hvalue : (mergedValue app.classification tool).own? = none →
      (mergedValue (some (mergedClassification app.classification upstream.tools).file) tool).own? =
        none := by
    intro hnone
    rw [mergedValue_again hnodup htool]
    split
    · rfl
    · exact hnone
  have hprevious : previousImpact (outcome G options upstream capturedAt app
      (mergedPlugin G options upstream app requirements) bridge).plugin tool.name =
        (mergedOperation upstream app tool).impact := previousImpact_again hnodup hmem
  rw [mergedOperation_eq hnodup htool, hprevious, mergedOperation_eq hnodup htool]
  cases hfirst : (previousImpact app.plugin tool.name).or
      ((mergedValue app.classification tool).own?.map (·.impact)) with
  | some impact => rfl
  | none =>
    rw [Option.or_eq_none_iff, Option.map_eq_none_iff] at hfirst
    have hnone : (mergedValue (outcome G options upstream capturedAt app
        (mergedPlugin G options upstream app requirements) bridge).classification tool).own?.map
          (·.impact) = none := Option.map_eq_none_iff.mpr (hvalue hfirst.2)
    rw [Option.none_or, hnone]

theorem mergedPlugin_again (hnodup : (upstream.tools.map (·.name)).Nodup) :
    mergedPlugin G options upstream (outcome G options upstream capturedAt app
        (mergedPlugin G options upstream app requirements) bridge)
      (some (mergedPlugin G options upstream app requirements).credentialRequirements) =
        mergedPlugin G options upstream app requirements := by
  ext1
  · rw [mergedPlugin, mergePlugin, overrideApplicationDid_eq]
    rfl
  · rw [mergedPlugin, mergePlugin, overrideApplicationDid_eq]
    rfl
  · rw [mergedPlugin, mergePlugin, overrideApplicationDid_eq]
    rfl
  · refine Eq.trans ?_ mergedPlugin_applicationDid
    rw [mergedPlugin, mergePlugin, overrideApplicationDid_eq]
    rfl
  · rw [mergedPlugin_generated.1, mergedPlugin_generated.1]
  · rw [mergedPlugin, mergePlugin, overrideApplicationDid_eq]
    rfl
  · rw [mergedPlugin_generated.2, mergedPlugin_generated.2]
    rfl
  · rw [mergedPlugin_operations, mergedPlugin_operations, governed_again]
    apply List.map_congr_left
    intro tool hmem
    rw [mergedOperation_again hnodup hmem]

theorem mergedHarnessConfig_again (existing : Option HarnessConfig) :
    mergeHarnessConfig (mergedHarnessConfig existing upstream) upstream =
      mergedHarnessConfig existing upstream := by
  have hkept : ∀ (value : Option Json) (fallback : Json), fallback ≠ .null →
      Json.nullish (some (Json.nullish value fallback)) fallback = Json.nullish value fallback := by
    intro value fallback hfallback
    have hne : Json.nullish value fallback ≠ .null := by
      unfold Json.nullish
      split
      · exact hfallback
      · exact hfallback
      · rename_i hnull
        exact hnull
    generalize Json.nullish value fallback = kept at hne
    cases kept with
    | null => exact absurd rfl hne
    | _ => rfl
  cases existing with
  | none => rfl
  | some existing =>
    have henv : (existing.env.filter Json.truthy).filter Json.truthy =
        existing.env.filter Json.truthy := by
      cases existing.env with
      | none => rfl
      | some env => cases htruthy : env.truthy <;> simp [Option.filter, htruthy]
    have hlegacy : ∀ (legacy : Bool) (value : Option Json),
        Json.nullish (some (if legacy then .arr [] else Json.nullish value (.arr []))) (.arr []) =
          if legacy then .arr [] else Json.nullish value (.arr []) := by
      intro legacy value
      cases legacy with
      | true => rfl
      | false => exact hkept value (.arr []) (by simp)
    simp only [mergedHarnessConfig, mergeHarnessConfig, henv]
    congr 2
    exact congr (congrArg₂ deviations (hkept _ _ (by simp)) (hkept _ _ (by simp)))
      (hlegacy _ _)

theorem readRequirements_again (h : readRequirements app = .ok requirements) :
    readRequirements (outcome G options upstream capturedAt app
        (mergedPlugin G options upstream app requirements) bridge) =
      .ok (some (mergedPlugin G options upstream app requirements).credentialRequirements) := by
  have hvalid : validateCredentialRequirements
      (.arr (mergedPlugin G options upstream app requirements).credentialRequirements) =
        .ok (mergedPlugin G options upstream app requirements).credentialRequirements :=
    validateCredentialRequirements_eq_ok.mpr ⟨rfl, mergedPlugin_requirements h⟩
  exact congrArg (Except.map some) hvalid

theorem Accepted.again (h : Accepted G options upstream app requirements bridge) :
    Accepted G options upstream
      (outcome G options upstream capturedAt app
        (mergedPlugin G options upstream app requirements) bridge)
      (some (mergedPlugin G options upstream app requirements).credentialRequirements) bridge where
  appName := h.appName
  validated := readRequirements_again h.validated
  distinct := h.distinct
  entry := by
    rw [mergedPlugin_again h.distinct]
    exact h.entry
  bridge := h.bridge

/-- A second run leaves the files as they are, up to the time in `metadata.json`. -/
theorem outcome_again (hnodup : (upstream.tools.map (·.name)).Nodup) (capturedAt' : String) :
    { outcome G options upstream capturedAt' (outcome G options upstream capturedAt app
        (mergedPlugin G options upstream app requirements) bridge)
        (mergedPlugin G options upstream app requirements) bridge with
      metadata := some (buildDiscoveryMetadata upstream capturedAt) } =
      outcome G options upstream capturedAt app
        (mergedPlugin G options upstream app requirements) bridge := by
  have hclassification :
      (mergedClassification (some (mergedClassification app.classification upstream.tools).file)
        upstream.tools).file = (mergedClassification app.classification upstream.tools).file :=
    file_again hnodup
  have hharness : mergeHarnessConfig (mergedHarnessConfig app.harnessConfig upstream) upstream =
      mergedHarnessConfig app.harnessConfig upstream := mergedHarnessConfig_again app.harnessConfig
  ext1
  case classification => exact congrArg some hclassification
  case harnessConfig => exact congrArg some hharness
  all_goals rfl

/-- The next run with the same options and upstream changes `metadata.json` alone. -/
def Stable (G : Generators) (options : GenerateOptions) (upstream : UpstreamInfo)
    (after : Directory) : Prop :=
  ∀ capturedAt, ∃ again, runGenerate G options upstream capturedAt after = .ok again ∧
    { again with metadata := after.metadata } = after

theorem runGenerate_stable (h : runGenerate G options upstream capturedAt app = .ok after) :
    Stable G options upstream after := by
  obtain ⟨requirements, bridge, haccepted, rfl⟩ := runGenerate_ok_iff.mp h
  intro capturedAt'
  refine ⟨_, runGenerate_ok_iff.mpr ⟨_, bridge, haccepted.again, rfl⟩, ?_⟩
  rw [mergedPlugin_again haccepted.distinct]
  exact outcome_again haccepted.distinct capturedAt'

/-! ## Exact merges -/

/-- What the claims of a merge come to. -/
structure Exact (before : Directory) (tools : List McpToolDefinition)
    (after : Directory) : Prop where
  /-- one entry for each discovered tool -/
  entries : ∃ draft, after.classification = some draft ∧
    (draft.operations.map (·.1)).Perm (tools.map (·.name))
  kept : ∀ existing draft, before.classification = some existing →
    after.classification = some draft → ∀ tool ∈ tools, ∀ entry,
      existing.operations.lookup tool.name = some entry →
        draft.operations.lookup tool.name = some entry
  reviewed : ∀ draft, after.classification = some draft → draft.draft = false →
    ∃ existing, before.classification = some existing ∧ existing.draft = false ∧
      ∀ tool ∈ tools, (existing.operations.lookup tool.name).isSome = true
  impacts : ∀ draft plugin operations, after.classification = some draft →
    after.plugin = some plugin → plugin.operations = some operations →
      ∀ name operation, (name, operation) ∈ operations →
        operation.impact.isSome = true ∧ operation.impact =
          (previousImpact before.plugin name).or ((draft.operations.lookup name).map (·.impact))
  identity : ∀ previous, before.plugin = some previous → ∃ plugin, after.plugin = some plugin ∧
    (∀ did, previous.pluginDid = some did → plugin.pluginDid = some did) ∧
    (∀ version, previous.pluginVersion = some version → plugin.pluginVersion = some version) ∧
    (∀ did, previous.publisherDid = some did → plugin.publisherDid = some did) ∧
    ∀ requirements, previous.credentialRequirements = some requirements →
      plugin.credentialRequirements = some requirements

/-- A name under which a lookup finds what the files have, and nothing else. -/
def Plain (before : Directory) (name : String) : Prop :=
  name ≠ "__proto__" ∧
    ∀ existing, before.classification = some existing →
      existing.operations.lookup name = none → JsonSchema.inheritedNames.contains name = false

theorem writtenEntry_isSome_iff {tool : McpToolDefinition} :
    (writtenEntry (mergedValue app.classification) tool).isSome = true ↔ Plain app tool.name := by
  rw [writtenEntry, Plain]
  by_cases hproto : tool.name = "__proto__"
  · simp [hproto]
  · rw [if_neg hproto]
    constructor
    · intro hsome
      refine ⟨hproto, fun existing hexisting hlook => ?_⟩
      by_contra hname
      rw [Bool.not_eq_false] at hname
      rw [mergedValue, hexisting, Option.bind_some, property_of_inherited hlook hname] at hsome
      exact Bool.false_ne_true hsome
    · rintro ⟨-, hplain⟩
      cases hvalue : mergedValue app.classification tool with
      | own entry => rfl
      | inherited =>
        obtain ⟨existing, hexisting, hlook, hname⟩ := mergedValue_inherited hvalue
        rw [hplain existing hexisting hlook] at hname
        exact absurd hname Bool.false_ne_true

theorem mem_written_iff {tool : McpToolDefinition} (hnodup : (upstream.tools.map (·.name)).Nodup)
    (hmem : tool ∈ upstream.tools) :
    tool.name ∈ (mergedClassification app.classification upstream.tools).file.operations.map (·.1) ↔
      Plain app tool.name := by
  rw [← writtenEntry_isSome_iff, ← file_lookup hnodup hmem]
  constructor
  · intro hin
    by_contra hnone
    rw [Option.not_isSome_iff_eq_none, file_lookup hnodup hmem] at hnone
    rw [file_operations hnodup] at hin
    obtain ⟨entry, hentry, hname⟩ := List.mem_map.mp hin
    obtain ⟨other, hother, hsome⟩ := List.mem_filterMap.mp hentry
    obtain ⟨found, hfound, rfl⟩ := Option.map_eq_some_iff.mp hsome
    obtain rfl : other = tool :=
      List.inj_on_of_nodup_map hnodup (mem_sortTools.mp hother) hmem hname
    rw [hnone] at hfound
    cases hfound
  · intro hsome
    by_contra hout
    rw [lookup_none_of_not_mem hout] at hsome
    exact Bool.false_ne_true hsome

theorem entries_perm (hnodup : (upstream.tools.map (·.name)).Nodup)
    (hplain : ∀ tool ∈ upstream.tools, Plain app tool.name) :
    ((mergedClassification app.classification upstream.tools).file.operations.map (·.1)).Perm
      (upstream.tools.map (·.name)) := by
  have hall : (mergedClassification app.classification upstream.tools).file.operations.map (·.1) =
      (sortTools upstream.tools).map (·.name) := by
    rw [file_operations hnodup, List.map_filterMap]
    have heach : ∀ tool ∈ sortTools upstream.tools,
        ((writtenEntry (mergedValue app.classification) tool).map (tool.name, ·)).map (·.1) =
          some tool.name := by
      intro tool hmem
      obtain ⟨entry, hentry⟩ := Option.isSome_iff_exists.mp
        (writtenEntry_isSome_iff.mpr (hplain tool (mem_sortTools.mp hmem)))
      rw [hentry, Option.map_some, Option.map_some]
    rw [List.filterMap_congr heach, List.filterMap_eq_map']
  rw [hall]
  exact (sortTools_perm upstream.tools).map _

theorem property_isNone {members : List (String × α)} {name : String}
    (hname : JsonSchema.inheritedNames.contains name = false) :
    (property members name).isNone = (members.lookup name).isNone := by
  rw [property]
  cases members.lookup name with
  | some value => rfl
  | none =>
    rw [hname]
    rfl

/-- A flag that is set marks a merge that added nothing to a reviewed classification. -/
theorem draft_reviewed (hplain : ∀ tool ∈ upstream.tools, Plain app tool.name)
    (h : (mergedClassification app.classification upstream.tools).draft = false) :
    ∃ existing, app.classification = some existing ∧ existing.draft = false ∧
      ∀ tool ∈ upstream.tools, (existing.operations.lookup tool.name).isSome = true := by
  rw [mergedClassification_draft] at h
  cases hexisting : app.classification with
  | none =>
    rw [hexisting] at h
    cases h
  | some existing =>
    rw [hexisting, Bool.or_eq_false_iff, List.any_eq_false] at h
    refine ⟨existing, rfl, h.1, fun tool hmem => ?_⟩
    by_contra hnone
    rw [Option.not_isSome_iff_eq_none] at hnone
    have hname := (hplain tool hmem).2 existing hexisting hnone
    apply h.2 tool hmem
    rw [property_isNone hname, hnone]
    rfl

theorem mergedPlugin_identity {previous : PluginFile}
    (hvalidated : readRequirements app = .ok requirements) (hprevious : app.plugin = some previous) :
    (∀ did, previous.pluginDid = some did →
        (pluginFile (mergedPlugin G options upstream app requirements)).pluginDid = some did) ∧
      (∀ version, previous.pluginVersion = some version →
        (pluginFile (mergedPlugin G options upstream app requirements)).pluginVersion =
          some version) ∧
      (∀ did, previous.publisherDid = some did →
        (pluginFile (mergedPlugin G options upstream app requirements)).publisherDid = some did) ∧
      ∀ value, previous.credentialRequirements = some value →
        (pluginFile (mergedPlugin G options upstream app requirements)).credentialRequirements =
          some value := by
  rw [mergedPlugin, mergePlugin, overrideApplicationDid_eq, hprevious]
  refine ⟨fun did hdid => ?_, fun version hversion => ?_, fun did hdid => ?_, fun value hvalue => ?_⟩
  · exact congrArg (fun found : Option String => some (found.getD _)) hdid
  · exact congrArg (fun found : Option String => some (found.getD _)) hversion
  · exact congrArg (fun found : Option String => some (found.getD _)) hdid
  · rw [readRequirements, hprevious, Option.bind_some, hvalue] at hvalidated
    obtain ⟨items, hitems, rfl⟩ := Checks.map_eq_ok.mp hvalidated
    obtain ⟨rfl, -⟩ := validateCredentialRequirements_eq_ok.mp hitems
    rfl

theorem exact_of_plain (haccepted : Accepted G options upstream app requirements bridge)
    (hplain : ∀ tool ∈ upstream.tools, Plain app tool.name) :
    Exact app upstream.tools (outcome G options upstream capturedAt app
      (mergedPlugin G options upstream app requirements) bridge) where
  entries := ⟨_, rfl, entries_perm haccepted.distinct hplain⟩
  kept := by
    rintro existing _ hexisting ⟨⟩ tool hmem entry hlook
    rw [file_lookup haccepted.distinct hmem, writtenEntry, if_neg (hplain tool hmem).1, mergedValue,
      hexisting, Option.bind_some, property_of_lookup hlook]
    rfl
  reviewed := by
    rintro _ ⟨⟩ hdraft
    exact draft_reviewed hplain hdraft
  impacts := by
    rintro _ _ _ ⟨⟩ ⟨⟩ ⟨⟩ name operation hin
    rw [mergedPlugin_operations] at hin
    obtain ⟨tool, htool, heq⟩ := List.mem_map.mp hin
    cases heq
    have hmem := governed_subset htool
    have hentry : (mergedClassification app.classification upstream.tools).file.operations.lookup
        tool.name = writtenEntry (mergedValue app.classification) tool :=
      file_lookup haccepted.distinct hmem
    have hsome := writtenEntry_isSome_iff.mpr (hplain tool hmem)
    rw [hentry, mergedOperation_eq haccepted.distinct hmem]
    rw [writtenEntry, if_neg (hplain tool hmem).1] at hsome ⊢
    refine ⟨?_, rfl⟩
    rw [Option.isSome_or, Option.isSome_map, hsome, Bool.or_true]
  identity := by
    intro previous hprevious
    exact ⟨_, rfl, mergedPlugin_identity haccepted.validated hprevious⟩

theorem regeneration_exact_iff (h : runGenerate G options upstream capturedAt app = .ok after) :
    Exact app upstream.tools after ∧ Stable G options upstream after ↔
      ∀ tool ∈ upstream.tools, Plain app tool.name := by
  obtain ⟨requirements, bridge, haccepted, rfl⟩ := runGenerate_ok_iff.mp h
  constructor
  · rintro ⟨hexact, -⟩ tool hmem
    obtain ⟨_, ⟨⟩, hperm⟩ := hexact.entries
    exact (mem_written_iff haccepted.distinct hmem).mp
      (hperm.mem_iff.mpr (List.mem_map_of_mem hmem))
  · intro hplain
    exact ⟨exact_of_plain haccepted hplain, runGenerate_stable h⟩

/-! ## Two runs -/

def sampleGenerators : Generators where
  digest tools := toString tools.length
  computeArtifactDid plugin := "did:artifact:" ++ toString plugin.operations.length
  bridge appName _ := .ok ⟨appName, "", "", "", "", ""⟩

def sampleOptions : GenerateOptions where
  appName := "issue-tracker"

def sampleTool (name : String) : McpToolDefinition where
  name := name
  inputSchema := .obj [("type", .str "object")]

def sampleUpstream (names : List String) : UpstreamInfo where
  command := "issue-server"
  args := []
  serverName := "issues"
  serverVersion := none
  protocolVersion := "2025-06-18"
  tools := names.map sampleTool

/-- The files of a first run, for one tool. -/
def sampleDirectory : Directory :=
  outcome sampleGenerators sampleOptions (sampleUpstream ["list_issues"]) "2026-01-01T00:00:00.000Z"
    {} (mergedPlugin sampleGenerators sampleOptions (sampleUpstream ["list_issues"]) {} none)
    ⟨"issue-tracker", "", "", "", "", ""⟩

theorem sampleDirectory_generated :
    runGenerate sampleGenerators sampleOptions (sampleUpstream ["list_issues"])
      "2026-01-01T00:00:00.000Z" {} = .ok sampleDirectory :=
  runGenerate_ok_iff.mpr ⟨none, _, ⟨by decide, rfl, by decide, rfl, rfl⟩, rfl⟩

theorem sampleDirectory_classification : sampleDirectory.classification =
    some ⟨true, [("list_issues", classifyTool (sampleTool "list_issues"))]⟩ := by
  have hsorted : sortTools (sampleUpstream ["list_issues"]).tools = [sampleTool "list_issues"] :=
    List.mergeSort_singleton _
  show some (buildClassificationDraft (sampleUpstream ["list_issues"]).tools).file = _
  rw [buildClassificationDraft, hsorted]
  rfl

/-- A second tool does not keep the run from its end. -/
theorem sampleDirectory_accepted {name : String} (hname : "list_issues" ≠ name) :
    Accepted sampleGenerators sampleOptions (sampleUpstream ["list_issues", name]) sampleDirectory
      (some []) ⟨"issue-tracker", "", "", "", "", ""⟩ where
  appName := by decide
  validated := rfl
  distinct := by simpa [sampleUpstream, sampleTool] using hname
  entry := rfl
  bridge := rfl

/-- A run over these files that finds another tool. -/
theorem regeneration_exact_new_tool : ∃ after,
    runGenerate sampleGenerators sampleOptions (sampleUpstream ["list_issues", "close_issue"])
      "2026-02-01T00:00:00.000Z" sampleDirectory = .ok after ∧
    Exact sampleDirectory (sampleUpstream ["list_issues", "close_issue"]).tools after ∧
    Stable sampleGenerators sampleOptions (sampleUpstream ["list_issues", "close_issue"]) after := by
  have haccepted := sampleDirectory_accepted (show "list_issues" ≠ "close_issue" by decide)
  have hrun : runGenerate sampleGenerators sampleOptions
      (sampleUpstream ["list_issues", "close_issue"]) "2026-02-01T00:00:00.000Z" sampleDirectory =
        .ok _ := runGenerate_ok_iff.mpr ⟨_, _, haccepted, rfl⟩
  refine ⟨_, hrun, (regeneration_exact_iff hrun).mpr ?_⟩
  intro tool hmem
  have hname : tool.name = "list_issues" ∨ tool.name = "close_issue" := by
    rcases List.mem_pair.mp hmem with rfl | rfl
    · exact .inl rfl
    · exact .inr rfl
  rcases hname with hname | hname <;> rw [hname] <;> exact ⟨by decide, fun _ _ _ => by decide⟩

/-- The same with a tool called `constructor`, which is not classified. -/
theorem regeneration_loses_constructor : ∃ after,
    runGenerate sampleGenerators sampleOptions (sampleUpstream ["list_issues", "constructor"])
      "2026-02-01T00:00:00.000Z" sampleDirectory = .ok after ∧
    ¬ Exact sampleDirectory (sampleUpstream ["list_issues", "constructor"]).tools after := by
  have haccepted := sampleDirectory_accepted (show "list_issues" ≠ "constructor" by decide)
  refine ⟨_, runGenerate_ok_iff.mpr ⟨_, _, haccepted, rfl⟩, fun hexact => ?_⟩
  obtain ⟨_, ⟨⟩, hperm⟩ := hexact.entries
  have hmem : sampleTool "constructor" ∈ (sampleUpstream ["list_issues", "constructor"]).tools :=
    .tail _ (.head _)
  have hplain := (mem_written_iff haccepted.distinct hmem).mp
    (hperm.mem_iff.mpr (List.mem_map_of_mem hmem))
  exact absurd (hplain.2 _ sampleDirectory_classification rfl) (by decide)

end Mpas.RegenerationMerge
