import Mathlib.Data.List.Nodup
import Mpas.Library.Faults

/-!
# Regeneration of an application's packaging

A run of the generator reads the last tool list and the last plugin, writes the
new tool list, and then the plugin with the tools that are governed. A tool that
is in the old list and not in the old plugin was reviewed out, unless a run ended
between the two writes.

* `runGenerate_ends`: what a run, however it ends, leaves of the two files;
* `runGenerate_completes`: where nothing fails, a run returns;
* `regeneration_governs`: over runs that end between the writes only where nothing
  is new, no tool is missing that a reviewer has not deleted.
-/

namespace Mpas.BridgeGenerator

open Faulty (attempt check Triple Completes Ends Returns)

/-! ## Files -/

abbrev ToolName := String

inductive Document (α : Type)
  | absent
  /-- no JSON, or JSON that the reader throws on -/
  | malformed
  | written (value : α)
  deriving DecidableEq

def Document.exists {α : Type} : Document α → Bool
  | .absent => false
  | _ => true

/-- What `readJsonIfExists` returns, if it does. -/
def Document.value? {α : Type} : Document α → Option α
  | .written value => some value
  | _ => none

/-- `tools-list.snapshot.json` -/
structure Snapshot where
  tools : Option (List ToolName)
  deriving DecidableEq

structure GeneratedPlugin where
  operations : List ToolName
  deriving DecidableEq

/-- The files that a run reads; the others it only writes. -/
structure Application where
  snapshot : Document Snapshot
  plugin : Document GeneratedPlugin
  /-- the operations of `classification.json` -/
  classification : Document (List ToolName)
  harnessConfig : Document Unit
  deriving DecidableEq

inductive GenerateError
  /-- of a file operation, of discovery or of a validation -/
  | failed
  | duplicateToolNames
  | unableToParse
  deriving DecidableEq

abbrev Script := Program (Faulty Application) GenerateError

/-- What leaves the files as they are, and may fail. -/
def step : Script Unit := attempt .failed fun app => .ok ((), app)

def readJsonIfExists {α : Type} (file : Application → Document α) : Script (Option α) := do
  if ← check fun app => (file app).exists then
    attempt .failed fun app => match file app with
      | .written value => .ok (some value, app)
      | _ => .error .unableToParse
  else return none

/-- `writeFile` empties the file before it writes. -/
def writeGenerated {α : Type} (store : Document α → Application → Application) (value : α) :
    Script Unit := do
  step
  attempt .failed fun app => .ok ((), store .malformed app)
  attempt .failed fun app => .ok ((), store (.written value) app)

/-! ## A run -/

def selectGovernedTools (tools : List ToolName) (previousPlugin : Option GeneratedPlugin)
    (previousSnapshot : Option Snapshot) : List ToolName :=
  match previousPlugin with
  | none => tools
  | some plugin =>
    match previousSnapshot.bind Snapshot.tools with
    | none => tools.filter fun tool => plugin.operations.contains tool
    | some surface =>
      tools.filter fun tool => plugin.operations.contains tool || !surface.contains tool

def buildToolsListSnapshot (tools : List ToolName) : Script Snapshot :=
  if tools.Nodup then return ⟨some tools⟩ else throw .duplicateToolNames

def mergedClassification (tools : List ToolName) : Script (List ToolName) := do
  let _existing ← readJsonIfExists Application.classification
  return tools

def mergedHarnessConfig : Script Unit := do
  let _existing ← readJsonIfExists Application.harnessConfig
  return ()

/-- The files that no run reads. -/
def writeOther (_relativePath : String) : Script Unit := do
  step
  step

/-- Discovery and the directories. -/
def prepare : Script Unit := do
  step
  writeOther "build-artifacts"
  writeOther "bridge/src"

/-- `registry-entry.json`, `bridge/` and `CHANGELOG.md`. -/
def writeRest : Script Unit := do
  -- `validateRegistryEntry`
  step
  ["registry-entry.json", "bridge/src/index.ts", "bridge/src/tools.json",
    "bridge/src/sqlite-workflow-store.ts", "bridge/package.json", "bridge/tsconfig.json",
    "bridge/README.md", "CHANGELOG.md"].forM writeOther

/-- The writes of a run, with what it read of the last one. -/
def writeArtifacts (discovered : List ToolName) (previousPlugin : Option GeneratedPlugin)
    (previousSnapshot : Option Snapshot) : Script Unit := do
  let snapshot ← buildToolsListSnapshot discovered
  writeGenerated (fun file app => { app with snapshot := file }) snapshot
  writeOther "build-artifacts/metadata.json"
  let classification ← mergedClassification discovered
  writeGenerated (fun file app => { app with classification := file }) classification
  let governedTools := selectGovernedTools discovered previousPlugin previousSnapshot
  writeGenerated (fun file app => { app with plugin := file }) (GeneratedPlugin.mk governedTools)
  let harnessConfig ← mergedHarnessConfig
  writeGenerated (fun file app => { app with harnessConfig := file }) harnessConfig
  writeRest

/-- Without `.generator-keep`. -/
def runGenerate (discovered : List ToolName) : Script Unit := do
  prepare
  let previousSnapshot ← readJsonIfExists Application.snapshot
  let previousPlugin ← readJsonIfExists Application.plugin
  -- `validateCredentialRequirements`
  step
  writeArtifacts discovered previousPlugin previousSnapshot

/-! ## What a run leaves -/

def governed (app : Application) (tools : List ToolName) : List ToolName :=
  selectGovernedTools tools app.plugin.value? app.snapshot.value?

/-- The files are as they were found, and neither was malformed. -/
structure Readable (app : Application) : Prop where
  snapshot : app.snapshot ≠ .malformed
  plugin : app.plugin ≠ .malformed

/-- The snapshot and the plugin are these. -/
structure Holds (snapshot : Document Snapshot) (plugin : Document GeneratedPlugin)
    (app : Application) : Prop where
  snapshot : app.snapshot = snapshot
  plugin : app.plugin = plugin

/-- What a run from `before` can leave, in the order of its writes. -/
inductive Left (before : Application) (tools : List ToolName) (app : Application) : Prop
  | untouched : Holds before.snapshot before.plugin app → Left before tools app
  | snapshotTorn : Readable before → Holds .malformed before.plugin app → Left before tools app
  | between : Readable before → Holds (.written ⟨some tools⟩) before.plugin app →
      Left before tools app
  | pluginTorn : Readable before → Holds (.written ⟨some tools⟩) .malformed app →
      Left before tools app
  | done : Readable before →
      Holds (.written ⟨some tools⟩) (.written ⟨governed before tools⟩) app → Left before tools app

/-! ## One run -/

variable {before app : Application} {tools : List ToolName} {α : Type}
  {P M Q L : Application → Prop}

theorem step_triple (h : ∀ app, P app → L app) : Triple P step (fun _ => P) L L := by
  refine Triple.attempt h h fun app _ app' happ hok => ?_
  cases hok
  exact happ

theorem writeOther_triple {relativePath : String} (h : ∀ app, P app → L app) :
    Triple P (writeOther relativePath) (fun _ => P) L L :=
  (step_triple h).bind fun _ => step_triple h

theorem prepare_triple (h : ∀ app, P app → L app) : Triple P prepare (fun _ => P) L L :=
  (step_triple h).bind fun _ => (writeOther_triple h).bind fun _ => writeOther_triple h

theorem writeRest_triple (h : ∀ app, P app → L app) : Triple P writeRest (fun _ => P) L L :=
  (step_triple h).bind fun _ => Triple.forM_const fun _ _ => writeOther_triple h

theorem readJsonIfExists_triple {file : Application → Document α} (h : ∀ app, P app → L app) :
    Triple P (readJsonIfExists file)
      (fun previous app => (file app ≠ .malformed ∧ previous = (file app).value?) ∧ P app) L L := by
  unfold readJsonIfExists
  have hcheck : Triple P (check fun app => (file app).exists : Script Bool)
      (fun found app => found = (file app).exists ∧ P app) L L :=
    Triple.check h fun app happ => ⟨rfl, happ⟩
  refine hcheck.bind fun found => ?_
  cases found with
  | false =>
    refine Triple.pure fun app happ => ⟨?_, happ.2⟩
    have hnone := happ.1
    cases hfile : file app with
    | absent => exact ⟨by simp, rfl⟩
    | malformed | written =>
      rw [hfile] at hnone
      cases hnone
  | true =>
    refine Triple.attempt (fun app happ => h app happ.2) (fun app happ => h app happ.2) ?_
    intro app previous app' happ hok
    cases hfile : file app with
    | absent | malformed =>
      simp only [hfile] at hok
      cases hok
    | written value =>
      simp only [hfile] at hok
      cases hok
      exact ⟨⟨by rw [hfile]; simp, by rw [hfile]; rfl⟩, happ.2⟩

theorem writeGenerated_triple {store : Document α → Application → Application} {value : α}
    (hP : ∀ app, P app → L app) (hM : ∀ app, M app → L app)
    (htorn : ∀ app, P app → M (store .malformed app))
    (hwritten : ∀ app, M app → Q (store (.written value) app)) :
    Triple P (writeGenerated store value) (fun _ => Q) L L := by
  refine (step_triple hP).bind fun _ => ?_
  have htruncate : Triple P
      (attempt GenerateError.failed fun app => .ok ((), store .malformed app)) (fun _ => M) L L :=
    Triple.attempt hP hP fun app _ app' happ hok => by
      cases hok
      exact htorn app happ
  refine htruncate.bind fun _ => Triple.attempt hM hM fun app _ app' happ hok => ?_
  cases hok
  exact hwritten app happ

/-- A file that is neither the snapshot nor the plugin. -/
theorem writeGenerated_keeps {store : Document α → Application → Application} {value : α}
    (hP : ∀ app, P app → L app) (hkeeps : ∀ document app, P app → P (store document app)) :
    Triple P (writeGenerated store value) (fun _ => P) L L :=
  writeGenerated_triple hP hP (hkeeps _) (hkeeps _)

theorem buildToolsListSnapshot_triple (h : ∀ app, P app → L app) :
    Triple P (buildToolsListSnapshot tools)
      (fun snapshot app => snapshot = ⟨some tools⟩ ∧ P app) L L := by
  unfold buildToolsListSnapshot
  split
  · exact Triple.pure fun app happ => ⟨rfl, happ⟩
  · exact Triple.throw h

theorem mergedClassification_triple (h : ∀ app, P app → L app) :
    Triple P (mergedClassification tools) (fun _ => P) L L :=
  (readJsonIfExists_triple h).bind fun _ => Triple.pure fun _ happ => happ.2

theorem mergedHarnessConfig_triple (h : ∀ app, P app → L app) :
    Triple P mergedHarnessConfig (fun _ => P) L L :=
  (readJsonIfExists_triple h).bind fun _ => Triple.pure fun _ happ => happ.2

/-- The tail of a run, where the files are still as it found them. -/
theorem writeArtifacts_triple {previousPlugin : Option GeneratedPlugin}
    {previousSnapshot : Option Snapshot} (before : Application) (tools : List ToolName)
    (hreadable : Readable before)
    (hgoverned :
      selectGovernedTools tools previousPlugin previousSnapshot = governed before tools) :
    Triple (Holds before.snapshot before.plugin)
      (writeArtifacts tools previousPlugin previousSnapshot)
      (fun _ => Holds (.written ⟨some tools⟩) (.written ⟨governed before tools⟩))
      (Left before tools) (Left before tools) := by
  have hstart : ∀ app, Holds before.snapshot before.plugin app → Left before tools app :=
    fun app happ => .untouched happ
  have htorn : ∀ app, Holds .malformed before.plugin app → Left before tools app :=
    fun app happ => .snapshotTorn hreadable happ
  have hbetween : ∀ app, Holds (.written ⟨some tools⟩) before.plugin app → Left before tools app :=
    fun app happ => .between hreadable happ
  have hpluginTorn : ∀ app, Holds (.written ⟨some tools⟩) .malformed app → Left before tools app :=
    fun app happ => .pluginTorn hreadable happ
  have hdone : ∀ app, Holds (.written ⟨some tools⟩) (.written ⟨governed before tools⟩) app →
      Left before tools app := fun app happ => .done hreadable happ
  have hwriteSnapshot : Triple (Holds before.snapshot before.plugin)
      (writeGenerated (fun file app => { app with snapshot := file }) (Snapshot.mk (some tools)))
      (fun _ => Holds (.written ⟨some tools⟩) before.plugin)
      (Left before tools) (Left before tools) :=
    writeGenerated_triple hstart htorn (fun _ happ => ⟨rfl, happ.2⟩) fun _ happ => ⟨rfl, happ.2⟩
  have hwritePlugin : Triple (Holds (.written ⟨some tools⟩) before.plugin)
      (writeGenerated (fun file app => { app with plugin := file })
        (GeneratedPlugin.mk (governed before tools)))
      (fun _ => Holds (.written ⟨some tools⟩) (.written ⟨governed before tools⟩))
      (Left before tools) (Left before tools) :=
    writeGenerated_triple hbetween hpluginTorn (fun _ happ => ⟨happ.1, rfl⟩)
      fun _ happ => ⟨happ.1, rfl⟩
  have hwriteClassification (classification : List ToolName) :
      Triple (Holds (.written ⟨some tools⟩) before.plugin)
      (writeGenerated (fun file app => { app with classification := file }) classification)
      (fun _ => Holds (.written ⟨some tools⟩) before.plugin)
      (Left before tools) (Left before tools) :=
    writeGenerated_keeps hbetween fun _ _ happ => ⟨happ.1, happ.2⟩
  have hwriteHarness : Triple (Holds (.written ⟨some tools⟩) (.written ⟨governed before tools⟩))
      (writeGenerated (fun file app => { app with harnessConfig := file }) ())
      (fun _ => Holds (.written ⟨some tools⟩) (.written ⟨governed before tools⟩))
      (Left before tools) (Left before tools) :=
    writeGenerated_keeps hdone fun _ _ happ => ⟨happ.1, happ.2⟩
  unfold writeArtifacts
  refine (buildToolsListSnapshot_triple hstart).bind fun snapshot => Triple.given fun hbuilt => ?_
  rw [hbuilt, hgoverned]
  refine hwriteSnapshot.bind fun _ => ?_
  refine (writeOther_triple hbetween).bind fun _ => ?_
  refine (mergedClassification_triple hbetween).bind fun classification => ?_
  refine (hwriteClassification classification).bind fun _ => ?_
  refine hwritePlugin.bind fun _ => ?_
  refine (mergedHarnessConfig_triple hdone).bind fun _ => ?_
  refine hwriteHarness.bind fun _ => ?_
  exact writeRest_triple hdone

theorem runGenerate_triple (before : Application) (tools : List ToolName) :
    Triple (Holds before.snapshot before.plugin) (runGenerate tools)
      (fun _ app => Readable before ∧
        Holds (.written ⟨some tools⟩) (.written ⟨governed before tools⟩) app)
      (Left before tools) (Left before tools) := by
  have hstart : ∀ app, Holds before.snapshot before.plugin app → Left before tools app :=
    fun app happ => .untouched happ
  unfold runGenerate
  refine (prepare_triple hstart).bind fun _ => ?_
  refine (readJsonIfExists_triple hstart).bind fun previousSnapshot => ?_
  refine (readJsonIfExists_triple fun app happ => hstart app happ.2).bind fun previousPlugin => ?_
  -- What was read of the two files is what they hold, and they were not malformed.
  have hread : ∀ app,
      (app.plugin ≠ .malformed ∧ previousPlugin = app.plugin.value?) ∧
        (app.snapshot ≠ .malformed ∧ previousSnapshot = app.snapshot.value?) ∧
        Holds before.snapshot before.plugin app →
      (Readable before ∧
        selectGovernedTools tools previousPlugin previousSnapshot = governed before tools) ∧
        Holds before.snapshot before.plugin app := by
    rintro app ⟨⟨hplugin, hpreviousPlugin⟩, ⟨hsnapshot, hpreviousSnapshot⟩, hholds⟩
    rw [hholds.plugin] at hplugin hpreviousPlugin
    rw [hholds.snapshot] at hsnapshot hpreviousSnapshot
    refine ⟨⟨⟨hsnapshot, hplugin⟩, ?_⟩, hholds⟩
    rw [hpreviousPlugin, hpreviousSnapshot, governed]
  refine Triple.strengthen (Triple.given fun hfound => ?_) hread
  have htail := writeArtifacts_triple before tools hfound.1 hfound.2
  have hwritten := htail.weaken (fun _ h => h) (fun _ _ h => And.intro hfound.1 h) (fun _ h => h)
    fun _ h => h
  exact (step_triple hstart).bind fun _ => hwritten

theorem runGenerate_ends (h : Ends (runGenerate tools) before app) : Left before tools app := by
  obtain ⟨_, hreadable, hholds⟩ | hleft | hleft :=
    (runGenerate_triple before tools).ends ⟨rfl, rfl⟩ h
  · exact .done hreadable hholds
  · exact hleft
  · exact hleft

theorem runGenerate_returns (h : Returns (runGenerate tools) before app) :
    Readable before ∧ Holds (.written ⟨some tools⟩) (.written ⟨governed before tools⟩) app := by
  obtain ⟨_, hreturned⟩ := (runGenerate_triple before tools).returns ⟨rfl, rfl⟩ h
  exact hreturned

/-! ## A run in which nothing fails -/

/-- No file that a run reads is malformed. -/
structure Intact (app : Application) : Prop where
  snapshot : app.snapshot ≠ .malformed
  plugin : app.plugin ≠ .malformed
  classification : app.classification ≠ .malformed
  harnessConfig : app.harnessConfig ≠ .malformed

theorem step_completes : Completes P step (fun _ => P) :=
  Completes.attempt fun app happ => ⟨(), app, rfl, happ⟩

theorem writeOther_completes {relativePath : String} :
    Completes P (writeOther relativePath) (fun _ => P) :=
  step_completes.bind fun _ => step_completes

theorem readJsonIfExists_completes {file : Application → Document α}
    (h : ∀ app, P app → file app ≠ .malformed) :
    Completes P (readJsonIfExists file) (fun _ => P) := by
  unfold readJsonIfExists
  have hcheck : Completes P (check fun app => (file app).exists : Script Bool)
      (fun found app => found = (file app).exists ∧ P app) :=
    Completes.check fun app happ => ⟨rfl, happ⟩
  refine hcheck.bind fun found => ?_
  cases found with
  | false => exact Completes.pure fun app happ => happ.2
  | true =>
    refine Completes.attempt fun app happ => ?_
    cases hfile : file app with
    | absent =>
      rw [hfile] at happ
      cases happ.1
    | malformed => exact absurd hfile (h app happ.2)
    | written value => exact ⟨some value, app, rfl, happ.2⟩

theorem writeGenerated_completes {store : Document α → Application → Application} {value : α}
    (hwritten : ∀ app, P app → P (store (.written value) (store .malformed app))) :
    Completes P (writeGenerated store value) (fun _ => P) := by
  have htruncate : Completes P
      (attempt GenerateError.failed fun app => .ok ((), store .malformed app))
      (fun _ torn => ∃ app, P app ∧ torn = store .malformed app) :=
    Completes.attempt fun app happ => ⟨(), _, rfl, app, happ, rfl⟩
  refine step_completes.bind fun _ => htruncate.bind fun _ => Completes.attempt ?_
  rintro _ ⟨app, happ, rfl⟩
  exact ⟨(), _, rfl, hwritten app happ⟩

theorem mergedClassification_completes :
    Completes Intact (mergedClassification tools) (fun _ => Intact) :=
  (readJsonIfExists_completes fun _ happ => happ.classification).bind fun _ =>
    Completes.pure fun _ happ => happ

theorem mergedHarnessConfig_completes : Completes Intact mergedHarnessConfig (fun _ => Intact) :=
  (readJsonIfExists_completes fun _ happ => happ.harnessConfig).bind fun _ =>
    Completes.pure fun _ happ => happ

theorem writeArtifacts_completes (hdistinct : tools.Nodup) {previousPlugin : Option GeneratedPlugin}
    {previousSnapshot : Option Snapshot} :
    Completes Intact (writeArtifacts tools previousPlugin previousSnapshot) (fun _ => Intact) := by
  have hsnapshot : Completes Intact (buildToolsListSnapshot tools) (fun _ => Intact) := by
    rw [buildToolsListSnapshot, if_pos hdistinct]
    exact Completes.pure fun _ happ => happ
  refine hsnapshot.bind fun _ => ?_
  refine (writeGenerated_completes fun _ happ => { happ with snapshot := nofun }).bind fun _ => ?_
  refine writeOther_completes.bind fun _ => mergedClassification_completes.bind fun _ => ?_
  refine (writeGenerated_completes fun _ happ =>
    { happ with classification := nofun }).bind fun _ => ?_
  refine (writeGenerated_completes fun _ happ => { happ with plugin := nofun }).bind fun _ => ?_
  refine mergedHarnessConfig_completes.bind fun _ => ?_
  refine (writeGenerated_completes fun _ happ =>
    { happ with harnessConfig := nofun }).bind fun _ => ?_
  exact step_completes.bind fun _ => Completes.forM fun _ _ => writeOther_completes

/-- Where nothing fails, a run from files that can be read returns. -/
theorem runGenerate_completes (hintact : Intact before) (hdistinct : tools.Nodup) :
    ∃ app, Returns (runGenerate tools) before app := by
  have hprepare : Completes Intact prepare (fun _ => Intact) :=
    step_completes.bind fun _ => writeOther_completes.bind fun _ => writeOther_completes
  have hcompletes : Completes Intact (runGenerate tools) (fun _ => Intact) :=
    hprepare.bind fun _ =>
      (readJsonIfExists_completes fun _ happ => happ.snapshot).bind fun _ =>
      (readJsonIfExists_completes fun _ happ => happ.plugin).bind fun _ =>
      step_completes.bind fun _ => writeArtifacts_completes hdistinct
  obtain ⟨_, app, hreturns, -⟩ := hcompletes.returns hintact
  exact ⟨app, hreturns⟩

/-! ## Runs and reviews -/

structure World where
  app : Application
  /-- the operations that a run had written and a reviewer deleted -/
  deleted : List ToolName

def World.start : World := ⟨⟨.absent, .absent, .absent, .absent⟩, []⟩

/-- The runs of the generator that end as `C` says, with reviews between them. -/
inductive Runs (C : World → List ToolName → Application → Prop) : World → Prop
  | start : Runs C World.start
  | generate {w : World} {tools : List ToolName} {app : Application} : Runs C w → tools.Nodup →
      Ends (runGenerate tools) w.app app → C w tools app → Runs C { w with app }
  | deleteOperation {w : World} {plugin : GeneratedPlugin} {name : ToolName} : Runs C w →
      w.app.plugin = .written plugin → name ∈ plugin.operations →
      Runs C ⟨{ w.app with plugin := .written ⟨plugin.operations.filter (· ≠ name)⟩ },
        name :: w.deleted⟩
  | edit {w : World} {classification : Document (List ToolName)} {harnessConfig : Document Unit} :
      Runs C w → Runs C { w with app := { w.app with classification, harnessConfig } }

/-- A run that ends with the new list and the old plugin has no tool in its list that is new to
both and that no reviewer has deleted. -/
def Recorded (w : World) (tools : List ToolName) (app : Application) : Prop :=
  app.snapshot = .written ⟨some tools⟩ → app.plugin = w.app.plugin →
    ∀ plugin, w.app.plugin = .written plugin → ∀ tool ∈ tools,
      tool ∈ plugin.operations ∨
        (∃ surface, w.app.snapshot = .written ⟨some surface⟩ ∧ tool ∈ surface) ∨ tool ∈ w.deleted

/-- Next to a plugin, the list can be read and lacks no name that the plugin misses and no reviewer
deleted, or no run will read it. -/
def World.Consistent (w : World) : Prop :=
  ∀ plugin, w.app.plugin = .written plugin → w.app.snapshot = .malformed ∨
    ∃ tools, w.app.snapshot = .written ⟨some tools⟩ ∧
      ∀ tool ∈ tools, tool ∈ plugin.operations ∨ tool ∈ w.deleted

variable {w : World} {plugin : GeneratedPlugin} {tool : ToolName}

/-- A tool that a run leaves out was in the list it found, and not in the plugin. -/
theorem governed_missing (hmem : tool ∈ tools) (hout : tool ∉ governed app tools) :
    ∃ plugin, app.plugin = .written plugin ∧ tool ∉ plugin.operations ∧
      ∀ surface, app.snapshot = .written ⟨some surface⟩ → tool ∈ surface := by
  unfold governed selectGovernedTools at hout
  cases hplugin : app.plugin with
  | absent | malformed =>
    rw [hplugin] at hout
    exact absurd hmem hout
  | written plugin =>
    rw [hplugin] at hout
    refine ⟨plugin, rfl, ?_, ?_⟩
    · intro hoperation
      apply hout
      cases app.snapshot.value?.bind Snapshot.tools with
      | none => simp [Document.value?, hmem, hoperation]
      | some surface => simp [Document.value?, hmem, hoperation]
    · intro surface hsnapshot
      rw [hsnapshot] at hout
      have hkept : ¬ (tool ∈ tools ∧ (tool ∈ plugin.operations ∨ tool ∉ surface)) := by
        simpa [Document.value?] using hout
      exact Decidable.byContradiction fun hnew => hkept ⟨hmem, Or.inr hnew⟩

/-- Where the files agree, only what a reviewer deleted is left out. -/
theorem World.Consistent.governed_deleted (h : w.Consistent) (hreadable : Readable w.app)
    (hmem : tool ∈ tools) (hout : tool ∉ governed w.app tools) : tool ∈ w.deleted := by
  obtain ⟨plugin, hplugin, hoperation, hsurface⟩ := governed_missing hmem hout
  obtain hmalformed | ⟨surface, hsnapshot, hlisted⟩ := h plugin hplugin
  · exact absurd hmalformed hreadable.snapshot
  · exact (hlisted tool (hsurface surface hsnapshot)).resolve_left hoperation

theorem World.Consistent.generate (h : w.Consistent) (hleft : Left w.app tools app)
    (hrecorded : Recorded w tools app) : World.Consistent { w with app } := by
  intro plugin hplugin
  cases hleft with
  | untouched hholds =>
    obtain ⟨hsnapshot, hsame⟩ := hholds
    rw [hsnapshot]
    exact h plugin (hsame.symm.trans hplugin)
  | snapshotTorn _ hholds => exact Or.inl hholds.snapshot
  | between hreadable hholds =>
    have hbefore : w.app.plugin = .written plugin := hholds.plugin.symm.trans hplugin
    refine Or.inr ⟨tools, hholds.snapshot, fun tool hmem => ?_⟩
    obtain hoperation | ⟨surface, hsnapshot, hlisted⟩ | hdeleted :=
      hrecorded hholds.snapshot hholds.plugin plugin hbefore tool hmem
    · exact Or.inl hoperation
    · obtain hmalformed | ⟨surface', hsnapshot', hall⟩ := h plugin hbefore
      · exact absurd hmalformed hreadable.snapshot
      · rw [hsnapshot] at hsnapshot'
        cases hsnapshot'
        exact hall tool hlisted
    · exact Or.inr hdeleted
  | pluginTorn _ hholds =>
    have hmalformed : (Document.malformed : Document GeneratedPlugin) = .written plugin :=
      hholds.plugin.symm.trans hplugin
    cases hmalformed
  | done hreadable hholds =>
    have hgoverned : Document.written ⟨governed w.app tools⟩ = Document.written plugin :=
      hholds.plugin.symm.trans hplugin
    cases hgoverned
    refine Or.inr ⟨tools, hholds.snapshot, fun tool hmem => ?_⟩
    by_cases hin : tool ∈ governed w.app tools
    · exact Or.inl hin
    · exact Or.inr (h.governed_deleted hreadable hmem hin)

theorem World.Consistent.deleteOperation {name : ToolName} (h : w.Consistent)
    (hplugin : w.app.plugin = .written plugin) :
    World.Consistent ⟨{ w.app with plugin := .written ⟨plugin.operations.filter (· ≠ name)⟩ },
      name :: w.deleted⟩ := by
  intro plugin' hplugin'
  cases hplugin'
  obtain hmalformed | ⟨tools, hsnapshot, hall⟩ := h plugin hplugin
  · exact Or.inl hmalformed
  · refine Or.inr ⟨tools, hsnapshot, fun tool hmem => ?_⟩
    by_cases hname : tool = name
    · exact Or.inr (by rw [hname]; exact List.mem_cons_self)
    · obtain hoperation | hdeleted := hall tool hmem
      · exact Or.inl (List.mem_filter.mpr ⟨hoperation, decide_eq_true hname⟩)
      · exact Or.inr (List.mem_cons_of_mem _ hdeleted)

theorem Runs.consistent (h : Runs Recorded w) : w.Consistent := by
  induction h with
  | start =>
    intro plugin hplugin
    cases hplugin
  | generate _ _ hends hrecorded ih => exact ih.generate (runGenerate_ends hends) hrecorded
  | deleteOperation _ hplugin _ ih => exact ih.deleteOperation hplugin
  | edit _ ih => exact ih

/-- After a run that completes, a discovered tool that the plugin misses is one that a reviewer
deleted. -/
theorem regeneration_governs (hruns : Runs Recorded w)
    (hrun : Returns (runGenerate tools) w.app app) :
    ∃ plugin, app.plugin = .written plugin ∧
      ∀ tool ∈ tools, tool ∉ plugin.operations → tool ∈ w.deleted := by
  obtain ⟨hreadable, hholds⟩ := runGenerate_returns hrun
  refine ⟨_, hholds.plugin, fun tool hmem hout => ?_⟩
  exact hruns.consistent.governed_deleted hreadable hmem hout

/-- What a run leaves whose operations fail as `faults` says. -/
def leaves (tools : List ToolName) (before : Application) (faults : List Bool) : Application :=
  ((runGenerate tools) ⟨before, faults, []⟩).contents.contents

theorem ends_of_leaves {faults : List Bool} (h : leaves tools before faults = app) :
    Ends (runGenerate tools) before app :=
  ⟨⟨before, faults, []⟩, rfl, fun _ hmem => absurd hmem List.not_mem_nil, Or.inr h⟩

theorem returns_of_leaves (hok : ((runGenerate tools) ⟨before, [], []⟩).result = .ok ())
    (h : leaves tools before [] = app) : Returns (runGenerate tools) before app :=
  ⟨⟨before, [], []⟩, rfl, fun _ hmem => absurd hmem List.not_mem_nil, (), hok, h⟩

/-- The twelfth operation of a run is the one after the list is written. -/
def afterList : List Bool := List.replicate 11 false ++ [true]

/-- The files after a run that completed. -/
def completed (surface operations : List ToolName) : Application :=
  ⟨.written ⟨some surface⟩, .written ⟨operations⟩, .written surface, .written ()⟩

/-- The first run completes and a reviewer deletes `send`. The second, with the same tools in
another order, ends between the list and the plugin. The third completes: `send` stays out, and
`delete`, which it is the first to see, is governed. -/
theorem regeneration_governs_new :
    ∃ w app plugin, Runs Recorded w ∧ w.deleted = ["send"] ∧
      Returns (runGenerate ["list", "send", "delete"]) w.app app ∧ app.plugin = .written plugin ∧
      plugin.operations = ["list", "delete"] ∧
      ∀ tool ∈ ["list", "send", "delete"], tool ∉ plugin.operations → tool ∈ w.deleted := by
  have hleaves : leaves ["list", "send"] World.start.app [] =
      completed ["list", "send"] ["list", "send"] := by decide +kernel
  have hfirst : Runs Recorded ⟨completed ["list", "send"] ["list", "send"], []⟩ :=
    .generate .start (by decide) (ends_of_leaves hleaves) fun _ _ _ hplugin => by cases hplugin
  have hreviewed : Runs Recorded ⟨completed ["list", "send"] ["list"], ["send"]⟩ :=
    hfirst.deleteOperation rfl (by decide : "send" ∈ ["list", "send"])
  let interrupted : Application :=
    { completed ["list", "send"] ["list"] with snapshot := .written ⟨some ["send", "list"]⟩ }
  have hleaves : leaves ["send", "list"] (completed ["list", "send"] ["list"]) afterList =
      interrupted := by decide +kernel
  -- nothing of the second list is new: both names are in the list before
  have hinterrupted : Runs Recorded ⟨interrupted, ["send"]⟩ :=
    .generate hreviewed (by decide) (ends_of_leaves hleaves) fun _ _ _ _ tool htool =>
      .inr (.inl ⟨_, rfl, by simpa [or_comm] using htool⟩)
  have hreturns : Returns (runGenerate ["list", "send", "delete"]) interrupted
      (completed ["list", "send", "delete"] ["list", "delete"]) :=
    returns_of_leaves (by decide +kernel) (by decide +kernel)
  obtain ⟨plugin, hplugin, hall⟩ := regeneration_governs hinterrupted hreturns
  cases hplugin
  exact ⟨_, _, _, hinterrupted, rfl, hreturns, rfl, rfl, hall⟩

/-- The first run completes, the second ends after it wrote the list with a new tool, and the
third completes without that tool, which no reviewer has seen. -/
theorem regeneration_ungoverns :
    ∃ w app, Runs (fun _ _ _ => True) w ∧ Returns (runGenerate ["list", "delete"]) w.app app ∧
      ∃ plugin, app.plugin = .written plugin ∧ "delete" ∉ plugin.operations ∧
        "delete" ∉ w.deleted := by
  have hleaves : leaves ["list"] World.start.app [] = completed ["list"] ["list"] := by
    decide +kernel
  have hfirst : Runs (fun _ _ _ => True) ⟨completed ["list"] ["list"], []⟩ :=
    .generate .start (by decide) (ends_of_leaves hleaves) trivial
  let interrupted : Application :=
    { completed ["list"] ["list"] with snapshot := .written ⟨some ["list", "delete"]⟩ }
  have hleaves : leaves ["list", "delete"] (completed ["list"] ["list"]) afterList =
      interrupted := by decide +kernel
  have hsecond : Runs (fun _ _ _ => True) ⟨interrupted, []⟩ :=
    .generate hfirst (by decide) (ends_of_leaves hleaves) trivial
  exact ⟨_, completed ["list", "delete"] ["list"], hsecond,
    returns_of_leaves (by decide +kernel) (by decide +kernel), ⟨["list"]⟩, rfl, by decide,
    List.not_mem_nil⟩

end Mpas.BridgeGenerator
