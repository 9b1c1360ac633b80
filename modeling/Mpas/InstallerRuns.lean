import Mpas.InstallerRewrites
import Mpas.InstallerAdditions
import Mpas.InstallerTexts

/-!
# Runs of installer commands

From an empty home, commands one after the other, each with failures of its own;
any of them may end before it is done, and the next one recovers what it left.

* `runCommand_steady`: a command leads from what an update leaves to a good home;
* `Runs.leaves`: what any run leaves;
* `home_stays_coherent`: after a completed command the home is coherent.
-/

namespace Mpas.Installer

open Faulty (Triple)

variable {home : Path}

/-! ## One command -/

theorem runSelected_steady {deps : Deps} {before : FileSystem} (command : Command)
    (hsteady : Steady deps.texts home before) :
    Triple (fun disk => disk = before) (runSelected deps home command)
      (fun _ => Steady deps.texts home) (Leaves deps.texts home) (Leaves deps.texts home) := by
  cases command with
  | init request => exact runInit_steady request hsteady
  | config request => exact runConfig_steady request hsteady
  | keyRotate request => exact runKeyRotate_steady request hsteady
  | mcpAdd request => exact addProposerBridge_steady request hsteady

theorem runCommand_steady (deps : Deps) (command : Command) :
    Triple (Leaves deps.texts home) (runCommand deps home command)
      (fun _ => Steady deps.texts home) (Leaves deps.texts home) (Leaves deps.texts home) :=
  recover_steady.bind fun _ => Triple.of_each fun _ hsteady => runSelected_steady command hsteady

/-! ## Runs -/

def SameHome (home : Path) (disk disk' : FileSystem) : Prop :=
  ∀ name, disk'.get? (join home name) = disk.get? (join home name)

/-- What a run leaves whose commands start as `starts` allows. Other programs change files
outside of the home at any time between two commands. -/
inductive Runs (texts : Texts) (home : Path) (starts : Faulty FileSystem → Prop) : FileSystem → Prop
  | empty {disk : FileSystem} (h : ∀ name, disk.get? (join home name) = none) :
    Runs texts home starts disk
  | world {disk disk' : FileSystem} (h : Runs texts home starts disk)
    (hsame : SameHome home disk disk') : Runs texts home starts disk'
  | ends {start : Faulty FileSystem} {deps : Deps} (h : Runs texts home starts start.contents)
    (hstart : starts start) (htexts : deps.texts = texts) (command : Command) :
    Runs texts home starts (runCommand deps home command start).contents.contents
  | crash {start left : Faulty FileSystem} {deps : Deps} (h : Runs texts home starts start.contents)
    (hstart : starts start) (htexts : deps.texts = texts) (command : Command)
    (hleft : left ∈ (runCommand deps home command start).passed) :
    Runs texts home starts left.contents

variable {texts : Texts} {disk disk' : FileSystem}

theorem kept_join (home : Path) (name : String) :
    kept (join home name) = join home (name ++ ".mpas-old") := by
  simp [kept, join, String.append_assoc]

theorem SameHome.marker (hsame : SameHome home disk disk') :
    disk'.get? (updateMarker home) = disk.get? (updateMarker home) := by
  rw [updateMarker_eq]
  exact hsame _

section Left

variable {before : FileSystem} {changes : List FileChange}

/-- What an update leaves depends on files of the home only. -/
theorem Left.of_sameHome (hupdate : Update home changes) (hsame : SameHome home disk disk')
    (h : Left home before (listed before changes) disk) :
    Left home before (listed before changes) disk' := by
  have hbelow : ∀ file ∈ listed before changes, ∃ name, file.change.path = join home name := by
    intro file hmem
    obtain ⟨change, hchange, heq⟩ := listed_path hmem
    rw [heq]
    exact (hupdate.files change hchange).below
  have hfile : ∀ file ∈ listed before changes,
      disk'.get? file.change.path = disk.get? file.change.path := by
    intro file hmem
    obtain ⟨name, heq⟩ := hbelow file hmem
    rw [heq]
    exact hsame name
  have hkept : ∀ file ∈ listed before changes,
      disk'.get? (kept file.change.path) = disk.get? (kept file.change.path) := by
    intro file hmem
    obtain ⟨name, heq⟩ := hbelow file hmem
    rw [heq, kept_join]
    exact hsame _
  have hold : AllOld before (listed before changes) disk →
      AllOld before (listed before changes) disk' :=
    fun h file hmem => (hfile file hmem).trans (h file hmem)
  have hnew : AllNew before (listed before changes) disk →
      AllNew before (listed before changes) disk' :=
    fun h file hmem => (hfile file hmem).trans (h file hmem)
  have hunmarked : Unmarked home disk → Unmarked home disk' := hsame.marker.trans
  have hmarked : ∀ update, Marked home update disk → Marked home update disk' := by
    rintro update ⟨mode, h⟩
    exact ⟨mode, hsame.marker.trans h⟩
  rcases h with (huntouched | hundoable | hcommitted) | hfinished
  · exact Or.inl (Or.inl ⟨hold huntouched.1, hunmarked huntouched.2⟩)
  · refine Or.inl (Or.inr (Or.inl ⟨hmarked _ hundoable.1, fun file hmem old hfound => ?_⟩))
    rw [hkept file hmem, hfile file hmem]
    exact hundoable.2 file hmem old hfound
  · exact Or.inl (Or.inr (Or.inr ⟨hmarked _ hcommitted.1, hnew hcommitted.2⟩))
  · exact Or.inr ⟨hnew hfinished.1, hunmarked hfinished.2⟩

theorem Leaves.of_sameHome (hsame : SameHome home disk disk') (h : Leaves texts home disk) :
    Leaves texts home disk' := by
  obtain ⟨before, changes, hleaves⟩ := h
  refine ⟨before, changes, hleaves.update, hleaves.goodBefore, hleaves.goodAfter,
    hleaves.left.of_sameHome hleaves.update hsame, fun path hpath hlisted => ?_⟩
  obtain ⟨name, heq⟩ := hpath.below
  have hfound := hleaves.elsewhere path hpath hlisted
  rw [heq] at hfound ⊢
  exact (hsame name).trans hfound

end Left

theorem steady_of_empty (h : ∀ name, disk.get? (join home name) = none) :
    Steady texts home disk := by
  have hnone : ∀ path, HomeFile home path → disk.get? path = none := by
    intro path hpath
    obtain ⟨name, rfl⟩ := hpath.below
    exact h name
  have hunused : Unused home disk.get? :=
    ⟨h _, h _, fun path hpath => hnone path hpath.homeFile⟩
  refine ⟨⟨fun path file hpath hfile => ?_, Or.inl hunused⟩, ?_⟩
  · rw [hnone path hpath] at hfile
    cases hfile
  · unfold Unmarked
    rw [updateMarker_eq]
    exact h _

/-- A run leaves what an update of a good home leaves. -/
theorem Runs.leaves (h : Runs texts home Faulty.Sure disk) : Leaves texts home disk := by
  induction h with
  | empty hempty => exact (steady_of_empty hempty).leaves
  | world _ hsame ih => exact ih.of_sameHome hsame
  | @ends start deps _ hsure htexts command ih =>
    subst htexts
    have hend := (runCommand_steady deps command start hsure ih).2
    cases hresult : (runCommand deps home command start).result with
    | ok _ =>
      rw [hresult] at hend
      exact hend.2.leaves
    | error e =>
      rw [hresult] at hend
      exact hend.2
  | @crash start left deps _ hsure htexts command hleft ih =>
    subst htexts
    exact (runCommand_steady deps command start hsure ih).1 left hleft

/-! ## Coherent homes -/

/-- What the file is read as. -/
def jsonAt (texts : Texts) (disk : FileSystem) (path : Path) : Option Json :=
  match disk.get? path with
  | some ⟨.bytes bytes, _⟩ => texts.parse bytes
  | _ => none

/-- A config that says what the account says, and of which the checks report nothing. -/
structure Agrees (home : Path) (account : Account) (path : Path) (config : Json) : Prop where
  did : member₂ config "agent" "did" = some (.str account.did)
  keyFile : member₂ config "agent" "keyFile" = some (.str (homePaths.key home))
  coordination : member₂ config "coordination" "url" = account.coordinationUrl.map .str
  bridge : isBridgeConfig home path = true →
    member₂ config "actionEndpoint" "url" = account.actionUrl.map .str ∧
      member₂ config "actionEndpoint" "verifierDid" = account.verifierDid.map .str ∧
      bridgeProblems home account config = []
  signer : path = homePaths.signerConfig home → signerProblems home account config = []

/-- The files are those of the account. -/
structure AccountHome (texts : Texts) (home : Path) (disk : FileSystem) (account : Account) :
    Prop where
  accountFile : (jsonAt texts disk (homePaths.account home)).bind Account.ofJson = some account
  keyFile : (jsonAt texts disk (homePaths.key home)).bind (Json.member "did") =
    some (.str account.did)
  key : keyProblems texts account (disk.get? (homePaths.key home)) = some []
  configs : ∀ path, IsConfig home path → (disk.get? path).isSome →
    ∃ config, jsonAt texts disk path = some config ∧ Agrees home account path config

def Coherent (texts : Texts) (home : Path) (disk : FileSystem) : Prop :=
  Unused home disk.get? ∨ ∃ account, AccountHome texts home disk account

section Agreement

variable {account : Account}

theorem agrees_signer (home : Path) (account : Account) :
    Agrees home account (homePaths.signerConfig home) (signerConfig home account) := by
  have hdid : member₂ (signerConfig home account) "agent" "did" = some (.str account.did) := rfl
  have hkey : member₂ (signerConfig home account) "agent" "keyFile" =
      some (.str (homePaths.key home)) := rfl
  have hurl : member₂ (signerConfig home account) "coordination" "url" =
      account.coordinationUrl.map .str := by
    obtain ⟨did, roles, _ | coordination, action, mode, verifier⟩ := account <;> rfl
  refine ⟨hdid, hkey, hurl, fun hbridge => ?_, fun _ => ?_⟩
  · rw [signerConfig_not_bridge] at hbridge
    cases hbridge
  · simp [signerProblems, problems, hdid, hkey, hurl]

theorem agrees_bridge {path : Path} (app : Application) (hpath : isBridgeConfig home path = true)
    (hverifier : account.verifierDid.getD "" ≠ "") :
    Agrees home account path (bridgeConfig home app account) := by
  have hdid : member₂ (bridgeConfig home app account) "agent" "did" = some (.str account.did) := rfl
  have hkey : member₂ (bridgeConfig home app account) "agent" "keyFile" =
      some (.str (homePaths.key home)) := rfl
  have hurl : member₂ (bridgeConfig home app account) "coordination" "url" =
      account.coordinationUrl.map .str := by
    obtain ⟨did, roles, _ | coordination, action, mode, verifier⟩ := account <;> rfl
  have haction : member₂ (bridgeConfig home app account) "actionEndpoint" "url" =
      account.actionUrl.map .str := by
    obtain ⟨did, roles, coordination, _ | action, mode, _ | verifier⟩ := account <;> rfl
  have hdesignated : member₂ (bridgeConfig home app account) "actionEndpoint" "verifierDid" =
      account.verifierDid.map .str := by
    obtain ⟨did, roles, coordination, _ | action, mode, _ | verifier⟩ := account <;> rfl
  have hadapter : (bridgeConfig home app account).member "adapter" = none := rfl
  refine ⟨hdid, hkey, hurl, fun _ => ⟨haction, hdesignated, ?_⟩, ?_⟩
  · cases hgiven : account.verifierDid with
    | none =>
      rw [hgiven] at hverifier
      exact absurd rfl hverifier
    | some did =>
      have hdid' : did ≠ "" := by simpa [hgiven] using hverifier
      simp [bridgeProblems, problems, hdid, hkey, hurl, haction, hdesignated, hadapter, hgiven,
        Json.truthy, hdid']
  · rintro rfl
    rw [signerConfig_not_bridge] at hpath
    cases hpath

theorem Says.jsonAt {path : Path} {value : Json} (h : Says texts disk.get? path value)
    (hwritten : isWritten value = true) : jsonAt texts disk path = some value := by
  obtain ⟨mode, hfile⟩ := h
  unfold Installer.jsonAt
  rw [hfile]
  exact texts.parse_json value hwritten

theorem Managed.accountHome (h : Managed texts home disk.get? account) :
    AccountHome texts home disk account where
  accountFile := by
    rw [h.accountFile.jsonAt account.written]
    exact Account.ofJson_toJson account
  keyFile := by
    obtain ⟨bytes, value, hfile, hparse, hdid⟩ := h.keyFile
    unfold jsonAt
    rw [hfile]
    simp only [hparse, Option.bind_some, hdid]
  key := by
    obtain ⟨bytes, value, hfile, hparse, hdid⟩ := h.keyFile
    rw [hfile]
    simp [keyProblems, permissions, hparse, problems, hdid]
  configs := by
    intro path hpath hsome
    obtain ⟨shape, hshape, hheld⟩ := h.config path hpath hsome
    cases hshape with
    | signer =>
      exact ⟨_, hheld.jsonAt (signerConfig_written home account), agrees_signer home account⟩
    | bridge app hbridge =>
      exact ⟨_, hheld.jsonAt (bridgeConfig_written home app account),
        agrees_bridge app hbridge (h.bridge path hbridge hsome).2⟩

theorem Steady.coherent (h : Steady texts home disk) : Coherent texts home disk := by
  rcases h.good.managed with hunused | ⟨account, hmanaged⟩
  · exact Or.inl hunused
  · exact Or.inr ⟨account, hmanaged.accountHome⟩

end Agreement

/-- The command succeeded, or was refused or failed and left nothing for the next to recover. -/
def Completed (home : Path) (execution : Execution (Faulty FileSystem) InstallError Unit) : Prop :=
  execution.result = .ok () ∨ Unmarked home execution.contents.contents

/-- After every run of commands in which no look at the disk misses what is there, a command that
is completed leaves a coherent home. -/
theorem home_stays_coherent {start : Faulty FileSystem} {deps : Deps} {command : Command}
    (h : Runs texts home Faulty.Sure start.contents) (hsure : start.Sure)
    (htexts : deps.texts = texts)
    (hcompleted : Completed home (runCommand deps home command start)) :
    Coherent texts home (runCommand deps home command start).contents.contents := by
  subst htexts
  have hend := (runCommand_steady deps command start hsure h.leaves).2
  cases hresult : (runCommand deps home command start).result with
  | ok _ =>
    rw [hresult] at hend
    exact hend.2.coherent
  | error e =>
    rw [hresult] at hend
    obtain ⟨-, before, changes, hleaves⟩ := hend
    rcases hcompleted with hok | hunmarked
    · rw [hresult] at hok
      cases hok
    · exact (hleaves.steady hunmarked).coherent

/-! ## One run -/

def sampleDeps : Deps where
  texts := jsonTexts
  resolve := id
  validUrl := fun _ => true
  didJwkToJwk := fun _ => none
  runtimeDid := fun _ => none
  homeFlag := ""

def sampleKey : KeyFile where
  did := "did:jwk:e30"
  kid := "did:jwk:e30#0"
  privateJwk := .obj [("d", .str "AQ")]
  publicJwk := .obj [("x", .str "Ag")]
  written := by decide

def initProposer : Command := .init {
  role := .proposer
  coordination := some "local"
  action := some "local"
  verifierDid := some "did:web:verifier.example"
  fresh := sampleKey }

def addBridge : Command := .mcpAdd {
  name := "demo"
  sourceUrl := "https://apps.example/demo"
  pluginBytes := [0x7B, 0x7D]
  pluginFrom := "plugin.json"
  artifact := "abc"
  applicationDid := "did:web:demo.example"
  packageName := "demo-mcp-bridge"
  version := "1.0.0"
  bridgeFrom := "bridge.tgz"
  published := true
  cliVersion := "1.0.0"
  installedAt := "2026-01-01T00:00:00.000Z"
  harness := "none" }

def moveCoordination : Command := .config { coordination := some "https://new.example" }

def nothingFails (disk : FileSystem) : Faulty FileSystem := { contents := disk }

def afterInit : FileSystem :=
  (runCommand sampleDeps "/m" initProposer (nothingFails OrderedMap.empty)).contents.contents

def afterAdd : FileSystem :=
  (runCommand sampleDeps "/m" addBridge (nothingFails afterInit)).contents.contents

/-- The marker, the account and the signer config are looked for, and the listing of the bridge
configs fails. -/
def listingFails : Faulty FileSystem where
  contents := afterAdd
  misses := [false, false, false, true]

theorem sample_run (starts : Faulty FileSystem → Prop)
    (hinit : starts (nothingFails OrderedMap.empty)) (hadd : starts (nothingFails afterInit)) :
    Runs jsonTexts "/m" starts afterAdd := by
  have hempty : Runs jsonTexts "/m" starts OrderedMap.empty := .empty fun _ => rfl
  have hfirst : Runs jsonTexts "/m" starts afterInit :=
    @Runs.ends _ _ _ (nothingFails OrderedMap.empty) sampleDeps hempty hinit rfl initProposer
  exact @Runs.ends _ _ _ (nothingFails afterInit) sampleDeps hfirst hadd rfl addBridge

theorem sure_nothingFails (disk : FileSystem) : (nothingFails disk).Sure :=
  fun _ hmem => absurd hmem List.not_mem_nil

/-- After two commands, one that moves the Coordination URL. -/
theorem home_stays_coherent_three : Coherent jsonTexts "/m"
    (runCommand sampleDeps "/m" moveCoordination (nothingFails afterAdd)).contents.contents :=
  home_stays_coherent (sample_run Faulty.Sure (sure_nothingFails _) (sure_nothingFails _))
    (sure_nothingFails _) rfl (Or.inl (by decide +kernel))

/-- What the account and the bridge config say once the bridge configs were not listed. -/
theorem listing_missed :
    ∃ final, runCommand sampleDeps "/m" moveCoordination listingFails = final ∧
      final.result = .ok () ∧
      ((jsonAt jsonTexts final.contents.contents (homePaths.account "/m")).bind Account.ofJson).map
        (·.coordinationUrl) = some (some "https://new.example") ∧
      (jsonAt jsonTexts final.contents.contents (homePaths.bridgeConfig "/m" "demo")).map
        (member₂ · "coordination" "url") = some (some (.str "http://127.0.0.1:7545")) := by
  refine ⟨_, rfl, ?_⟩
  decide +kernel

/-- When the bridge configs cannot be listed, the account moves and the bridge stays behind, and the
command succeeds. -/
theorem home_diverges : ∃ (texts : Texts) (home : Path) (start : Faulty FileSystem) (deps : Deps)
    (command : Command), Runs texts home (fun _ => True) start.contents ∧ deps.texts = texts ∧
      Completed home (runCommand deps home command start) ∧
      ¬ Coherent texts home (runCommand deps home command start).contents.contents := by
  obtain ⟨final, hfinal, hresult, haccount, hconfig⟩ := listing_missed
  refine ⟨jsonTexts, "/m", listingFails, sampleDeps, moveCoordination,
    sample_run _ trivial trivial, rfl, ?_⟩
  rw [hfinal]
  refine ⟨Or.inl hresult, ?_⟩
  have hbridge : IsConfig "/m" (homePaths.bridgeConfig "/m" "demo") := Or.inr (by decide +kernel)
  have hsome : (final.contents.contents.get? (homePaths.bridgeConfig "/m" "demo")).isSome := by
    cases hfile : final.contents.contents.get? (homePaths.bridgeConfig "/m" "demo") with
    | some file => rfl
    | none =>
      unfold jsonAt at hconfig
      rw [hfile] at hconfig
      cases hconfig
  rintro (hunused | ⟨account, hhome⟩)
  · rw [hunused.config _ hbridge] at hsome
    cases hsome
  · obtain ⟨config, hread, hagrees⟩ := hhome.configs _ hbridge hsome
    rw [hhome.accountFile, Option.map_some, Option.some.injEq] at haccount
    rw [hread, Option.map_some, Option.some.injEq, hagrees.coordination, haccount] at hconfig
    exact absurd hconfig (by decide)

end Mpas.Installer
