import Mpas.InstallerDocuments

/-!
# Account, key and managed configs stay coherent

The commands of the installer look at the account, the Signer's key file and the bridge
configs that it manages, and update them together. What a command leaves of them is what
it was going to write, or what was there, also when it fails or is cut short.

* `Managed`: the files of an account, which agree with each other;
* `commitChanges_steady`, `recover_steady`: an update and its recovery keep them so.
-/

namespace Mpas.Installer

open Faulty (Triple Ends Returns Throws)

/-! ## What an update leaves alone -/

section Frame

variable {home : Path} {R : FileSystem → Prop} {changes : List FileChange} {path source target : Path}

/-- The condition depends on no file that an update of these makes use of. -/
structure Apart (home : Path) (changes : List FileChange) (R : FileSystem → Prop) : Prop where
  files : ∀ change ∈ changes, Ignores R change.path
  staged : ∀ path, Ignores R (staged path)
  kept : ∀ path, Ignores R (kept path)
  marker : Ignores R (updateMarker home)
  markerTemp : Ignores R (markerTemp home)

theorem writeFile_keeps {contents : Contents} {mode : Nat} (hpath : Ignores R path) :
    Triple R (writeFile path contents mode) (fun _ => R) R R :=
  (writeFile_triple hpath (fun _ h => h) fun _ h => h).weaken (fun _ h => h) (fun _ _ h => h.1)
    (fun _ h => h) fun _ h => h

theorem chmod_keeps {mode : Nat} (hpath : Ignores R path) :
    Triple R (chmod path mode) (fun _ => R) R R := by
  refine Triple.attempt (fun _ h => h) (fun _ h => h) fun disk _ disk' h heq => ?_
  split at heq
  · cases heq
    exact hpath _ _ (sameBut_set _ _ _) h
  · cases heq

theorem copyFile_keeps (htarget : Ignores R target) :
    Triple R (copyFile source target) (fun _ => R) R R := by
  refine Triple.attempt (fun _ h => h) (fun _ h => h) fun disk _ disk' h heq => ?_
  split at heq
  · cases heq
    exact htarget _ _ (sameBut_set _ _ _) h
  · cases heq

theorem rename_keeps (hsource : Ignores R source) (htarget : Ignores R target) :
    Triple R (rename source target) (fun _ => R) R R := by
  refine Triple.attempt (fun _ h => h) (fun _ h => h) fun disk _ disk' h heq => ?_
  split at heq
  · cases heq
    exact htarget _ _ (sameBut_set _ _ _) (hsource _ _ (sameBut_delete disk _) h)
  · cases heq

theorem rm_keeps (hpath : Ignores R path) : Triple R (rm path) (fun _ => R) R R :=
  rm_ignored hpath (fun _ h => h) fun _ h => h

theorem stat_keeps : Triple R (stat path) (fun _ => R) R R :=
  (stat_triple (fun _ h => h) fun _ h => h).weaken (fun _ h => h) (fun _ _ h => h.1) (fun _ h => h)
    fun _ h => h

theorem failpoint_keeps {step : Step} : Triple R (failpoint step path) (fun _ => R) R R :=
  failpoint_triple (fun _ h => h) fun _ h => h

theorem stagedMode_keeps {file : ListedFile} : Triple R (stagedMode file) (fun _ => R) R R := by
  unfold stagedMode
  cases file.change.mode with
  | some mode => exact Triple.pure fun _ h => h
  | none =>
    cases file.existed with
    | true => exact stat_keeps.bind fun found => Triple.pure fun _ h => h
    | false => exact Triple.pure fun _ h => h

theorem stageFile_keeps (hapart : Apart home changes R) (file : ListedFile) :
    Triple R (stageFile file) (fun _ => R) R R := by
  have hstaged := hapart.staged file.change.path
  have hdir : Triple R (ensureDirOf file.change.path) (fun _ => R) R R :=
    ensureDirOf_triple (fun _ h => h) fun _ h => h
  unfold stageFile
  refine failpoint_keeps.seq (hdir.seq (stagedMode_keeps.bind fun mode => ?_))
  exact (writeFile_keeps hstaged).seq (chmod_keeps hstaged)

theorem backupFile_keeps (hapart : Apart home changes R) (file : ListedFile) :
    Triple R (backupFile file) (fun _ => R) R R := by
  have hkept := hapart.kept file.change.path
  unfold backupFile
  cases file.existed with
  | true =>
    refine failpoint_keeps.seq ((copyFile_keeps hkept).seq (stat_keeps.bind fun found => ?_))
    exact chmod_keeps hkept
  | false => exact Triple.pure fun _ h => h

theorem writeMarker_keeps (hapart : Apart home changes R) (update : PendingUpdate) :
    Triple R (writeMarker home update) (fun _ => R) R R := by
  unfold writeMarker
  exact failpoint_keeps.seq ((writeFile_keeps hapart.markerTemp).seq
    (rename_keeps hapart.markerTemp hapart.marker))

theorem removeMarker_keeps (hapart : Apart home changes R) :
    Triple R (removeMarker home) (fun _ => R) R R :=
  (rm_keeps hapart.markerTemp).seq (rm_keeps hapart.marker)

theorem lookUp_keeps (changes : List FileChange) :
    Triple R (lookUp changes) (fun files disk => (∀ file ∈ files, file.change ∈ changes) ∧ R disk)
      R R := by
  induction changes with
  | nil => exact Triple.pure fun disk h => ⟨fun file hmem => absurd hmem List.not_mem_nil, h⟩
  | cons change rest ih =>
    unfold lookUp
    have hexists : Triple R (fileExists change.path) (fun _ => R) R R :=
      (fileExists_triple fun _ h => h).weaken (fun _ h => h) (fun _ _ h => h.1) (fun _ h => h)
        fun _ h => h
    refine hexists.bind fun existed => ih.bind fun files => Triple.pure ?_
    rintro disk ⟨hfiles, h⟩
    refine ⟨fun file hmem => ?_, h⟩
    rcases List.mem_cons.mp hmem with rfl | hrest
    · exact List.mem_cons_self
    · exact List.mem_cons_of_mem _ (hfiles file hrest)

/-- An update keeps every condition that does not depend on its files. -/
theorem commitChanges_keeps (hapart : Apart home changes R) :
    Triple R (commitChanges home changes) (fun _ => R) R R := by
  unfold commitChanges
  refine (lookUp_keeps changes).bind fun files => Triple.given fun hfiles => ?_
  have hstaged : Triple R (cleanupStaged files) (fun _ => R) R R :=
    Triple.forM_const fun file _ => rm_keeps (hapart.staged _)
  have hkept : Triple R (cleanupKept files) (fun _ => R) R R :=
    Triple.forM_const fun file _ => rm_keeps (hapart.kept _)
  have hstage : Triple R (files.forM stageFile) (fun _ => R) R R :=
    Triple.forM_const fun file _ => stageFile_keeps hapart file
  have hbackup : Triple R (files.forM backupFile) (fun _ => R) R R :=
    Triple.forM_const fun file _ => backupFile_keeps hapart file
  have hcommit : Triple R (files.forM commitFile) (fun _ => R) R R :=
    Triple.forM_const fun file hmem =>
      failpoint_keeps.seq (rename_keeps (hapart.staged _) (hapart.files _ (hfiles file hmem)))
  have hroll : Triple R (rollBack (pendingUpdate files)) (fun _ => R) R R := by
    refine rollBack_keeps fun entry hentry => ?_
    obtain ⟨file, hmem, rfl⟩ := List.mem_map.mp hentry
    exact ⟨hapart.files _ (hfiles file hmem), hapart.kept _, hapart.staged _⟩
  have hthrow : ∀ error : InstallError, Triple R (throw error : Script Unit) (fun _ => R) R R :=
    fun error => Triple.throw fun _ h => h
  refine ((hstage.seq hbackup).tryCatch fun error => hstaged.seq (hkept.seq (hthrow error))).seq ?_
  refine ((writeMarker_keeps hapart _).tryCatch fun error =>
    hstaged.seq (hkept.seq ((removeMarker_keeps hapart).seq (hthrow error)))).seq ?_
  refine ((hcommit.seq (writeMarker_keeps hapart _)).tryCatch fun error =>
    hroll.seq ((removeMarker_keeps hapart).seq (hthrow error))).seq ?_
  exact hkept.seq (rm_keeps hapart.marker)

/-- The files of a marker are among those of the changes. -/
def MarkerOf (home : Path) (changes : List FileChange) (disk : FileSystem) : Prop :=
  ∀ update mode, disk.get? (updateMarker home) = some ⟨.marker update, mode⟩ →
    ∀ file ∈ update.files, ∃ change ∈ changes, change.path = file.path

theorem recover_keeps (hapart : Apart home changes R) :
    Triple (fun disk => R disk ∧ MarkerOf home changes disk) (recoverInterruptedUpdate home)
      (fun _ => R) R R := by
  have hright : ∀ disk, R disk ∧ MarkerOf home changes disk → R disk := fun _ h => h.1
  have hfile : ∀ file : PendingFile, (∃ change ∈ changes, change.path = file.path) →
      Ignores R file.path := by
    rintro file ⟨change, hmem, hpath⟩
    rw [← hpath]
    exact hapart.files change hmem
  have htemp : Ignores (fun disk => R disk ∧ MarkerOf home changes disk) (markerTemp home) := by
    intro disk disk' hsame h
    refine ⟨hapart.markerTemp _ _ hsame h.1, fun update mode hmarker => ?_⟩
    rw [hsame _ (markerTemp_ne_marker home).symm] at hmarker
    exact h.2 update mode hmarker
  have hread : Triple (fun disk => R disk ∧ MarkerOf home changes disk) (readMarker home)
      (fun update disk => (∀ file ∈ update.files, Ignores R file.path) ∧ R disk) R R := by
    unfold readMarker
    refine (readFile_triple hright hright).bind fun contents => ?_
    cases contents with
    | marker update =>
      refine Triple.pure ?_
      rintro disk ⟨h, mode, hmarker⟩
      exact ⟨fun file hmem => hfile file (h.2 update mode hmarker file hmem), h.1⟩
    | bytes bytes => exact Triple.throw fun _ h => h.1.1
  have hnames : Triple R (readdir home) (fun _ => R) R R := by
    refine Triple.attempt (fun _ h => h) (fun _ h => h) fun disk names disk' h heq => ?_
    cases heq
    exact h
  unfold recoverInterruptedUpdate
  refine (rm_ignored htemp hright hright).seq ?_
  refine (fileExists_triple hright).bind fun found => ?_
  cases found with
  | false => exact Triple.pure fun _ h => h.1.1
  | true =>
    refine Triple.strengthen ?_ fun _ h => h.1
    refine (hread.tryCatch fun _ => hnames.bind fun names => Triple.throw fun _ h => h).bind
      fun update => Triple.given fun hfiles => ?_
    have hfinish : Triple R (update.files.forM finishFile) (fun _ => R) R R :=
      Triple.forM_const fun file _ => (rm_keeps (hapart.kept _)).seq (rm_keeps (hapart.staged _))
    have hroll : Triple R (rollBack update) (fun _ => R) R R :=
      rollBack_keeps fun file hmem => ⟨hfiles file hmem, hapart.kept _, hapart.staged _⟩
    have hdone : ∀ text : String, Triple R (do rm (updateMarker home); return some text : Script _)
        (fun _ => R) R R :=
      fun text => (rm_keeps hapart.marker).seq (Triple.pure fun _ h => h)
    cases hcommitted : update.committed with
    | true =>
      simp only [↓reduceIte]
      exact hfinish.seq (hdone _)
    | false =>
      simp only [Bool.false_eq_true, ↓reduceIte]
      exact hroll.seq (hdone _)

end Frame

/-! ## Coherent homes -/

abbrev Files := Path → Option File

section Coherent

variable (texts : Texts) (home : Path)

/-- What a config says, as a function of the account. -/
inductive Shape : Path → (Account → Json) → Prop
  | signer : Shape (homePaths.signerConfig home) (signerConfig home)
  | bridge {path : Path} (app : Application) (h : isBridgeConfig home path = true) :
    Shape path (bridgeConfig home app)

def IsConfig (path : Path) : Prop :=
  path = homePaths.signerConfig home ∨ isBridgeConfig home path = true

def Says (files : Files) (path : Path) (value : Json) : Prop :=
  ∃ mode, files path = some ⟨.bytes (texts.json value), mode⟩

/-- The home is that of the account, and each config says what it would say if it were written now. -/
structure Managed (files : Files) (account : Account) : Prop where
  accountFile : Says texts files (homePaths.account home) account.toJson
  keyFile : ∃ bytes key, files (homePaths.key home) = some ⟨.bytes bytes, 0o600⟩ ∧
    texts.parse bytes = some key ∧ key.member "did" = some (.str account.did)
  config : ∀ path, IsConfig home path → (files path).isSome →
    ∃ shape, Shape home path shape ∧ Says texts files path (shape account)
  signer : (files (homePaths.signerConfig home)).isSome ↔ .maintainer ∈ account.roles
  bridge : ∀ path, isBridgeConfig home path = true → (files path).isSome →
    .proposer ∈ account.roles ∧ account.verifierDid.getD "" ≠ ""
  coordination : .proposer ∈ account.roles ∨ .maintainer ∈ account.roles →
    account.coordinationUrl.isSome
  action : .proposer ∈ account.roles → account.actionUrl.isSome

/-- Before the first `mpas init`. -/
structure Unused (files : Files) : Prop where
  account : files (homePaths.account home) = none
  key : files (homePaths.key home) = none
  config : ∀ path, IsConfig home path → files path = none

structure Good (files : Files) : Prop where
  plain : ∀ path file, HomeFile home path → files path = some file → file.mode < 0o1000
  managed : Unused home files ∨ ∃ account, Managed texts home files account

/-- The files once every change is made. -/
def updatedFiles (before : FileSystem) (changes : List FileChange) : Files := fun path =>
  match changes.find? fun change => decide (change.path = path) with
  | some change => some (newFile before change)
  | none => before.get? path

structure Update (changes : List FileChange) : Prop where
  distinct : (changes.map fun change => change.path).Nodup
  files : ∀ change ∈ changes, HomeFile home change.path
  modes : ∀ change ∈ changes, ∀ mode, change.mode = some mode → mode < 0o1000

def Elsewhere (before : FileSystem) (changes : List FileChange) (disk : FileSystem) : Prop :=
  ∀ path, HomeFile home path → (∀ change ∈ changes, change.path ≠ path) →
    disk.get? path = before.get? path

/-- What an update leaves, however it ends, from a good home to a good home. -/
structure UpdateLeaves (before : FileSystem) (changes : List FileChange) (disk : FileSystem) :
    Prop where
  update : Update home changes
  goodBefore : Good texts home before.get?
  goodAfter : Good texts home (updatedFiles before changes)
  left : Left home before (listed before changes) disk
  elsewhere : Elsewhere home before changes disk

def Leaves (disk : FileSystem) : Prop := ∃ before changes, UpdateLeaves texts home before changes disk

structure Steady (disk : FileSystem) : Prop where
  good : Good texts home disk.get?
  unmarked : Unmarked home disk

end Coherent

section Updates

variable {texts : Texts} {home path : Path} {files files' : Files} {before disk disk' : FileSystem}
  {changes : List FileChange} {account : Account} {shape : Account → Json}

theorem IsConfig.homeFile (h : IsConfig home path) : HomeFile home path := by
  rcases h with rfl | h
  · exact homeFile_join (by decide) (by decide)
  · exact homeFile_bridge h

theorem Shape.isConfig (h : Shape home path shape) : IsConfig home path := by
  cases h with
  | signer => exact Or.inl rfl
  | bridge app h => exact Or.inr h

theorem homeFile_account (home : Path) : HomeFile home (homePaths.account home) :=
  homeFile_join (by decide) (by decide)

theorem homeFile_key (home : Path) : HomeFile home (homePaths.key home) :=
  homeFile_join (by decide) (by decide)

/-- The files that say what the account is. -/
inductive Matters (home : Path) : Path → Prop
  | account : Matters home (homePaths.account home)
  | key : Matters home (homePaths.key home)
  | config {path : Path} (h : IsConfig home path) : Matters home path

theorem Matters.homeFile (h : Matters home path) : HomeFile home path := by
  cases h with
  | account => exact homeFile_account home
  | key => exact homeFile_key home
  | config h => exact h.homeFile

theorem Managed.congr (hsame : ∀ path, Matters home path → files' path = files path)
    (h : Managed texts home files account) : Managed texts home files' account where
  accountFile := by
    unfold Says
    rw [hsame _ .account]
    exact h.accountFile
  keyFile := by
    rw [hsame _ .key]
    exact h.keyFile
  config := by
    intro path hpath hsome
    rw [hsame _ (.config hpath)] at hsome
    obtain ⟨shape, hshape, hheld⟩ := h.config path hpath hsome
    refine ⟨shape, hshape, ?_⟩
    unfold Says
    rw [hsame _ (.config hpath)]
    exact hheld
  signer := by
    rw [hsame _ (.config (Or.inl rfl))]
    exact h.signer
  bridge := by
    intro path hpath hsome
    rw [hsame _ (.config (Or.inr hpath))] at hsome
    exact h.bridge path hpath hsome
  coordination := h.coordination
  action := h.action

/-- A home stays good whose files stay or go, as long as those that matter stay. -/
theorem Good.shrink (hmatters : ∀ path, Matters home path → files' path = files path)
    (hsame : ∀ path file, HomeFile home path → files' path = some file → files path = some file)
    (h : Good texts home files) : Good texts home files' where
  plain := fun path file hpath hfile => h.plain path file hpath (hsame path file hpath hfile)
  managed := by
    rcases h.managed with hunused | ⟨account, hmanaged⟩
    · refine Or.inl ⟨?_, ?_, fun path hpath => ?_⟩
      · rw [hmatters _ .account]
        exact hunused.account
      · rw [hmatters _ .key]
        exact hunused.key
      · rw [hmatters _ (.config hpath)]
        exact hunused.config path hpath
    · exact Or.inr ⟨account, hmanaged.congr hmatters⟩

/-- That a home is good depends on its own files only. -/
theorem Good.congr (hsame : ∀ path, HomeFile home path → files' path = files path)
    (h : Good texts home files) : Good texts home files' :=
  h.shrink (fun path hpath => hsame path hpath.homeFile) fun path file hpath hfile => by
    rw [hsame path hpath] at hfile
    exact hfile

theorem updatedFiles_of_mem {change : FileChange} (hupdate : Update home changes)
    (hmem : change ∈ changes) :
    updatedFiles before changes change.path = some (newFile before change) := by
  have hfind : ∀ changes : List FileChange, (changes.map fun change => change.path).Nodup →
      change ∈ changes →
      (changes.find? fun other => decide (other.path = change.path)) = some change := by
    intro changes hdistinct hmem
    induction changes with
    | nil => cases hmem
    | cons first rest ih =>
      obtain ⟨hfirst, hrest⟩ := List.nodup_cons.mp hdistinct
      rcases List.mem_cons.mp hmem with rfl | hlater
      · simp
      · have hne : first.path ≠ change.path := by
          intro heq
          have hin := List.mem_map_of_mem (f := fun change : FileChange => change.path) hlater
          rw [← heq] at hin
          exact hfirst hin
        rw [List.find?_cons_of_neg (by simpa using hne)]
        exact ih hrest hlater
  unfold updatedFiles
  rw [hfind changes hupdate.distinct hmem]

theorem updatedFiles_of_ne (h : ∀ change ∈ changes, change.path ≠ path) :
    updatedFiles before changes path = before.get? path := by
  have hnone : (changes.find? fun change => decide (change.path = path)) = none := by
    rw [List.find?_eq_none]
    intro change hmem
    simpa using h change hmem
  unfold updatedFiles
  rw [hnone]

theorem Update.proper (hupdate : Update home changes) (hbefore : Good texts home before.get?) :
    Proper home before (listed before changes) :=
  proper_listed hupdate.distinct (fun change hmem => (hupdate.files change hmem).ordinary)
    fun change hmem old hold => hbefore.plain change.path old (hupdate.files change hmem) hold

theorem listed_path {file : ListedFile} (h : file ∈ listed before changes) :
    ∃ change ∈ changes, file.change = change := by
  obtain ⟨change, hmem, rfl⟩ := List.mem_map.mp h
  exact ⟨change, hmem, rfl⟩

theorem mem_listed {change : FileChange} (h : change ∈ changes) :
    (⟨change, before.has change.path⟩ : ListedFile) ∈ listed before changes :=
  List.mem_map_of_mem h

/-- All old or all new, and the rest as it was: a good home. -/
theorem UpdateLeaves.good (h : UpdateLeaves texts home before changes disk)
    (hfiles : AllOld before (listed before changes) disk ∨
      AllNew before (listed before changes) disk) : Good texts home disk.get? := by
  rcases hfiles with hold | hnew
  · refine h.goodBefore.congr fun path hpath => ?_
    by_cases hlisted : ∃ change ∈ changes, change.path = path
    · obtain ⟨change, hmem, rfl⟩ := hlisted
      exact hold _ (mem_listed hmem)
    · exact h.elsewhere path hpath fun change hmem heq => hlisted ⟨change, hmem, heq⟩
  · refine h.goodAfter.congr fun path hpath => ?_
    by_cases hlisted : ∃ change ∈ changes, change.path = path
    · obtain ⟨change, hmem, rfl⟩ := hlisted
      rw [updatedFiles_of_mem h.update hmem]
      exact hnew _ (mem_listed hmem)
    · have hne : ∀ change ∈ changes, change.path ≠ path :=
        fun change hmem heq => hlisted ⟨change, hmem, heq⟩
      rw [updatedFiles_of_ne hne]
      exact h.elsewhere path hpath hne

theorem UpdateLeaves.steady (h : UpdateLeaves texts home before changes disk)
    (hunmarked : Unmarked home disk) : Steady texts home disk := by
  refine ⟨?_, hunmarked⟩
  rcases h.left with (huntouched | ⟨⟨mode, hmarked⟩, -⟩ | ⟨⟨mode, hmarked⟩, -⟩) | hfinished
  · exact h.good (Or.inl huntouched.1)
  · exact absurd (hunmarked.symm.trans hmarked) (by simp)
  · exact absurd (hunmarked.symm.trans hmarked) (by simp)
  · exact h.good (Or.inr hfinished.1)

theorem Steady.leaves (h : Steady texts home disk) : Leaves texts home disk := by
  refine ⟨disk, [], ⟨List.nodup_nil, ?_, ?_⟩, h.good, h.good, ?_, fun _ _ _ => rfl⟩
  · exact fun _ hmem => absurd hmem List.not_mem_nil
  · exact fun _ hmem => absurd hmem List.not_mem_nil
  · exact Or.inl (Or.inl ⟨fun _ hmem => absurd hmem List.not_mem_nil, h.unmarked⟩)

theorem elsewhere_apart (home : Path) (before : FileSystem) (changes : List FileChange) :
    Apart home changes (Elsewhere home before changes) := by
  have hordinary : ∀ path, (∀ other, HomeFile home other → other ≠ path) →
      Ignores (Elsewhere home before changes) path := by
    intro path hne disk disk' hsame h other hother hlisted
    rw [hsame other (hne other hother)]
    exact h other hother hlisted
  refine ⟨fun change hmem => ?_, ?_, ?_, ?_, ?_⟩
  · intro disk disk' hsame h other hother hlisted
    rw [hsame other (hlisted change hmem).symm]
    exact h other hother hlisted
  · exact fun path => hordinary _ fun other hother => hother.ordinary.ne_staged
  · exact fun path => hordinary _ fun other hother => hother.ordinary.ne_kept
  · exact hordinary _ fun other hother => hother.ordinary.ne_marker
  · exact hordinary _ fun other hother => hother.ordinary.ne_markerTemp

/-- The rule for an update: from a good home, with changes that make a good home. -/
theorem commitChanges_steady (hsteady : Steady texts home before) (hupdate : Update home changes)
    (hafter : Good texts home (updatedFiles before changes)) :
    Triple (fun disk => disk = before) (commitChanges home changes)
      (fun _ => Steady texts home) (Leaves texts home) (Leaves texts home) := by
  have hproper := hupdate.proper hsteady.good
  have hkeeps : Triple (fun disk => disk = before) (commitChanges home changes)
      (fun _ => Elsewhere home before changes) (Elsewhere home before changes)
      (Elsewhere home before changes) := by
    refine (commitChanges_keeps (elsewhere_apart home before changes)).strengthen ?_
    rintro disk rfl path hpath hlisted
    rfl
  have hboth := (commitChanges_triple hproper hsteady.unmarked).and hkeeps
  have hleaves : ∀ disk, Left home before (listed before changes) disk →
      Elsewhere home before changes disk → UpdateLeaves texts home before changes disk :=
    fun disk hleft helsewhere => ⟨hupdate, hsteady.good, hafter, hleft, helsewhere⟩
  refine hboth.weaken (fun _ h => ⟨h, h⟩) (fun _ disk h => ?_) (fun disk h => ?_) fun disk h => ?_
  · exact (hleaves disk (Or.inr h.1) h.2).steady h.1.2
  · exact ⟨before, changes, hleaves disk (Or.inl h.1) h.2⟩
  · exact ⟨before, changes, hleaves disk (Or.inl h.1) h.2⟩

theorem Left.markerOf (h : Left home before (listed before changes) disk) :
    MarkerOf home changes disk := by
  have hpending : ∀ file ∈ (pendingUpdate (listed before changes)).files,
      ∃ change ∈ changes, change.path = file.path := by
    intro file hmem
    obtain ⟨entry, hentry, rfl⟩ := List.mem_map.mp hmem
    obtain ⟨change, hchange, heq⟩ := listed_path hentry
    exact ⟨change, hchange, by rw [heq]⟩
  intro update mode hmarker
  rcases h with (huntouched | ⟨⟨_, hmarked⟩, -⟩ | ⟨⟨_, hmarked⟩, -⟩) | hfinished
  · exact absurd (huntouched.2.symm.trans hmarker) (by simp)
  · rw [hmarker] at hmarked
    cases hmarked
    exact hpending
  · rw [hmarker] at hmarked
    cases hmarked
    exact hpending
  · exact absurd (hfinished.2.symm.trans hmarker) (by simp)

/-- Recovery leads from what an update leaves to a good home. -/
theorem recover_steady : Triple (Leaves texts home) (recoverInterruptedUpdate home)
    (fun _ => Steady texts home) (Leaves texts home) (Leaves texts home) := by
  refine Triple.exists fun before => Triple.exists fun changes => ?_
  intro start hsure hstart
  have hboth := (recover_triple (hstart.update.proper hstart.goodBefore)).and
    (recover_keeps (elsewhere_apart home before changes))
  have hleaves : ∀ disk, Left home before (listed before changes) disk →
      Elsewhere home before changes disk → UpdateLeaves texts home before changes disk :=
    fun disk hleft helsewhere => ⟨hstart.update, hstart.goodBefore, hstart.goodAfter, hleft, helsewhere⟩
  refine hboth.weaken (fun _ h => h) (fun _ disk h => ?_) (fun disk h => ?_) (fun disk h => ?_) start
    hsure ⟨hstart.left, hstart.elsewhere, hstart.left.markerOf⟩
  · have hleft : UpdateLeaves texts home before changes disk := hleaves disk h.1.left h.2
    exact hleft.steady h.1.2.1
  · exact ⟨before, changes, hleaves disk h.1 h.2⟩
  · exact ⟨before, changes, hleaves disk h.1 h.2⟩

end Updates

end Mpas.Installer
