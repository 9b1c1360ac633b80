import Mpas.Library.Faults
import Mpas.Library.OrderedMap

/-!
# Multi-file updates of the installer

Every new file is written beside its target, each replaced file is kept as a
copy, and a marker records the set before any rename. A failure undoes what was
committed; a process that stops part way is recovered by the next command.

* `commitChanges`: the update;
* `recoverInterruptedUpdate`: undoes, or finishes, what a stopped process left.
-/

namespace Mpas.Installer

open Faulty (attempt check)

abbrev Path := String

/-! ## Files -/

structure PendingFile where
  path : Path
  existed : Bool
  deriving DecidableEq

/-- `committed` is set once every rename completed. -/
structure PendingUpdate where
  committed : Bool
  files : List PendingFile
  deriving DecidableEq

/-- A marker is kept as the update that its JSON text says. -/
inductive Contents
  | bytes (bytes : List UInt8)
  | marker (update : PendingUpdate)
  deriving DecidableEq

structure File where
  contents : Contents
  mode : Nat
  deriving DecidableEq

/-- Directories are left out: what is done to them leaves the files as they are. -/
abbrev FileSystem := OrderedMap Path File

inductive InstallError
  /-- of a file operation or a failpoint -/
  | failed
  | noSuchFile
  | unreadable
  | message (text : String)
  deriving DecidableEq

abbrev Script := Program (Faulty FileSystem) InstallError

inductive Step
  | stage
  | backup
  | marker
  | commit

/-- `deps.failpoint`, by which tests let a step fail. -/
def failpoint (_ : Step) (_ : Path) : Script Unit := attempt .failed fun files => .ok ((), files)

/-- A `stat` that fails for whatever reason says that the file is not there. -/
def fileExists (path : Path) : Script Bool := check fun files => files.has path

def stat (path : Path) : Script File := attempt .failed fun files =>
  match files.get? path with
  | some file => .ok (file, files)
  | none => .error .noSuchFile

/-- `ensureDir(dirname(path))` -/
def ensureDirOf (_ : Path) : Script Unit := attempt .failed fun files => .ok ((), files)

/-- A file that is there keeps its mode. -/
def writeFile (path : Path) (contents : Contents) (mode : Nat) : Script Unit :=
  attempt .failed fun files =>
    .ok ((), files.set path ⟨contents, ((files.get? path).map (·.mode)).getD mode⟩)

def chmod (path : Path) (mode : Nat) : Script Unit := attempt .failed fun files =>
  match files.get? path with
  | some file => .ok ((), files.set path { file with mode })
  | none => .error .noSuchFile

def copyFile (source target : Path) : Script Unit := attempt .failed fun files =>
  match files.get? source with
  | some file => .ok ((), files.set target file)
  | none => .error .noSuchFile

def rename (source target : Path) : Script Unit := attempt .failed fun files =>
  match files.get? source with
  | some file => .ok ((), (files.delete source).set target file)
  | none => .error .noSuchFile

/-- `rm(path, { force: true })` -/
def rm (path : Path) : Script Unit := attempt .failed fun files => .ok ((), files.delete path)

def readFile (path : Path) : Script Contents := attempt .failed fun files =>
  match files.get? path with
  | some file => .ok (file.contents, files)
  | none => .error .noSuchFile

/-- All paths below a directory. -/
def readdir (directory : Path) : Script (List Path) := attempt .failed fun files =>
  .ok (files.keys.filter fun path => (directory ++ "/").toList.isPrefixOf path.toList, files)

/-! ## The marker -/

/-- `paths.updateMarker` -/
def updateMarker (home : Path) : Path := home ++ "/update-in-progress.json"

def markerTemp (home : Path) : Path := updateMarker home ++ ".tmp"

def staged (path : Path) : Path := path ++ ".mpas-new"

def kept (path : Path) : Path := path ++ ".mpas-old"

def writeMarker (home : Path) (update : PendingUpdate) : Script Unit := do
  failpoint .marker (updateMarker home)
  writeFile (markerTemp home) (.marker update) 0o600
  rename (markerTemp home) (updateMarker home)

/-! ## The update -/

structure FileChange where
  path : Path
  contents : List UInt8
  mode : Option Nat := none

structure ListedFile where
  change : FileChange
  existed : Bool

/-- `mode & 0o777` -/
def permissions (mode : Nat) : Nat := mode % 0o1000

/-- `Promise.all(changes.map(…))` -/
def lookUp : List FileChange → Script (List ListedFile)
  | [] => return []
  | change :: rest => do
    let existed ← fileExists change.path
    let files ← lookUp rest
    return ⟨change, existed⟩ :: files

def cleanupStaged (files : List ListedFile) : Script Unit :=
  files.forM fun file => rm (staged file.change.path)

def cleanupKept (files : List ListedFile) : Script Unit :=
  files.forM fun file => rm (kept file.change.path)

/-- `change.mode ?? (existed ? (await stat(change.path)).mode & 0o777 : 0o644)` -/
def stagedMode (file : ListedFile) : Script Nat :=
  match file.change.mode with
  | some mode => return mode
  | none =>
    if file.existed then do
      let found ← stat file.change.path
      return permissions found.mode
    else return 0o644

def stageFile (file : ListedFile) : Script Unit := do
  failpoint .stage file.change.path
  ensureDirOf file.change.path
  let mode ← stagedMode file
  writeFile (staged file.change.path) (.bytes file.change.contents) mode
  chmod (staged file.change.path) mode

def backupFile (file : ListedFile) : Script Unit :=
  if file.existed then do
    failpoint .backup file.change.path
    copyFile file.change.path (kept file.change.path)
    let found ← stat file.change.path
    chmod (kept file.change.path) (permissions found.mode)
  else return ()

def commitFile (file : ListedFile) : Script Unit := do
  failpoint .commit file.change.path
  rename (staged file.change.path) file.change.path

def restoreFile (file : PendingFile) : Script Unit :=
  if file.existed then do
    if ← fileExists (kept file.path) then rename (kept file.path) file.path else return ()
  else rm file.path

def rollBackFile (file : PendingFile) : Script Unit := do
  restoreFile file
  rm (staged file.path)

def rollBack (update : PendingUpdate) : Script Unit := update.files.forM rollBackFile

def removeMarker (home : Path) : Script Unit := do
  rm (markerTemp home)
  rm (updateMarker home)

def pendingUpdate (files : List ListedFile) : PendingUpdate where
  committed := false
  files := files.map fun file => ⟨file.change.path, file.existed⟩

def commitChanges (home : Path) (changes : List FileChange) : Script Unit := do
  let files ← lookUp changes
  tryCatch
    (do
      files.forM stageFile
      files.forM backupFile)
    (fun error => do
      cleanupStaged files
      cleanupKept files
      throw error)
  tryCatch (writeMarker home (pendingUpdate files))
    (fun error => do
      cleanupStaged files
      cleanupKept files
      removeMarker home
      throw error)
  tryCatch
    (do
      files.forM commitFile
      writeMarker home { pendingUpdate files with committed := true })
    (fun error => do
      rollBack (pendingUpdate files)
      removeMarker home
      throw error)
  cleanupKept files
  rm (updateMarker home)

/-! ## Recovery -/

def endsWith (ending path : String) : Bool := ending.toList.isSuffixOf path.toList

def unreadableMessage (home : Path) (copies : List Path) : String :=
  "The update marker " ++ updateMarker home ++
    " cannot be read, so an interrupted update cannot be recovered automatically.\n" ++
    (if copies.isEmpty then
      "No kept copies were found, so no file was replaced before the interruption."
    else "Each of these copies holds a file's earlier contents. Rename each over the file without " ++
      "the .mpas-old ending: " ++ String.intercalate ", " copies ++ ".") ++
    "\nThen delete " ++ updateMarker home ++ " and any files ending in .mpas-new."

def readMarker (home : Path) : Script PendingUpdate := do
  match ← readFile (updateMarker home) with
  | .marker update => return update
  | .bytes _ => throw .unreadable

def finishFile (file : PendingFile) : Script Unit := do
  rm (kept file.path)
  rm (staged file.path)

def recoverInterruptedUpdate (home : Path) : Script (Option String) := do
  rm (markerTemp home)
  if ← fileExists (updateMarker home) then
    let update ← tryCatch (readMarker home) fun _ => do
      let names ← readdir home
      throw (.message (unreadableMessage home (names.filter (endsWith ".mpas-old"))))
    if update.committed then
      update.files.forM finishFile
      rm (updateMarker home)
      return some ("An interrupted update was completed: " ++ toString update.files.length ++
        " file(s) already had their new contents.")
    else
      rollBack update
      rm (updateMarker home)
      return some ("An interrupted update was rolled back: " ++ toString update.files.length ++
        " file(s) restored to their earlier contents.")
  else return none

end Mpas.Installer
