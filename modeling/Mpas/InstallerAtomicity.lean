import Mpas.InstallerUpdate

/-!
# Multi-file updates are atomic

Whatever operation fails and wherever a process ends, what is left of an update
is one of four kinds: untouched, with a marker from which everything can be
restored, with a marker that says committed, or finished. Recovery goes from
each kind to an untouched or a finished one. All of this needs that the checks
for a file do not miss one that is there.

* `commitChanges_triple`, `recover_triple`: the two programs, as triples;
* `update_atomic`: all files old or all new, after any failures and crashes.
-/

namespace Mpas.Installer

open Faulty (Triple Ends Returns Throws)

/-! ## Paths -/

theorem getLast?_append_string (path ending : String) (h : ending.toList ≠ []) :
    (path ++ ending).toList.getLast? = ending.toList.getLast? := by
  rw [String.toList_append, List.getLast?_append]
  cases hlast : ending.toList.getLast? with
  | none => exact absurd (List.getLast?_eq_none_iff.mp hlast) h
  | some c => rfl

theorem staged_last (path : Path) : (staged path).toList.getLast? = some 'w' :=
  getLast?_append_string path ".mpas-new" (by decide)

theorem kept_last (path : Path) : (kept path).toList.getLast? = some 'd' :=
  getLast?_append_string path ".mpas-old" (by decide)

theorem updateMarker_last (home : Path) : (updateMarker home).toList.getLast? = some 'n' :=
  getLast?_append_string home "/update-in-progress.json" (by decide)

theorem markerTemp_last (home : Path) : (markerTemp home).toList.getLast? = some 'p' :=
  getLast?_append_string (updateMarker home) ".tmp" (by decide)

theorem ne_of_last {p q : Path} {a b : Char} (hp : p.toList.getLast? = some a)
    (hq : q.toList.getLast? = some b) (hab : a ≠ b) : p ≠ q := by
  rintro rfl
  rw [hp] at hq
  exact hab (Option.some.inj hq)

theorem staged_injective : Function.Injective staged := by
  intro p q h
  have hlist : p.toList ++ ".mpas-new".toList = q.toList ++ ".mpas-new".toList := by
    rw [← String.toList_append, ← String.toList_append]
    exact congrArg String.toList h
  exact String.toList_injective (List.append_cancel_right hlist)

theorem kept_injective : Function.Injective kept := by
  intro p q h
  have hlist : p.toList ++ ".mpas-old".toList = q.toList ++ ".mpas-old".toList := by
    rw [← String.toList_append, ← String.toList_append]
    exact congrArg String.toList h
  exact String.toList_injective (List.append_cancel_right hlist)

theorem endsWith_append (path ending : String) : endsWith ending (path ++ ending) = true := by
  unfold endsWith
  rw [String.toList_append, List.isSuffixOf_iff_suffix]
  exact List.suffix_append _ _

/-- The path is none of those that an update makes use of beside its files. -/
structure Ordinary (home path : Path) : Prop where
  ne_marker : path ≠ updateMarker home
  ne_markerTemp : path ≠ markerTemp home
  not_staged : endsWith ".mpas-new" path = false
  not_kept : endsWith ".mpas-old" path = false

theorem Ordinary.ne_staged {home path other : Path} (h : Ordinary home path) :
    path ≠ staged other := by
  rintro rfl
  have hends := endsWith_append other ".mpas-new"
  rw [show other ++ ".mpas-new" = staged other from rfl, h.not_staged] at hends
  cases hends

theorem Ordinary.ne_kept {home path other : Path} (h : Ordinary home path) :
    path ≠ kept other := by
  rintro rfl
  have hends := endsWith_append other ".mpas-old"
  rw [show other ++ ".mpas-old" = kept other from rfl, h.not_kept] at hends
  cases hends

theorem staged_ne_kept (p q : Path) : staged p ≠ kept q :=
  ne_of_last (staged_last p) (kept_last q) (by decide)

theorem staged_ne_marker (p home : Path) : staged p ≠ updateMarker home :=
  ne_of_last (staged_last p) (updateMarker_last home) (by decide)

theorem kept_ne_marker (p home : Path) : kept p ≠ updateMarker home :=
  ne_of_last (kept_last p) (updateMarker_last home) (by decide)

theorem markerTemp_ne_staged (home p : Path) : markerTemp home ≠ staged p :=
  ne_of_last (markerTemp_last home) (staged_last p) (by decide)

theorem markerTemp_ne_kept (home p : Path) : markerTemp home ≠ kept p :=
  ne_of_last (markerTemp_last home) (kept_last p) (by decide)

theorem markerTemp_ne_marker (home : Path) : markerTemp home ≠ updateMarker home :=
  ne_of_last (markerTemp_last home) (updateMarker_last home) (by decide)

/-! ## Operations as triples -/

/-- The two disks have the same files everywhere else. -/
def SameBut (path : Path) (disk disk' : FileSystem) : Prop :=
  ∀ other, other ≠ path → disk'.get? other = disk.get? other

/-- The condition does not depend on the file at the path. -/
def Ignores (P : FileSystem → Prop) (path : Path) : Prop :=
  ∀ disk disk', SameBut path disk disk' → P disk → P disk'

theorem sameBut_set (disk : FileSystem) (path : Path) (file : File) :
    SameBut path disk (disk.set path file) :=
  fun _ hne => OrderedMap.get?_set_ne disk file (Ne.symm hne)

theorem sameBut_delete (disk : FileSystem) (path : Path) : SameBut path disk (disk.delete path) :=
  fun other hne => by rw [OrderedMap.get?_delete, if_neg (Ne.symm hne)]

section Operations

variable {P E C : FileSystem → Prop} {path source target : Path} {file : File}

theorem failpoint_triple {step : Step} (he : ∀ disk, P disk → E disk) (hc : ∀ disk, P disk → C disk) :
    Triple P (failpoint step path) (fun _ => P) E C :=
  Triple.attempt he hc fun disk _ disk' h heq => by
    cases heq
    exact h

theorem ensureDirOf_triple (he : ∀ disk, P disk → E disk) (hc : ∀ disk, P disk → C disk) :
    Triple P (ensureDirOf path) (fun _ => P) E C :=
  Triple.attempt he hc fun disk _ disk' h heq => by
    cases heq
    exact h

theorem fileExists_triple (hc : ∀ disk, P disk → C disk) :
    Triple P (fileExists path) (fun found disk => P disk ∧ found = disk.has path) E C :=
  Triple.check hc fun _ h => ⟨h, rfl⟩

theorem stat_triple (he : ∀ disk, P disk → E disk) (hc : ∀ disk, P disk → C disk) :
    Triple P (stat path) (fun file disk => P disk ∧ disk.get? path = some file) E C := by
  refine Triple.attempt he hc fun disk found disk' h heq => ?_
  split at heq
  · rename_i file hfile
    cases heq
    exact ⟨h, hfile⟩
  · cases heq

theorem readFile_triple (he : ∀ disk, P disk → E disk) (hc : ∀ disk, P disk → C disk) :
    Triple P (readFile path) (fun contents disk => P disk ∧
      ∃ mode, disk.get? path = some ⟨contents, mode⟩) E C := by
  refine Triple.attempt he hc fun disk contents disk' h heq => ?_
  split at heq
  · rename_i file hfile
    cases heq
    exact ⟨h, file.mode, hfile⟩
  · cases heq

theorem writeFile_triple {contents : Contents} {mode : Nat} (hignores : Ignores P path)
    (he : ∀ disk, P disk → E disk) (hc : ∀ disk, P disk → C disk) :
    Triple P (writeFile path contents mode)
      (fun _ disk => P disk ∧ ∃ found, disk.get? path = some ⟨contents, found⟩) E C := by
  refine Triple.attempt he hc fun disk _ disk' h heq => ?_
  cases heq
  exact ⟨hignores _ _ (sameBut_set disk path _) h, _, OrderedMap.get?_set_self disk path _⟩

theorem chmod_triple {contents : Contents} {mode : Nat} (hignores : Ignores P path)
    (he : ∀ disk, P disk → E disk) (hc : ∀ disk, P disk → C disk) :
    Triple (fun disk => P disk ∧ ∃ found, disk.get? path = some ⟨contents, found⟩)
      (chmod path mode) (fun _ disk => P disk ∧ disk.get? path = some ⟨contents, mode⟩) E C := by
  refine Triple.attempt (fun disk h => he disk h.1) (fun disk h => hc disk h.1) ?_
  rintro disk _ disk' ⟨h, found, hfound⟩ heq
  rw [hfound] at heq
  cases heq
  exact ⟨hignores _ _ (sameBut_set disk path _) h, OrderedMap.get?_set_self disk path _⟩

theorem copyFile_triple (hignores : Ignores P target)
    (he : ∀ disk, P disk → E disk) (hc : ∀ disk, P disk → C disk)
    (hsource : ∀ disk, P disk → disk.get? source = some file) :
    Triple P (copyFile source target) (fun _ disk => P disk ∧ disk.get? target = some file) E C := by
  refine Triple.attempt he hc fun disk _ disk' h heq => ?_
  rw [hsource disk h] at heq
  cases heq
  exact ⟨hignores _ _ (sameBut_set disk target _) h, OrderedMap.get?_set_self disk target _⟩

theorem rm_triple {Q : FileSystem → Prop} (he : ∀ disk, P disk → E disk)
    (hc : ∀ disk, P disk → C disk)
    (hq : ∀ disk disk', P disk → SameBut path disk disk' → disk'.get? path = none → Q disk') :
    Triple P (rm path) (fun _ => Q) E C := by
  refine Triple.attempt he hc fun disk _ disk' h heq => ?_
  cases heq
  exact hq _ _ h (sameBut_delete disk path) (by rw [OrderedMap.get?_delete, if_pos rfl])

theorem rm_ignored (hignores : Ignores P path) (he : ∀ disk, P disk → E disk)
    (hc : ∀ disk, P disk → C disk) : Triple P (rm path) (fun _ => P) E C :=
  rm_triple he hc fun _ _ h hsame _ => hignores _ _ hsame h

theorem rename_triple {Q : FileSystem → Prop} (he : ∀ disk, P disk → E disk)
    (hc : ∀ disk, P disk → C disk) (hne : source ≠ target)
    (hq : ∀ disk disk' file, P disk → disk.get? source = some file →
      (∀ other, other ≠ source → other ≠ target → disk'.get? other = disk.get? other) →
      disk'.get? source = none → disk'.get? target = some file → Q disk') :
    Triple P (rename source target) (fun _ => Q) E C := by
  refine Triple.attempt he hc fun disk _ disk' h heq => ?_
  split at heq
  · rename_i file hfile
    cases heq
    refine hq _ _ file h hfile ?_ ?_ (OrderedMap.get?_set_self _ target file)
    · intro other hsource htarget
      rw [OrderedMap.get?_set_ne _ file (Ne.symm htarget), OrderedMap.get?_delete,
        if_neg (Ne.symm hsource)]
    · rw [OrderedMap.get?_set_ne _ file (Ne.symm hne), OrderedMap.get?_delete, if_pos rfl]
  · cases heq

end Operations

/-! ## What an update leaves -/

structure Proper (home : Path) (before : FileSystem) (files : List ListedFile) : Prop where
  existed : ∀ file ∈ files, file.existed = before.has file.change.path
  distinct : (files.map fun file => file.change.path).Nodup
  ordinary : ∀ file ∈ files, Ordinary home file.change.path
  plain : ∀ file ∈ files, ∀ old, before.get? file.change.path = some old → old.mode < 0o1000

def newMode (before : FileSystem) (change : FileChange) : Nat :=
  change.mode.getD (match before.get? change.path with
    | some old => permissions old.mode
    | none => 0o644)

def newFile (before : FileSystem) (change : FileChange) : File :=
  ⟨.bytes change.contents, newMode before change⟩

section Kinds

variable (home : Path) (before : FileSystem) (files : List ListedFile) (disk : FileSystem)

def AllOld : Prop := ∀ file ∈ files, disk.get? file.change.path = before.get? file.change.path

def AllNew : Prop :=
  ∀ file ∈ files, disk.get? file.change.path = some (newFile before file.change)

def StagedFiles : Prop :=
  ∀ file ∈ files, disk.get? (staged file.change.path) = some (newFile before file.change)

def KeptFiles : Prop := ∀ file ∈ files, ∀ old, before.get? file.change.path = some old →
  disk.get? (kept file.change.path) = some old

/-- Every file that is to be restored has its copy, or has been restored from it. -/
def Restorable : Prop := ∀ file ∈ files, ∀ old, before.get? file.change.path = some old →
  disk.get? (kept file.change.path) = some old ∨
    disk.get? (kept file.change.path) = none ∧ disk.get? file.change.path = some old

def Unmarked : Prop := disk.get? (updateMarker home) = none

def Marked (update : PendingUpdate) (disk : FileSystem) : Prop :=
  ∃ mode, disk.get? (updateMarker home) = some ⟨.marker update, mode⟩

def committedUpdate : PendingUpdate := { pendingUpdate files with committed := true }

def Untouched : Prop := AllOld before files disk ∧ Unmarked home disk

def Undoable : Prop := Marked home (pendingUpdate files) disk ∧ Restorable before files disk

def Committed : Prop := Marked home (committedUpdate files) disk ∧ AllNew before files disk

def Finished : Prop := AllNew before files disk ∧ Unmarked home disk

/-- What a process may leave that stops in an update. -/
def Interrupted : Prop :=
  Untouched home before files disk ∨ Undoable home before files disk ∨
    Committed home before files disk

/-- Nothing that a recovery would see is left. -/
def Clean : Prop := Unmarked home disk ∧ disk.get? (markerTemp home) = none

end Kinds

variable {home : Path} {before : FileSystem} {files done rest : List ListedFile}
  {item : ListedFile} {path : Path}

theorem Ignores.and {P Q : FileSystem → Prop} (hp : Ignores P path) (hq : Ignores Q path) :
    Ignores (fun disk => P disk ∧ Q disk) path :=
  fun _ _ hsame h => ⟨hp _ _ hsame h.1, hq _ _ hsame h.2⟩

theorem allOld_ignores (h : ∀ file ∈ files, file.change.path ≠ path) :
    Ignores (AllOld before files) path := by
  intro disk disk' hsame hold file hmem
  rw [hsame _ (h file hmem)]
  exact hold file hmem

theorem allNew_ignores (h : ∀ file ∈ files, file.change.path ≠ path) :
    Ignores (AllNew before files) path := by
  intro disk disk' hsame hnew file hmem
  rw [hsame _ (h file hmem)]
  exact hnew file hmem

theorem stagedFiles_ignores (h : ∀ file ∈ files, staged file.change.path ≠ path) :
    Ignores (StagedFiles before files) path := by
  intro disk disk' hsame hstaged file hmem
  rw [hsame _ (h file hmem)]
  exact hstaged file hmem

theorem keptFiles_ignores (h : ∀ file ∈ files, kept file.change.path ≠ path) :
    Ignores (KeptFiles before files) path := by
  intro disk disk' hsame hkept file hmem old hold
  rw [hsame _ (h file hmem)]
  exact hkept file hmem old hold

theorem restorable_ignores (h : ∀ file ∈ files, kept file.change.path ≠ path ∧
    file.change.path ≠ path) : Ignores (Restorable before files) path := by
  intro disk disk' hsame hrestorable file hmem old hold
  rw [hsame _ (h file hmem).1, hsame _ (h file hmem).2]
  exact hrestorable file hmem old hold

theorem absent_ignores {absent : Path} (h : path ≠ absent) :
    Ignores (fun disk => disk.get? absent = none) path := by
  intro disk disk' hsame habsent
  rw [hsame _ (Ne.symm h)]
  exact habsent

theorem marked_ignores {update : PendingUpdate} (h : path ≠ updateMarker home) :
    Ignores (Marked home update) path := by
  rintro disk disk' hsame ⟨mode, hmarked⟩
  exact ⟨mode, by rw [hsame _ (Ne.symm h), hmarked]⟩

/-- The paths that an update uses beside the listed files and the marker. -/
inductive Scratch (home : Path) : Path → Prop
  | staged (path : Path) : Scratch home (staged path)
  | kept (path : Path) : Scratch home (kept path)
  | markerTemp : Scratch home (markerTemp home)

theorem Scratch.ne_marker (h : Scratch home path) : path ≠ updateMarker home := by
  cases h with
  | staged path => exact staged_ne_marker path home
  | kept path => exact kept_ne_marker path home
  | markerTemp => exact markerTemp_ne_marker home

theorem Proper.ne_scratch (hproper : Proper home before files) (h : Scratch home path) :
    ∀ file ∈ files, file.change.path ≠ path := by
  intro file hmem
  have hordinary := hproper.ordinary file hmem
  cases h with
  | staged path => exact hordinary.ne_staged
  | kept path => exact hordinary.ne_kept
  | markerTemp => exact hordinary.ne_markerTemp

theorem Proper.untouched_ignores (hproper : Proper home before files) (h : Scratch home path) :
    Ignores (Untouched home before files) path :=
  (allOld_ignores (hproper.ne_scratch h)).and (absent_ignores h.ne_marker)

theorem Proper.committed_ignores (hproper : Proper home before files) (h : Scratch home path) :
    Ignores (Committed home before files) path :=
  (marked_ignores h.ne_marker).and (allNew_ignores (hproper.ne_scratch h))

/-- Listed before the item, or after it: not the item's path. -/
theorem Proper.ne_item (hproper : Proper home before files) (heq : files = done ++ item :: rest) :
    (∀ file ∈ done, file.change.path ≠ item.change.path) ∧
      ∀ file ∈ rest, file.change.path ≠ item.change.path := by
  have hdistinct := hproper.distinct
  rw [heq, List.map_append, List.map_cons] at hdistinct
  obtain ⟨-, hrest, hdone⟩ := List.nodup_append.mp hdistinct
  constructor
  · intro file hfile
    exact hdone _ (List.mem_map_of_mem hfile) _ List.mem_cons_self
  · intro file hfile hsame
    have hnot := (List.nodup_cons.mp hrest).1
    rw [← hsame] at hnot
    exact hnot (List.mem_map_of_mem (f := fun file => file.change.path) hfile)

theorem item_mem (heq : files = done ++ item :: rest) : item ∈ files := by
  rw [heq]
  exact List.mem_append_right done List.mem_cons_self

/-! ## Staging and copying -/

theorem stagedMode_triple {P E C : FileSystem → Prop}
    (hexisted : item.existed = before.has item.change.path)
    (hold : ∀ disk, P disk → disk.get? item.change.path = before.get? item.change.path)
    (he : ∀ disk, P disk → E disk) (hc : ∀ disk, P disk → C disk) :
    Triple P (stagedMode item)
      (fun mode disk => mode = newMode before item.change ∧ P disk) E C := by
  unfold stagedMode newMode
  cases item.change.mode with
  | some mode => exact Triple.pure fun disk h => ⟨rfl, h⟩
  | none =>
    cases hbefore : before.get? item.change.path with
    | some old =>
      have htrue : item.existed = true := by rw [hexisted, OrderedMap.has, hbefore]; rfl
      simp only [htrue, ↓reduceIte, Option.getD_none]
      refine (stat_triple he hc).bind fun found => Triple.pure ?_
      rintro disk ⟨h, hfound⟩
      rw [hold disk h, hbefore] at hfound
      cases hfound
      exact ⟨rfl, h⟩
    | none =>
      have hfalse : item.existed = false := by rw [hexisted, OrderedMap.has, hbefore]; rfl
      simp only [hfalse, Bool.false_eq_true, ↓reduceIte, Option.getD_none]
      exact Triple.pure fun disk h => ⟨rfl, h⟩

theorem stageFiles_triple (hproper : Proper home before files) :
    Triple (Untouched home before files) (files.forM stageFile)
      (fun _ disk => Untouched home before files disk ∧ StagedFiles before files disk)
      (Untouched home before files) (Untouched home before files) := by
  refine Triple.strengthen (Triple.forM (I := fun done _ disk =>
    Untouched home before files disk ∧ StagedFiles before done disk) ?_)
    fun disk h => ⟨h, fun file hfile => absurd hfile List.not_mem_nil⟩
  intro done item rest heq
  have hmem := item_mem heq
  have hignores : Ignores (fun disk => Untouched home before files disk ∧
      StagedFiles before done disk) (staged item.change.path) := by
    refine (hproper.untouched_ignores (.staged _)).and (stagedFiles_ignores fun file hfile hsame => ?_)
    exact (hproper.ne_item heq).1 file hfile (staged_injective hsame)
  have hleft : ∀ disk, (Untouched home before files disk ∧ StagedFiles before done disk) →
      Untouched home before files disk := fun _ h => h.1
  unfold stageFile
  refine (failpoint_triple hleft hleft).seq ?_
  refine (ensureDirOf_triple hleft hleft).seq ?_
  have hmode := stagedMode_triple (hproper.existed item hmem)
    (fun disk (h : Untouched home before files disk ∧ StagedFiles before done disk) =>
      h.1.1 item hmem) hleft hleft
  refine hmode.bind fun mode => Triple.given fun hmode => ?_
  refine (writeFile_triple hignores hleft hleft).seq ?_
  refine (chmod_triple hignores hleft hleft).weaken (fun _ h => h) ?_ (fun _ h => h) fun _ h => h
  rintro - disk ⟨⟨huntouched, hstaged⟩, hnew⟩
  refine ⟨huntouched, fun file hfile => ?_⟩
  rcases List.mem_append.mp hfile with hdone | hitem
  · exact hstaged file hdone
  · rw [List.mem_singleton.mp hitem, hnew, hmode]
    rfl

theorem backupFile_triple (hproper : Proper home before files)
    (heq : files = done ++ item :: rest) :
    Triple (fun disk => (Untouched home before files disk ∧ StagedFiles before files disk) ∧
        KeptFiles before done disk)
      (backupFile item)
      (fun _ disk => (Untouched home before files disk ∧ StagedFiles before files disk) ∧
        KeptFiles before (done ++ [item]) disk)
      (Untouched home before files) (Untouched home before files) := by
  have hmem := item_mem heq
  have hignores : Ignores (fun disk => (Untouched home before files disk ∧
      StagedFiles before files disk) ∧ KeptFiles before done disk) (kept item.change.path) := by
    refine ((hproper.untouched_ignores (.kept _)).and ?_).and ?_
    · exact stagedFiles_ignores fun file _ => staged_ne_kept _ _
    · refine keptFiles_ignores fun file hfile hsame => ?_
      exact (hproper.ne_item heq).1 file hfile (kept_injective hsame)
  have hleft : ∀ disk, ((Untouched home before files disk ∧ StagedFiles before files disk) ∧
      KeptFiles before done disk) → Untouched home before files disk := fun _ h => h.1.1
  unfold backupFile
  cases hbefore : before.get? item.change.path with
  | none =>
    have hfalse : item.existed = false := by
      rw [hproper.existed item hmem, OrderedMap.has, hbefore]
      rfl
    rw [hfalse]
    refine Triple.pure fun disk h => ⟨h.1, fun file hfile old hold => ?_⟩
    rcases List.mem_append.mp hfile with hdone | hitem
    · exact h.2 file hdone old hold
    · rw [List.mem_singleton.mp hitem, hbefore] at hold
      cases hold
  | some old =>
    have htrue : item.existed = true := by
      rw [hproper.existed item hmem, OrderedMap.has, hbefore]
      rfl
    have hsource : ∀ disk, ((Untouched home before files disk ∧ StagedFiles before files disk) ∧
        KeptFiles before done disk) → disk.get? item.change.path = some old := by
      intro disk h
      rw [h.1.1.1 item hmem, hbefore]
    have hplain : permissions old.mode = old.mode :=
      Nat.mod_eq_of_lt (hproper.plain item hmem old hbefore)
    simp only [htrue, ↓reduceIte]
    refine (failpoint_triple hleft hleft).seq ?_
    refine (copyFile_triple hignores hleft hleft hsource).seq ?_
    refine (stat_triple (fun _ h => hleft _ h.1) fun _ h => hleft _ h.1).bind fun found => ?_
    -- The file found is the old one, whose mode the copy gets.
    refine Triple.strengthen (P := fun disk => found = old ∧
      (((Untouched home before files disk ∧ StagedFiles before files disk) ∧
        KeptFiles before done disk) ∧
          ∃ mode, disk.get? (kept item.change.path) = some ⟨old.contents, mode⟩))
      (Triple.given fun hfound => ?_) ?_
    · subst hfound
      refine (chmod_triple hignores hleft hleft).weaken (fun _ h => h) ?_ (fun _ h => h)
        fun _ h => h
      rintro - disk ⟨h, hnew⟩
      refine ⟨h.1, fun file hfile old hold => ?_⟩
      rcases List.mem_append.mp hfile with hdone | hitem
      · exact h.2 file hdone old hold
      · rw [List.mem_singleton.mp hitem] at hold ⊢
        rw [hbefore] at hold
        cases hold
        rw [hnew, hplain]
    · rintro disk ⟨⟨h, hcopy⟩, hfound⟩
      rw [hsource disk h] at hfound
      exact ⟨(Option.some.inj hfound).symm, h, old.mode, hcopy⟩

theorem backupFiles_triple (hproper : Proper home before files) :
    Triple (fun disk => Untouched home before files disk ∧ StagedFiles before files disk)
      (files.forM backupFile)
      (fun _ disk => (Untouched home before files disk ∧ StagedFiles before files disk) ∧
        KeptFiles before files disk)
      (Untouched home before files) (Untouched home before files) := by
  refine Triple.strengthen (Triple.forM (I := fun done _ disk =>
    (Untouched home before files disk ∧ StagedFiles before files disk) ∧
      KeptFiles before done disk) fun done item rest heq => backupFile_triple hproper heq) ?_
  exact fun disk h => ⟨h, fun file hfile => absurd hfile List.not_mem_nil⟩

/-- Removing scratch files leaves the files alone. -/
theorem removeScratch_triple {P E C : FileSystem → Prop} {scratch : ListedFile → Path}
    (hignores : ∀ file ∈ files, Ignores P (scratch file)) (he : ∀ disk, P disk → E disk)
    (hc : ∀ disk, P disk → C disk) :
    Triple P (files.forM fun file => rm (scratch file)) (fun _ => P) E C :=
  Triple.forM_const fun file hmem => rm_ignored (hignores file hmem) he hc

/-! ## The marker -/

theorem writeMarker_triple {P Q E C : FileSystem → Prop} {update : PendingUpdate}
    (hignores : Ignores P (markerTemp home)) (he : ∀ disk, P disk → E disk)
    (hc : ∀ disk, P disk → C disk)
    (hq : ∀ disk disk', P disk → SameBut (updateMarker home) disk disk' →
      Marked home update disk' → Q disk') :
    Triple P (writeMarker home update) (fun _ => Q) E C := by
  unfold writeMarker
  refine (failpoint_triple he hc).seq ?_
  refine (writeFile_triple hignores he hc).seq ?_
  refine rename_triple (fun _ h => he _ h.1) (fun _ h => hc _ h.1) (markerTemp_ne_marker home) ?_
  rintro disk disk' file ⟨h, mode, hwritten⟩ hfile hother hgone htarget
  rw [hwritten] at hfile
  cases hfile
  -- The temporary file does not matter, so the marker might have been written at once.
  have hbetween : P (disk.delete (markerTemp home)) := hignores _ _ (sameBut_delete _ _) h
  refine hq _ disk' hbetween ?_ ⟨mode, htarget⟩
  intro other hne
  rw [OrderedMap.get?_delete]
  split
  · rename_i htemp
    rw [← htemp, hgone]
  · rename_i htemp
    exact hother other (Ne.symm htemp) hne

/-- The marker is removed, and its temporary file before it. -/
theorem removeMarker_triple {P Q E C : FileSystem → Prop}
    (hignores : Ignores P (markerTemp home)) (he : ∀ disk, P disk → E disk)
    (hc : ∀ disk, P disk → C disk)
    (hq : ∀ disk disk', P disk → SameBut (updateMarker home) disk disk' →
      Unmarked home disk' → Q disk') :
    Triple P (removeMarker home) (fun _ => Q) E C :=
  (rm_ignored hignores he hc).seq (rm_triple he hc hq)

/-! ## The renames -/

theorem commitFile_triple (hproper : Proper home before files)
    (heq : files = done ++ item :: rest) :
    Triple (fun disk => (Marked home (pendingUpdate files) disk ∧ KeptFiles before files disk) ∧
        AllNew before done disk ∧ StagedFiles before (item :: rest) disk)
      (commitFile item)
      (fun _ disk => (Marked home (pendingUpdate files) disk ∧ KeptFiles before files disk) ∧
        AllNew before (done ++ [item]) disk ∧ StagedFiles before rest disk)
      (Undoable home before files) (Undoable home before files) := by
  have hmem := item_mem heq
  have hordinary := hproper.ordinary item hmem
  obtain ⟨hdone, hrest⟩ := hproper.ne_item heq
  have hleft : ∀ disk, ((Marked home (pendingUpdate files) disk ∧ KeptFiles before files disk) ∧
      AllNew before done disk ∧ StagedFiles before (item :: rest) disk) →
      Undoable home before files disk :=
    fun disk h => ⟨h.1.1, fun file hfile old hold => Or.inl (h.1.2 file hfile old hold)⟩
  unfold commitFile
  refine (failpoint_triple hleft hleft).seq ?_
  refine rename_triple hleft hleft hordinary.ne_staged.symm ?_
  rintro disk disk' found ⟨⟨⟨mode, hmarked⟩, hkept⟩, hnew, hstaged⟩ hfound hother - htarget
  have hcontents : found = newFile before item.change := by
    rw [hstaged item List.mem_cons_self] at hfound
    exact (Option.some.inj hfound).symm
  refine ⟨⟨⟨mode, ?_⟩, fun file hfile old hold => ?_⟩, fun file hfile => ?_, fun file hfile => ?_⟩
  · rw [hother _ (staged_ne_marker _ home).symm hordinary.ne_marker.symm]
    exact hmarked
  · rw [hother _ (staged_ne_kept _ _).symm hordinary.ne_kept.symm]
    exact hkept file hfile old hold
  · rcases List.mem_append.mp hfile with hearlier | hitem
    · have hlisted : file ∈ files := by
        rw [heq]
        exact List.mem_append_left _ hearlier
      rw [hother _ (hproper.ordinary file hlisted).ne_staged (hdone file hearlier)]
      exact hnew file hearlier
    · rw [List.mem_singleton.mp hitem, htarget, hcontents]
  · have hne : staged file.change.path ≠ staged item.change.path :=
      fun hsame => hrest file hfile (staged_injective hsame)
    rw [hother _ hne hordinary.ne_staged.symm]
    exact hstaged file (List.mem_cons_of_mem item hfile)

theorem commitFiles_triple (hproper : Proper home before files) :
    Triple (fun disk => (Marked home (pendingUpdate files) disk ∧ KeptFiles before files disk) ∧
        StagedFiles before files disk)
      (files.forM commitFile)
      (fun _ disk => (Marked home (pendingUpdate files) disk ∧ KeptFiles before files disk) ∧
        AllNew before files disk)
      (Undoable home before files) (Undoable home before files) := by
  refine Triple.weaken (Triple.forM (I := fun done rest disk =>
    (Marked home (pendingUpdate files) disk ∧ KeptFiles before files disk) ∧
      AllNew before done disk ∧ StagedFiles before rest disk)
    fun done item rest heq => commitFile_triple hproper heq) ?_ ?_ (fun _ h => h) fun _ h => h
  · exact fun disk h => ⟨h.1, fun file hfile => absurd hfile List.not_mem_nil, h.2⟩
  · exact fun _ disk h => ⟨h.1, h.2.1⟩

/-! ## Rolling back -/

def entryOf (file : ListedFile) : PendingFile := ⟨file.change.path, file.existed⟩

theorem Proper.undoable_ignores (hproper : Proper home before files) (h : ∀ q, path ≠ kept q)
    (hscratch : Scratch home path) : Ignores (Undoable home before files) path :=
  (marked_ignores hscratch.ne_marker).and (restorable_ignores fun file hmem =>
    ⟨(h file.change.path).symm, hproper.ne_scratch hscratch file hmem⟩)

theorem allOld_append {disk : FileSystem} (hdone : AllOld before done disk)
    (hitem : disk.get? item.change.path = before.get? item.change.path) :
    AllOld before (done ++ [item]) disk := by
  intro file hfile
  rcases List.mem_append.mp hfile with hearlier | hlast
  · exact hdone file hearlier
  · rw [List.mem_singleton.mp hlast]
    exact hitem

/-- The copy goes back to its place, and the others stay where they are. -/
theorem undoable_restored {disk disk' : FileSystem} {old : File}
    (hproper : Proper home before files) (hmem : item ∈ files)
    (hbefore : before.get? item.change.path = some old) (h : Undoable home before files disk)
    (hother : ∀ other, other ≠ kept item.change.path → other ≠ item.change.path →
      disk'.get? other = disk.get? other)
    (hgone : disk'.get? (kept item.change.path) = none)
    (hback : disk'.get? item.change.path = some old) : Undoable home before files disk' := by
  obtain ⟨⟨mode, hmarked⟩, hrestorable⟩ := h
  have hordinary := hproper.ordinary item hmem
  refine ⟨⟨mode, ?_⟩, fun file hfile found hfound => ?_⟩
  · rw [hother _ (kept_ne_marker _ home).symm hordinary.ne_marker.symm, hmarked]
  · by_cases hsame : file.change.path = item.change.path
    · rw [hsame] at hfound ⊢
      rw [hbefore] at hfound
      cases hfound
      exact Or.inr ⟨hgone, hback⟩
    · have hkept : kept file.change.path ≠ kept item.change.path :=
        fun heq => hsame (kept_injective heq)
      rw [hother _ hkept hordinary.ne_kept.symm,
        hother _ (hproper.ordinary file hfile).ne_kept hsame]
      exact hrestorable file hfile found hfound

theorem allOld_kept {disk disk' : FileSystem} (hdone : AllOld before done disk)
    (hsame : ∀ file ∈ done, file.change.path ≠ item.change.path →
      disk'.get? file.change.path = disk.get? file.change.path)
    (hitem : disk'.get? item.change.path = before.get? item.change.path) :
    AllOld before (done ++ [item]) disk' := by
  refine allOld_append (fun file hfile => ?_) hitem
  by_cases hpath : file.change.path = item.change.path
  · rw [hpath, hitem]
  · rw [hsame file hfile hpath]
    exact hdone file hfile

theorem restoreFile_triple (hproper : Proper home before files)
    (heq : files = done ++ item :: rest) :
    Triple (fun disk => Undoable home before files disk ∧ AllOld before done disk)
      (restoreFile (entryOf item))
      (fun _ disk => Undoable home before files disk ∧ AllOld before (done ++ [item]) disk)
      (Undoable home before files) (Undoable home before files) := by
  have hmem := item_mem heq
  have hordinary := hproper.ordinary item hmem
  have hlisted : ∀ file ∈ done, file ∈ files := by
    intro file hfile
    rw [heq]
    exact List.mem_append_left _ hfile
  have hleft : ∀ disk, (Undoable home before files disk ∧ AllOld before done disk) →
      Undoable home before files disk := fun _ h => h.1
  unfold restoreFile entryOf
  cases hbefore : before.get? item.change.path with
  | none =>
    have hfalse : item.existed = false := by
      rw [hproper.existed item hmem, OrderedMap.has, hbefore]
      rfl
    simp only [hfalse, Bool.false_eq_true, ↓reduceIte]
    refine rm_triple hleft hleft fun disk disk' h hsame hgone => ⟨⟨?_, ?_⟩, ?_⟩
    · exact marked_ignores hordinary.ne_marker disk disk' hsame h.1.1
    · intro file hfile old hold
      have hne : file.change.path ≠ item.change.path := by
        intro hpath
        rw [hpath, hbefore] at hold
        cases hold
      rw [hsame _ hordinary.ne_kept.symm, hsame _ hne]
      exact h.1.2 file hfile old hold
    · exact allOld_kept h.2 (fun file _ hne => hsame _ hne) (by rw [hgone, hbefore])
  | some old =>
    have htrue : item.existed = true := by
      rw [hproper.existed item hmem, OrderedMap.has, hbefore]
      rfl
    simp only [htrue, ↓reduceIte]
    refine (fileExists_triple hleft).bind fun found => ?_
    cases found with
    | true =>
      refine rename_triple (fun _ h => hleft _ h.1) (fun _ h => hleft _ h.1)
        hordinary.ne_kept.symm ?_
      rintro disk disk' copy ⟨⟨hundoable, hdone⟩, -⟩ hcopy hother hgone hback
      have hold : copy = old := by
        rcases hundoable.2 item hmem old hbefore with hkept | ⟨hkept, -⟩
        · rw [hkept] at hcopy
          exact (Option.some.inj hcopy).symm
        · rw [hkept] at hcopy
          cases hcopy
      subst hold
      refine ⟨undoable_restored hproper hmem hbefore hundoable hother hgone hback, ?_⟩
      refine allOld_kept hdone (fun file hfile hne => ?_) (by rw [hback, hbefore])
      exact hother _ (hproper.ordinary file (hlisted file hfile)).ne_kept hne
    | false =>
      refine Triple.pure ?_
      rintro disk ⟨⟨hundoable, hdone⟩, hmissing⟩
      have hnone : disk.get? (kept item.change.path) = none := by
        rw [OrderedMap.has] at hmissing
        exact Option.not_isSome_iff_eq_none.mp (by rw [← hmissing]; decide)
      -- A copy that is not there has gone back already.
      have hrestored : disk.get? item.change.path = some old := by
        rcases hundoable.2 item hmem old hbefore with hkept | ⟨-, hback⟩
        · rw [hnone] at hkept
          cases hkept
        · exact hback
      exact ⟨hundoable, allOld_append hdone (by rw [hrestored, hbefore])⟩

theorem rollBack_triple (hproper : Proper home before files) :
    Triple (Undoable home before files) (rollBack (pendingUpdate files))
      (fun _ disk => Undoable home before files disk ∧ AllOld before files disk)
      (Undoable home before files) (Undoable home before files) := by
  refine Triple.strengthen (Triple.forM_map (g := entryOf) (I := fun done _ disk =>
    Undoable home before files disk ∧ AllOld before done disk) ?_) ?_
  · intro done item rest heq
    have hscratch : Scratch home (staged item.change.path) := .staged _
    have hlisted : ∀ file ∈ done ++ [item], file.change.path ≠ staged item.change.path := by
      intro file hfile
      refine hproper.ne_scratch hscratch file ?_
      rw [heq]
      rcases List.mem_append.mp hfile with hearlier | hlast
      · exact List.mem_append_left _ hearlier
      · rw [List.mem_singleton.mp hlast]
        exact List.mem_append_right done List.mem_cons_self
    have hignores : Ignores (fun disk => Undoable home before files disk ∧
        AllOld before (done ++ [item]) disk) (staged item.change.path) :=
      (hproper.undoable_ignores (fun _ => staged_ne_kept _ _) hscratch).and (allOld_ignores hlisted)
    unfold rollBackFile
    exact (restoreFile_triple hproper heq).seq
      (rm_ignored hignores (fun _ h => h.1) fun _ h => h.1)
  · exact fun disk h => ⟨h, fun file hfile => absurd hfile List.not_mem_nil⟩

/-- What does not depend on the listed files, nor on what is beside them, stays. -/
theorem rollBack_keeps {R : FileSystem → Prop} {update : PendingUpdate}
    (hignores : ∀ file ∈ update.files, Ignores R file.path ∧ Ignores R (kept file.path) ∧
      Ignores R (staged file.path)) : Triple R (rollBack update) (fun _ => R) R R := by
  refine Triple.forM_const fun file hmem => ?_
  obtain ⟨hpath, hkept, hstaged⟩ := hignores file hmem
  have hrename : Triple R (rename (kept file.path) file.path) (fun _ => R) R R := by
    refine Triple.attempt (fun _ h => h) (fun _ h => h) fun disk _ disk' h heq => ?_
    split at heq
    · cases heq
      exact hpath _ _ (sameBut_set _ _ _) (hkept _ _ (sameBut_delete disk _) h)
    · cases heq
  have hrestore : Triple R (restoreFile file) (fun _ => R) R R := by
    unfold restoreFile
    split
    · refine (fileExists_triple fun _ h => h).bind fun found => ?_
      cases found with
      | true => exact Triple.strengthen hrename fun _ h => h.1
      | false => exact Triple.pure fun _ h => h.1
    · exact rm_ignored hpath (fun _ h => h) fun _ h => h
  exact hrestore.seq (rm_ignored hstaged (fun _ h => h) fun _ h => h)

/-! ## The update -/

/-- The changes, each with whether there was a file. -/
def listed (before : FileSystem) (changes : List FileChange) : List ListedFile :=
  changes.map fun change => ⟨change, before.has change.path⟩

theorem lookUp_triple {changes : List FileChange} :
    Triple (fun disk => disk = before) (lookUp changes)
      (fun files disk => files = listed before changes ∧ disk = before)
      (fun disk => disk = before) fun disk => disk = before := by
  induction changes with
  | nil => exact Triple.pure fun disk h => ⟨rfl, h⟩
  | cons change rest ih =>
    unfold lookUp
    refine (fileExists_triple fun _ h => h).bind fun existed => ?_
    have hfound : Triple (fun disk => disk = before ∧ existed = disk.has change.path) (lookUp rest)
        (fun files disk => (files = listed before rest ∧ disk = before) ∧
          existed = before.has change.path)
        (fun disk => disk = before) fun disk => disk = before := by
      intro s hsure hs
      have hexisted : existed = before.has change.path := by rw [hs.2, hs.1]
      exact Program.wp_mono (ih s hsure hs.1) (fun _ _ h => ⟨h.1, h.2, hexisted⟩) (fun _ _ h => h)
        fun _ h => h
    refine hfound.bind fun files => Triple.pure ?_
    rintro disk ⟨⟨hfiles, hsame⟩, hexisted⟩
    refine ⟨?_, hsame⟩
    rw [hfiles, hexisted]
    rfl

theorem cleanup_triple {P E C : FileSystem → Prop} {next : Script Unit}
    {Q : Unit → FileSystem → Prop} (hignores : ∀ path, Scratch home path → Ignores P path)
    (he : ∀ disk, P disk → E disk) (hc : ∀ disk, P disk → C disk)
    (hnext : Triple P next Q E C) :
    Triple P (do cleanupStaged files; cleanupKept files; next) Q E C := by
  have hstaged : Triple P (cleanupStaged files) (fun _ => P) E C :=
    removeScratch_triple (fun _ _ => hignores _ (.staged _)) he hc
  have hkept : Triple P (cleanupKept files) (fun _ => P) E C :=
    removeScratch_triple (fun _ _ => hignores _ (.kept _)) he hc
  exact hstaged.seq (hkept.seq hnext)

/-- Removing the marker from the old files leaves nothing of the update. -/
theorem Proper.untouched_of_unmarked {disk disk' : FileSystem} (hproper : Proper home before files)
    (hold : AllOld before files disk) (hsame : SameBut (updateMarker home) disk disk')
    (hunmarked : Unmarked home disk') : Untouched home before files disk' := by
  refine ⟨?_, hunmarked⟩
  exact allOld_ignores (fun file hmem => (hproper.ordinary file hmem).ne_marker) disk disk' hsame hold

theorem Proper.allNew_of_same {disk disk' : FileSystem} (hproper : Proper home before files)
    (hnew : AllNew before files disk) (hsame : SameBut (updateMarker home) disk disk') :
    AllNew before files disk' :=
  allNew_ignores (fun file hmem => (hproper.ordinary file hmem).ne_marker) disk disk' hsame hnew

theorem prepare_triple (hproper : Proper home before files) :
    Triple (Untouched home before files)
      (tryCatch
        (do
          files.forM stageFile
          files.forM backupFile)
        (fun error => do
          cleanupStaged files
          cleanupKept files
          throw error))
      (fun _ disk => (Untouched home before files disk ∧ StagedFiles before files disk) ∧
        KeptFiles before files disk)
      (Untouched home before files) (Untouched home before files) := by
  have hbody := (stageFiles_triple hproper).bind fun _ => backupFiles_triple hproper
  refine hbody.tryCatch fun _ => ?_
  exact cleanup_triple (fun _ h => hproper.untouched_ignores h) (fun _ h => h) (fun _ h => h)
    (Triple.throw fun _ h => h)

theorem mark_triple (hproper : Proper home before files) :
    Triple (fun disk => (Untouched home before files disk ∧ StagedFiles before files disk) ∧
        KeptFiles before files disk)
      (tryCatch (writeMarker home (pendingUpdate files))
        (fun error => do
          cleanupStaged files
          cleanupKept files
          removeMarker home
          throw error))
      (fun _ disk => (Marked home (pendingUpdate files) disk ∧ KeptFiles before files disk) ∧
        StagedFiles before files disk)
      (Untouched home before files) (Untouched home before files) := by
  have htemp : Scratch home (markerTemp home) := .markerTemp
  have hignores : Ignores (fun disk => (Untouched home before files disk ∧
      StagedFiles before files disk) ∧ KeptFiles before files disk) (markerTemp home) := by
    refine ((hproper.untouched_ignores htemp).and ?_).and ?_
    · exact stagedFiles_ignores fun file _ => (markerTemp_ne_staged home _).symm
    · exact keptFiles_ignores fun file _ => (markerTemp_ne_kept home _).symm
  refine Triple.tryCatch (writeMarker_triple hignores (fun _ h => h.1.1) (fun _ h => h.1.1) ?_) ?_
  · rintro disk disk' ⟨⟨-, hstaged⟩, hkept⟩ hsame hmarked
    refine ⟨⟨hmarked, ?_⟩, ?_⟩
    · exact keptFiles_ignores (fun file _ => kept_ne_marker _ home) disk disk' hsame hkept
    · exact stagedFiles_ignores (fun file _ => staged_ne_marker _ home) disk disk' hsame hstaged
  · intro error
    have hmarker : Triple (Untouched home before files) (removeMarker home)
        (fun _ => Untouched home before files) (Untouched home before files)
        (Untouched home before files) :=
      removeMarker_triple (hproper.untouched_ignores htemp) (fun _ h => h) (fun _ h => h)
        fun _ _ h hsame hunmarked => hproper.untouched_of_unmarked h.1 hsame hunmarked
    exact cleanup_triple (fun _ h => hproper.untouched_ignores h) (fun _ h => h) (fun _ h => h)
      (hmarker.seq (Triple.throw fun _ h => h))

theorem replace_triple (hproper : Proper home before files) :
    Triple (fun disk => (Marked home (pendingUpdate files) disk ∧ KeptFiles before files disk) ∧
        StagedFiles before files disk)
      (tryCatch
        (do
          files.forM commitFile
          writeMarker home { pendingUpdate files with committed := true })
        (fun error => do
          rollBack (pendingUpdate files)
          removeMarker home
          throw error))
      (fun _ => Committed home before files)
      (Interrupted home before files) (Interrupted home before files) := by
  have htemp : Scratch home (markerTemp home) := .markerTemp
  have hundoable : ∀ disk, ((Marked home (pendingUpdate files) disk ∧
      KeptFiles before files disk) ∧ AllNew before files disk) → Undoable home before files disk :=
    fun disk h => ⟨h.1.1, fun file hfile old hold => Or.inl (h.1.2 file hfile old hold)⟩
  have hleft : ∀ disk, Undoable home before files disk → Interrupted home before files disk :=
    fun _ h => Or.inr (Or.inl h)
  have hignores : Ignores (fun disk => (Marked home (pendingUpdate files) disk ∧
      KeptFiles before files disk) ∧ AllNew before files disk) (markerTemp home) := by
    refine ((marked_ignores htemp.ne_marker).and ?_).and ?_
    · exact keptFiles_ignores fun file _ => (markerTemp_ne_kept home _).symm
    · exact allNew_ignores (hproper.ne_scratch htemp)
  have hmark : Triple (fun disk => (Marked home (pendingUpdate files) disk ∧
      KeptFiles before files disk) ∧ AllNew before files disk)
      (writeMarker home { pendingUpdate files with committed := true })
      (fun _ => Committed home before files) (Undoable home before files)
      (Undoable home before files) := by
    refine writeMarker_triple hignores hundoable hundoable ?_
    exact fun _ _ h hsame hmarked => ⟨hmarked, hproper.allNew_of_same h.2 hsame⟩
  have hbody := ((commitFiles_triple hproper).bind fun _ => hmark).weaken (fun _ h => h) (fun _ _ h => h)
    (fun _ h => h) hleft
  refine hbody.tryCatch fun error => ?_
  refine ((rollBack_triple hproper).weaken (fun _ h => h) (fun _ _ h => h) hleft hleft).seq ?_
  refine Triple.seq (R := Untouched home before files) ?_ (Triple.throw fun _ h => Or.inl h)
  refine removeMarker_triple ?_ (fun _ h => hleft _ h.1) (fun _ h => hleft _ h.1) ?_
  · exact (hproper.undoable_ignores (fun _ => markerTemp_ne_kept home _) htemp).and
      (allOld_ignores (hproper.ne_scratch htemp))
  · exact fun _ _ h hsame hunmarked => hproper.untouched_of_unmarked h.2 hsame hunmarked

theorem finish_triple (hproper : Proper home before files) :
    Triple (Committed home before files) (do cleanupKept files; rm (updateMarker home))
      (fun _ => Finished home before files)
      (Committed home before files) (Committed home before files) := by
  have hkept : Triple (Committed home before files) (cleanupKept files)
      (fun _ => Committed home before files) (Committed home before files)
      (Committed home before files) :=
    removeScratch_triple (fun _ _ => hproper.committed_ignores (.kept _)) (fun _ h => h)
      fun _ h => h
  refine hkept.seq (rm_triple (fun _ h => h) (fun _ h => h) ?_)
  exact fun _ _ h hsame hgone => ⟨hproper.allNew_of_same h.2 hsame, hgone⟩

theorem commitChanges_triple {changes : List FileChange}
    (hproper : Proper home before (listed before changes))
    (hunmarked : before.get? (updateMarker home) = none) :
    Triple (fun disk => disk = before) (commitChanges home changes)
      (fun _ => Finished home before (listed before changes))
      (Interrupted home before (listed before changes))
      (Interrupted home before (listed before changes)) := by
  have hstart : ∀ disk, disk = before → Untouched home before (listed before changes) disk := by
    rintro disk rfl
    exact ⟨fun _ _ => rfl, hunmarked⟩
  have huntouched : ∀ disk, Untouched home before (listed before changes) disk →
      Interrupted home before (listed before changes) disk := fun _ h => Or.inl h
  have hcommitted : ∀ disk, Committed home before (listed before changes) disk →
      Interrupted home before (listed before changes) disk := fun _ h => Or.inr (Or.inr h)
  unfold commitChanges
  refine (lookUp_triple.weaken (fun _ h => h) (fun _ _ h => h) (fun _ h => huntouched _ (hstart _ h))
    fun _ h => huntouched _ (hstart _ h)).bind fun files => Triple.given fun hfiles => ?_
  subst hfiles
  refine Triple.strengthen ?_ hstart
  refine ((prepare_triple hproper).weaken (fun _ h => h) (fun _ _ h => h) huntouched
    huntouched).seq ?_
  refine ((mark_triple hproper).weaken (fun _ h => h) (fun _ _ h => h) huntouched huntouched).seq ?_
  refine (replace_triple hproper).seq ?_
  exact (finish_triple hproper).weaken (fun _ h => h) (fun _ _ h => h) hcommitted hcommitted

/-! ## Recovery -/

theorem recover_marked {P R Q : FileSystem → Prop} (update : PendingUpdate)
    (hignores : Ignores P (markerTemp home)) (hmarked : ∀ disk, P disk → Marked home update disk)
    (hleft : ∀ disk, R disk → P disk)
    (hwork : Triple (fun disk => P disk ∧ disk.get? (markerTemp home) = none)
      (if update.committed then update.files.forM finishFile else rollBack update) (fun _ => R) P P)
    (hq : ∀ disk disk', R disk → SameBut (updateMarker home) disk disk' → Unmarked home disk' →
      Q disk') :
    Triple P (recoverInterruptedUpdate home) (fun _ => Q) P P := by
  have hfirst : ∀ disk, (P disk ∧ disk.get? (markerTemp home) = none) → P disk := fun _ h => h.1
  have hread : Triple (fun disk => P disk ∧ disk.get? (markerTemp home) = none) (readMarker home)
      (fun found disk => found = update ∧ P disk ∧ disk.get? (markerTemp home) = none) P P := by
    unfold readMarker
    refine (readFile_triple hfirst hfirst).bind fun contents => ?_
    refine Triple.strengthen (P := fun disk => contents = .marker update ∧
      (P disk ∧ disk.get? (markerTemp home) = none)) (Triple.given fun hcontents => ?_) ?_
    · subst hcontents
      exact Triple.pure fun _ h => ⟨rfl, h⟩
    · rintro disk ⟨h, mode, hfound⟩
      obtain ⟨mode', hthere⟩ := hmarked disk h.1
      rw [hthere] at hfound
      cases hfound
      exact ⟨rfl, h⟩
  unfold recoverInterruptedUpdate
  refine Triple.seq (R := fun disk => P disk ∧ disk.get? (markerTemp home) = none)
    (rm_triple (fun _ h => h) (fun _ h => h) fun _ _ h hsame hgone =>
      ⟨hignores _ _ hsame h, hgone⟩) ?_
  refine (fileExists_triple hfirst).bind fun found => ?_
  refine Triple.strengthen (P := fun disk => found = true ∧
    (P disk ∧ disk.get? (markerTemp home) = none)) (Triple.given fun hfound => ?_) ?_
  · subst hfound
    simp only [↓reduceIte]
    refine Triple.bind (R := fun found disk => found = update ∧
      P disk ∧ disk.get? (markerTemp home) = none) (hread.tryCatch fun _ => ?_) fun found =>
        Triple.given fun hfound => ?_
    · have hnames : Triple P (readdir home) (fun _ => P) P P := by
        refine Triple.attempt (fun _ h => h) (fun _ h => h) fun disk names disk' h heq => ?_
        cases heq
        exact h
      exact hnames.bind fun _ => Triple.throw fun _ h => h
    · subst hfound
      cases hcommitted : found.committed with
      | true =>
        simp only [hcommitted, ↓reduceIte] at hwork ⊢
        exact hwork.seq ((rm_triple hleft hleft hq).seq (Triple.pure fun _ h => h))
      | false =>
        simp only [hcommitted, Bool.false_eq_true, ↓reduceIte] at hwork ⊢
        exact hwork.seq ((rm_triple hleft hleft hq).seq (Triple.pure fun _ h => h))
  · rintro disk ⟨h, hfound⟩
    obtain ⟨mode, hthere⟩ := hmarked disk h.1
    exact ⟨by rw [hfound, OrderedMap.has, hthere]; rfl, h⟩

theorem recover_unmarked {P : FileSystem → Prop} (hignores : Ignores P (markerTemp home))
    (hunmarked : ∀ disk, P disk → Unmarked home disk) :
    Triple P (recoverInterruptedUpdate home) (fun _ disk => P disk ∧ Clean home disk) P P := by
  unfold recoverInterruptedUpdate
  refine Triple.seq (R := fun disk => P disk ∧ disk.get? (markerTemp home) = none)
    (rm_triple (fun _ h => h) (fun _ h => h) fun _ _ h hsame hgone =>
      ⟨hignores _ _ hsame h, hgone⟩) ?_
  refine (fileExists_triple fun _ h => h.1).bind fun found => ?_
  refine Triple.strengthen (P := fun disk => found = false ∧
    (P disk ∧ disk.get? (markerTemp home) = none)) (Triple.given fun hfound => ?_) ?_
  · subst hfound
    exact Triple.pure fun disk h => ⟨h.1, hunmarked disk h.1, h.2⟩
  · rintro disk ⟨h, hfound⟩
    have hnone : disk.get? (updateMarker home) = none := hunmarked disk h.1
    exact ⟨by rw [hfound, OrderedMap.has, hnone]; rfl, h⟩

theorem recover_undoable (hproper : Proper home before files) :
    Triple (Undoable home before files) (recoverInterruptedUpdate home)
      (fun _ disk => AllOld before files disk ∧ Clean home disk)
      (Undoable home before files) (Undoable home before files) := by
  have htemp : Scratch home (markerTemp home) := .markerTemp
  have hkeeps : Triple (fun disk => disk.get? (markerTemp home) = none)
      (rollBack (pendingUpdate files)) (fun _ disk => disk.get? (markerTemp home) = none)
      (fun disk => disk.get? (markerTemp home) = none)
      fun disk => disk.get? (markerTemp home) = none := by
    refine rollBack_keeps fun entry hentry => ?_
    obtain ⟨file, hmem, rfl⟩ := List.mem_map.mp hentry
    refine ⟨absent_ignores (hproper.ordinary file hmem).ne_markerTemp, ?_, ?_⟩
    · exact absent_ignores (markerTemp_ne_kept home _).symm
    · exact absent_ignores (markerTemp_ne_staged home _).symm
  refine recover_marked (pendingUpdate files) (R := fun disk =>
    (Undoable home before files disk ∧ AllOld before files disk) ∧
      disk.get? (markerTemp home) = none) ?_ (fun _ h => h.1) (fun _ h => h.1.1) ?_ ?_
  · exact hproper.undoable_ignores (fun _ => markerTemp_ne_kept home _) htemp
  · exact ((rollBack_triple hproper).and hkeeps).weaken (fun _ h => h) (fun _ _ h => h)
      (fun _ h => h.1) fun _ h => h.1
  · intro disk disk' h hsame hunmarked
    refine ⟨(hproper.untouched_of_unmarked h.1.2 hsame hunmarked).1, hunmarked, ?_⟩
    rw [hsame _ (markerTemp_ne_marker home)]
    exact h.2

theorem recover_committed (hproper : Proper home before files) :
    Triple (Committed home before files) (recoverInterruptedUpdate home)
      (fun _ disk => AllNew before files disk ∧ Clean home disk)
      (Committed home before files) (Committed home before files) := by
  have htemp : Scratch home (markerTemp home) := .markerTemp
  refine recover_marked (committedUpdate files) (R := fun disk =>
    Committed home before files disk ∧ disk.get? (markerTemp home) = none)
    (hproper.committed_ignores htemp) (fun _ h => h.1) (fun _ h => h.1) ?_ ?_
  · refine Triple.forM_const fun entry _ => ?_
    have hkept : Ignores (fun disk => Committed home before files disk ∧
        disk.get? (markerTemp home) = none) (kept entry.path) :=
      (hproper.committed_ignores (.kept _)).and (absent_ignores (markerTemp_ne_kept home _).symm)
    have hstaged : Ignores (fun disk => Committed home before files disk ∧
        disk.get? (markerTemp home) = none) (staged entry.path) :=
      (hproper.committed_ignores (.staged _)).and
        (absent_ignores (markerTemp_ne_staged home _).symm)
    exact (rm_ignored hkept (fun _ h => h.1) fun _ h => h.1).seq
      (rm_ignored hstaged (fun _ h => h.1) fun _ h => h.1)
  · intro disk disk' h hsame hunmarked
    refine ⟨hproper.allNew_of_same h.1.2 hsame, hunmarked, ?_⟩
    rw [hsame _ (markerTemp_ne_marker home)]
    exact h.2

/-- What a recovery may find. -/
def Left (home : Path) (before : FileSystem) (files : List ListedFile) (disk : FileSystem) : Prop :=
  Interrupted home before files disk ∨ Finished home before files disk

def Settled (home : Path) (before : FileSystem) (files : List ListedFile) (disk : FileSystem) :
    Prop :=
  (AllOld before files disk ∨ AllNew before files disk) ∧ Clean home disk

theorem recover_triple (hproper : Proper home before files) :
    Triple (Left home before files) (recoverInterruptedUpdate home)
      (fun _ => Settled home before files) (Left home before files) (Left home before files) := by
  have htemp : Scratch home (markerTemp home) := .markerTemp
  have hfinishedIgnores : Ignores (Finished home before files) (markerTemp home) :=
    (allNew_ignores (hproper.ne_scratch htemp)).and (absent_ignores htemp.ne_marker)
  have huntouched : Triple (Untouched home before files) (recoverInterruptedUpdate home)
      (fun _ => Settled home before files) (Left home before files) (Left home before files) :=
    (recover_unmarked (hproper.untouched_ignores htemp) fun _ h => h.2).weaken (fun _ h => h)
      (fun _ _ h => ⟨Or.inl h.1.1, h.2⟩) (fun _ h => Or.inl (Or.inl h)) fun _ h => Or.inl (Or.inl h)
  have hundoable : Triple (Undoable home before files) (recoverInterruptedUpdate home)
      (fun _ => Settled home before files) (Left home before files) (Left home before files) :=
    (recover_undoable hproper).weaken (fun _ h => h) (fun _ _ h => ⟨Or.inl h.1, h.2⟩)
      (fun _ h => Or.inl (Or.inr (Or.inl h))) fun _ h => Or.inl (Or.inr (Or.inl h))
  have hcommitted : Triple (Committed home before files) (recoverInterruptedUpdate home)
      (fun _ => Settled home before files) (Left home before files) (Left home before files) :=
    (recover_committed hproper).weaken (fun _ h => h) (fun _ _ h => ⟨Or.inr h.1, h.2⟩)
      (fun _ h => Or.inl (Or.inr (Or.inr h))) fun _ h => Or.inl (Or.inr (Or.inr h))
  have hfinished : Triple (Finished home before files) (recoverInterruptedUpdate home)
      (fun _ => Settled home before files) (Left home before files) (Left home before files) :=
    (recover_unmarked hfinishedIgnores fun _ h => h.2).weaken (fun _ h => h)
      (fun _ _ h => ⟨Or.inr h.1.1, h.2⟩) (fun _ h => Or.inr h) fun _ h => Or.inr h
  exact (huntouched.or (hundoable.or hcommitted)).or hfinished

theorem recover_clean {settled : FileSystem} (hclean : Clean home settled) :
    Triple (fun disk => disk = settled) (recoverInterruptedUpdate home)
      (fun _ disk => disk = settled) (fun disk => disk = settled) fun disk => disk = settled := by
  unfold recoverInterruptedUpdate
  refine Triple.seq (R := fun disk => disk = settled) ?_ ?_
  · refine Triple.attempt (fun _ h => h) (fun _ h => h) fun disk _ disk' h heq => ?_
    subst h
    cases heq
    exact OrderedMap.delete_of_absent hclean.2
  · refine (fileExists_triple fun _ h => h).bind fun found => ?_
    refine Triple.strengthen (P := fun disk => found = false ∧ disk = settled)
      (Triple.given fun hfound => ?_) ?_
    · subst hfound
      exact Triple.pure fun _ h => h
    · rintro disk ⟨rfl, hfound⟩
      have hnone : disk.get? (updateMarker home) = none := hclean.1
      exact ⟨by rw [hfound, OrderedMap.has, hnone]; rfl, rfl⟩

/-! ## Atomicity -/

open Relation (ReflTransGen)

theorem proper_listed {changes : List FileChange}
    (hdistinct : (changes.map fun change => change.path).Nodup)
    (hordinary : ∀ change ∈ changes, Ordinary home change.path)
    (hplain : ∀ change ∈ changes, ∀ old, before.get? change.path = some old → old.mode < 0o1000) :
    Proper home before (listed before changes) where
  existed := by
    intro file hmem
    obtain ⟨change, -, rfl⟩ := List.mem_map.mp hmem
    rfl
  distinct := by
    have hpaths : ((listed before changes).map fun file => file.change.path) =
        changes.map fun change => change.path := by
      unfold listed
      rw [List.map_map]
      rfl
    rw [hpaths]
    exact hdistinct
  ordinary := by
    intro file hmem
    obtain ⟨change, hchange, rfl⟩ := List.mem_map.mp hmem
    exact hordinary change hchange
  plain := by
    intro file hmem
    obtain ⟨change, hchange, rfl⟩ := List.mem_map.mp hmem
    exact hplain change hchange

theorem Settled.left {disk : FileSystem} (h : Settled home before files disk) :
    Left home before files disk := by
  obtain ⟨hfiles, hunmarked, -⟩ := h
  rcases hfiles with hold | hnew
  · exact Or.inl (Or.inl ⟨hold, hunmarked⟩)
  · exact Or.inr ⟨hnew, hunmarked⟩

/-- However many recoveries stop part way, the next finds what it can deal with. -/
theorem recoveries_left {stopped found : FileSystem} (hproper : Proper home before files)
    (hleft : Left home before files stopped)
    (hruns : ReflTransGen (Faulty.Ends (recoverInterruptedUpdate home)) stopped found) :
    Left home before files found := by
  induction hruns with
  | refl => exact hleft
  | tail _ hrun ih =>
    rcases (recover_triple hproper).ends ih hrun with ⟨_, hsettled⟩ | hfound | hfound
    · exact hsettled.left
    · exact hfound
    · exact hfound

theorem recoveries_clean {settled later : FileSystem} (hclean : Clean home settled)
    (hruns : ReflTransGen (Faulty.Ends (recoverInterruptedUpdate home)) settled later) :
    later = settled := by
  induction hruns with
  | refl => rfl
  | tail _ hrun ih =>
    rcases (recover_clean hclean).ends ih hrun with ⟨_, hsame⟩ | hsame | hsame
    · exact hsame
    · exact hsame
    · exact hsame

/-- From a home without a marker, with replaced files whose mode has permission bits only, and as
long as no check misses a file. -/
theorem update_atomic (home : Path) (before : FileSystem) (changes : List FileChange)
    (hunmarked : before.get? (updateMarker home) = none)
    (hdistinct : (changes.map fun change => change.path).Nodup)
    (hordinary : ∀ change ∈ changes, Ordinary home change.path)
    (hplain : ∀ change ∈ changes, ∀ old, before.get? change.path = some old → old.mode < 0o1000) :
    (∀ stopped found final, Ends (commitChanges home changes) before stopped →
        ReflTransGen (Ends (recoverInterruptedUpdate home)) stopped found →
        Returns (recoverInterruptedUpdate home) found final →
        (AllOld before (listed before changes) final ∨
          AllNew before (listed before changes) final) ∧
        ∀ later, ReflTransGen (Ends (recoverInterruptedUpdate home)) final later →
          later = final) ∧
      (∀ final, Returns (commitChanges home changes) before final →
        AllNew before (listed before changes) final) ∧
      ∀ final, Throws (commitChanges home changes) before final →
        final.get? (updateMarker home) = none → AllOld before (listed before changes) final := by
  have hproper := proper_listed hdistinct hordinary hplain
  have hcommit := commitChanges_triple hproper hunmarked
  refine ⟨?_, ?_, ?_⟩
  · intro stopped found final hends hruns hreturns
    have hleft : Left home before (listed before changes) stopped := by
      rcases hcommit.ends rfl hends with ⟨_, hfinished⟩ | hinterrupted | hinterrupted
      · exact Or.inr hfinished
      · exact Or.inl hinterrupted
      · exact Or.inl hinterrupted
    obtain ⟨_, hsettled⟩ :=
      (recover_triple hproper).returns (recoveries_left hproper hleft hruns) hreturns
    exact ⟨hsettled.1, fun later hlater => recoveries_clean hsettled.2 hlater⟩
  · intro final hreturns
    obtain ⟨_, hfinished⟩ := hcommit.returns rfl hreturns
    exact hfinished.1
  · intro final hthrows hnone
    rcases hcommit.throws rfl hthrows with huntouched | hundoable | hcommitted
    · exact huntouched.1
    · obtain ⟨mode, hmarked⟩ := hundoable.1
      rw [hnone] at hmarked
      cases hmarked
    · obtain ⟨mode, hmarked⟩ := hcommitted.1
      rw [hnone] at hmarked
      cases hmarked

def twoFiles : FileSystem := (OrderedMap.empty.set "a" ⟨.bytes [1], 0o644⟩).set "b" ⟨.bytes [2], 0o600⟩

def twoChanges : List FileChange := [⟨"a", [3], none⟩, ⟨"b", [4], none⟩]

theorem ordinary_two : ∀ change ∈ twoChanges, Ordinary "h" change.path := by
  intro change hmem
  rcases List.mem_cons.mp hmem with rfl | hmem
  · exact ⟨by decide +kernel, by decide +kernel, by decide +kernel, by decide +kernel⟩
  · rw [List.mem_singleton.mp hmem]
    exact ⟨by decide +kernel, by decide +kernel, by decide +kernel, by decide +kernel⟩

theorem plain_two : ∀ change ∈ twoChanges, ∀ old, twoFiles.get? change.path = some old →
    old.mode < 0o1000 := by
  intro change hmem old hold
  rcases List.mem_cons.mp hmem with rfl | hmem
  · have ha : twoFiles.get? "a" = some ⟨.bytes [1], 0o644⟩ := by decide +kernel
    cases ha.symm.trans hold
    decide
  · rw [List.mem_singleton.mp hmem] at hold
    have hb : twoFiles.get? "b" = some ⟨.bytes [2], 0o600⟩ := by decide +kernel
    cases hb.symm.trans hold
    decide

/-- The second rename fails. -/
def failedRename : Faulty FileSystem where
  contents := twoFiles
  faults := List.replicate 24 false ++ [true]

/-- And the check for the first file's copy fails. -/
def missedCopy : Faulty FileSystem := { failedRename with misses := [false, false, true] }

/-- What a process leaves that ends before one of its writes, counted from 0. -/
def endsBefore {α : Type} (p : Script α) (write : Nat) (disk : FileSystem) : FileSystem :=
  match (p { contents := disk }).passed[write]? with
  | some left => left.contents
  | none => (p { contents := disk }).contents.contents

theorem ends_endsBefore {α : Type} (p : Script α) (write : Nat) (disk : FileSystem) :
    Ends p disk (endsBefore p write disk) := by
  refine ⟨{ contents := disk }, rfl, fun _ hmem => absurd hmem List.not_mem_nil, ?_⟩
  unfold endsBefore
  split
  · exact Or.inl ⟨_, List.mem_of_getElem? ‹_›, rfl⟩
  · exact Or.inr rfl

/-- The update ends between its two renames. -/
def stopped : FileSystem := endsBefore (commitChanges "h" twoChanges) 26 twoFiles

/-- Its recovery ends when it has restored the first file and removed what it was kept in. -/
def recovering : FileSystem := endsBefore (recoverInterruptedUpdate "h") 7 stopped

def recovered : FileSystem :=
  (recoverInterruptedUpdate "h" { contents := recovering }).contents.contents

/-- All files are old after a failure that is undone, and after a crash and two recoveries, the
first of which crashes; and all are new after an update that returns. -/
theorem update_atomic_two :
    AllOld twoFiles (listed twoFiles twoChanges)
        (commitChanges "h" twoChanges failedRename).contents.contents ∧
      AllNew twoFiles (listed twoFiles twoChanges)
        (commitChanges "h" twoChanges { contents := twoFiles }).contents.contents ∧
      stopped.get? "a" ≠ twoFiles.get? "a" ∧ stopped.get? "b" = twoFiles.get? "b" ∧
      AllOld twoFiles (listed twoFiles twoChanges) recovered ∧
      ∀ later, ReflTransGen (Ends (recoverInterruptedUpdate "h")) recovered later →
        later = recovered := by
  obtain ⟨hrecovers, hreturns, hthrows⟩ := update_atomic "h" twoFiles twoChanges (by decide +kernel)
    (by decide +kernel) ordinary_two plain_two
  have hsure : failedRename.Sure := fun _ hmem => absurd hmem List.not_mem_nil
  have hfinal : Returns (recoverInterruptedUpdate "h") recovering recovered :=
    ⟨{ contents := recovering }, rfl, fun _ hmem => absurd hmem List.not_mem_nil,
      some "An interrupted update was rolled back: 2 file(s) restored to their earlier contents.",
      by decide +kernel, rfl⟩
  obtain ⟨hsettled, hlater⟩ := hrecovers stopped recovering recovered (ends_endsBefore _ 26 _)
    (.single (ends_endsBefore _ 7 _)) hfinal
  have hold : ¬AllNew twoFiles (listed twoFiles twoChanges) recovered := by
    unfold AllNew
    decide +kernel
  refine ⟨?_, ?_, by decide +kernel, by decide +kernel, hsettled.resolve_right hold, hlater⟩
  · exact hthrows _ ⟨failedRename, rfl, hsure, .failed, by decide +kernel, rfl⟩ (by decide +kernel)
  · exact hreturns _ ⟨{ contents := twoFiles }, rfl, fun _ hmem => absurd hmem List.not_mem_nil, (),
      by decide +kernel, rfl⟩

/-- A check that fails while the update is undone leaves one new file and one old, and no marker;
and a file that goes back has lost what is not among its permission bits. -/
theorem update_torn :
    (∃ final, (commitChanges "h" twoChanges missedCopy).result = .error .failed ∧
        final = (commitChanges "h" twoChanges missedCopy).contents.contents ∧
        final.get? (updateMarker "h") = none ∧
        ¬ AllOld twoFiles (listed twoFiles twoChanges) final ∧
        ¬ AllNew twoFiles (listed twoFiles twoChanges) final) ∧
      ∃ before final : FileSystem, before = OrderedMap.empty.set "a" ⟨.bytes [1], 0o4755⟩ ∧
        Throws (commitChanges "h" [⟨"a", [3], none⟩]) before final ∧
        final.get? (updateMarker "h") = none ∧ final.get? "a" = some ⟨.bytes [1], 0o755⟩ := by
  constructor
  · refine ⟨_, by decide +kernel, rfl, by decide +kernel, ?_, ?_⟩
    · unfold AllOld
      decide +kernel
    · unfold AllNew
      decide +kernel
  · let start : Faulty FileSystem :=
      ⟨OrderedMap.empty.set "a" ⟨.bytes [1], 0o4755⟩, List.replicate 13 false ++ [true], []⟩
    have hsure : start.Sure := fun _ hmem => absurd hmem List.not_mem_nil
    exact ⟨_, _, rfl, ⟨start, rfl, hsure, .failed, by decide +kernel, rfl⟩, by decide +kernel,
      by decide +kernel⟩

end Mpas.Installer
