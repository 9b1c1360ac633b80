import Mpas.InstallerCoherence

/-!
# What the commands of the installer read

Before its update a command only reads. What it reads of a good home is the
account, the key and the configs of one account.

* `Reads`, `Reads.bind`: programs that leave the files as they are;
* `requireAccount_reads`, `listBridgeConfigs_reads`, `rewriteAll_reads`: what they find.
-/

namespace Mpas.Installer

open Faulty (Triple)

section Reads

variable {α β : Type} {before : FileSystem} {p : Script α} {R R' : α → Prop}

/-- The program leaves the files as they are, and returns within `R`. -/
def Reads (before : FileSystem) (p : Script α) (R : α → Prop) : Prop :=
  Triple (fun disk => disk = before) p (fun a disk => R a ∧ disk = before)
    (fun disk => disk = before) fun disk => disk = before

theorem Reads.bind {f : α → Script β} {Q : β → FileSystem → Prop} {E C : FileSystem → Prop}
    (hp : Reads before p R) (he : E before) (hc : C before)
    (hf : ∀ a, R a → Triple (fun disk => disk = before) (f a) Q E C) :
    Triple (fun disk => disk = before) (p >>= f) Q E C := by
  have hstart : Triple (fun disk => disk = before) p (fun a disk => R a ∧ disk = before) E C := by
    refine hp.weaken (fun _ h => h) (fun _ _ h => h) ?_ ?_
    · rintro disk rfl
      exact he
    · rintro disk rfl
      exact hc
  exact hstart.bind fun a => Triple.given (hf a)

theorem Reads.then {f : α → Script β} {S : β → Prop} (hp : Reads before p R)
    (hf : ∀ a, R a → Reads before (f a) S) : Reads before (p >>= f) S :=
  Reads.bind hp rfl rfl hf

theorem Reads.mono (h : Reads before p R) (hr : ∀ a, R a → R' a) : Reads before p R' :=
  h.weaken (fun _ h => h) (fun a _ h => ⟨hr a h.1, h.2⟩) (fun _ h => h) fun _ h => h

theorem Reads.pure {a : α} (h : R a) : Reads before (pure a : Script α) R :=
  Triple.pure fun _ hdisk => ⟨h, hdisk⟩

theorem Reads.throw {error : InstallError} : Reads before (throw error : Script α) R :=
  Triple.throw fun _ h => h

theorem Reads.tryCatch {handler : InstallError → Script α} (hp : Reads before p R)
    (hh : ∀ error, Reads before (handler error) R) : Reads before (tryCatch p handler) R :=
  Triple.tryCatch hp hh

theorem outside_reads : Reads before outside fun _ => True :=
  Triple.attempt (fun _ h => h) (fun _ h => h) fun disk _ disk' h heq => by
    cases heq
    exact ⟨trivial, h⟩

theorem refuse_reads {text : String} : Reads before (refuse text : Script α) R := Reads.throw

theorem refuseIf_reads {condition : Bool} {text : String} :
    Reads before (refuseIf condition text) fun _ => condition = false := by
  unfold refuseIf
  cases condition with
  | true => exact refuse_reads
  | false => exact Reads.pure rfl

theorem liftExcept_reads {result : Except String α} :
    Reads before (liftExcept result) fun a => result = .ok a := by
  cases result with
  | ok a => exact Reads.pure rfl
  | error text => exact refuse_reads

theorem fileExists_reads {path : Path} :
    Reads before (fileExists path) fun found => found = before.has path :=
  (fileExists_triple fun _ h => h).weaken (fun _ h => h)
    (fun found disk h => by
      obtain ⟨rfl, hfound⟩ := h
      exact ⟨hfound, rfl⟩)
    (fun _ h => h) fun _ h => h

theorem readFile_reads {path : Path} :
    Reads before (readFile path) fun contents => ∃ mode, before.get? path = some ⟨contents, mode⟩ :=
  (readFile_triple (fun _ h => h) fun _ h => h).weaken (fun _ h => h)
    (fun found disk h => by
      obtain ⟨rfl, hfound⟩ := h
      exact ⟨hfound, rfl⟩)
    (fun _ h => h) fun _ h => h

theorem listFiles_reads {directory : Path} {ending : String} :
    Reads before (listFiles directory ending) fun paths =>
      (∀ path, path ∈ paths ↔ isFileIn directory ending path = true ∧ before.has path = true) ∧
        paths.Nodup := by
  refine Triple.glance (fun _ h => h) ?_
  rintro disk rfl
  refine ⟨⟨fun path => ?_, ?_⟩, rfl⟩
  · rw [List.mem_mergeSort, List.mem_filter, and_comm]
    refine and_congr_right fun _ => ?_
    rw [OrderedMap.has_iff, OrderedMap.keys, List.mem_map]
    constructor
    · rintro ⟨⟨key, file⟩, hmem, rfl⟩
      exact ⟨file, (disk.mem_entries_iff key file).mp hmem⟩
    · rintro ⟨file, hfile⟩
      exact ⟨(path, file), (disk.mem_entries_iff path file).mpr hfile, rfl⟩
  · rw [(List.mergeSort_perm _ _).nodup_iff]
    exact disk.nodup.filter _

end Reads

/-! ## The files of an account -/

section Account

variable {deps : Deps} {home path : Path} {before : FileSystem} {account : Account}

/-- The file holds the text of the value. -/
def Holds (deps : Deps) (before : FileSystem) (path : Path) (value : Json) : Prop :=
  ∃ bytes mode, before.get? path = some ⟨.bytes bytes, mode⟩ ∧ deps.texts.parse bytes = some value

theorem parseText_reads {contents : Contents} :
    Reads before (parseText deps contents) fun value =>
      ∃ bytes, contents = .bytes bytes ∧ deps.texts.parse bytes = some value := by
  cases contents with
  | marker update => exact Reads.throw
  | bytes bytes =>
    cases hparse : deps.texts.parse bytes with
    | none =>
      simp only [parseText, hparse]
      exact Reads.throw
    | some value =>
      simp only [parseText, hparse]
      exact Reads.pure ⟨bytes, rfl, hparse⟩

theorem readJsonFile_reads : Reads before (readJsonFile deps path) (Holds deps before path) := by
  unfold readJsonFile
  refine readFile_reads.then fun contents hfile => parseText_reads.mono fun value hvalue => ?_
  obtain ⟨mode, hfile⟩ := hfile
  obtain ⟨bytes, rfl, hparse⟩ := hvalue
  exact ⟨bytes, mode, hfile, hparse⟩

theorem readConfig_reads : Reads before (readConfig deps path) (Holds deps before path) :=
  readJsonFile_reads.tryCatch fun _ => refuse_reads

theorem Says.isSome {files : Files} {value : Json} (h : Says deps.texts files path value) :
    (files path).isSome := by
  obtain ⟨mode, hfile⟩ := h
  rw [hfile]
  rfl

/-- What was written is what is read. -/
theorem Holds.eq {value found : Json} (h : Holds deps before path found)
    (hheld : Says deps.texts before.get? path value) (hwritten : isWritten value = true) :
    found = value := by
  obtain ⟨bytes, mode, hfile, hparse⟩ := h
  obtain ⟨mode', hheld⟩ := hheld
  rw [hheld] at hfile
  cases hfile
  rw [deps.texts.parse_json value hwritten] at hparse
  exact (Option.some.inj hparse).symm

theorem Shape.written {shape : Account → Json} (h : Shape home path shape) (account : Account) :
    isWritten (shape account) = true := by
  cases h with
  | signer => exact signerConfig_written home account
  | bridge app _ => exact bridgeConfig_written home app account

theorem readAccount_reads (hgood : Good deps.texts home before.get?) :
    Reads before (readAccount deps home) fun found =>
      (found = none ∧ Unused home before.get?) ∨
        ∃ account, found = some account ∧ Managed deps.texts home before.get? account := by
  unfold readAccount
  refine fileExists_reads.then fun found hfound => ?_
  rcases hgood.managed with hunused | ⟨account, hmanaged⟩
  · have hnone : found = false := by rw [hfound, OrderedMap.has, hunused.account]; rfl
    subst hnone
    exact Reads.pure (Or.inl ⟨rfl, hunused⟩)
  · have hthere : found = true := by
      rw [hfound, OrderedMap.has]
      exact hmanaged.accountFile.isSome
    subst hthere
    refine readJsonFile_reads.then fun value hvalue => ?_
    rw [hvalue.eq hmanaged.accountFile account.written, asAccount, Account.ofJson_toJson]
    exact Reads.pure (Or.inr ⟨account, rfl, hmanaged⟩)

theorem requireAccount_reads (hgood : Good deps.texts home before.get?) :
    Reads before (requireAccount deps home) (Managed deps.texts home before.get?) := by
  unfold requireAccount
  refine (readAccount_reads hgood).then fun found hfound => ?_
  rcases hfound with ⟨rfl, -⟩ | ⟨account, rfl, hmanaged⟩
  · exact refuse_reads
  · exact Reads.pure hmanaged

theorem signerPath_reads : Reads before (signerPath home) fun paths =>
    (∀ path, path ∈ paths ↔ path = homePaths.signerConfig home ∧ before.has path = true) ∧
      paths.Nodup := by
  unfold signerPath
  refine fileExists_reads.then fun found hfound => ?_
  subst hfound
  cases hsigner : before.has (homePaths.signerConfig home) with
  | true =>
    refine Reads.pure ⟨fun path => ?_, List.nodup_singleton _⟩
    rw [List.mem_singleton]
    exact ⟨fun heq => ⟨heq, by rw [heq, hsigner]⟩, fun h => h.1⟩
  | false =>
    refine Reads.pure ⟨fun path => ?_, List.nodup_nil⟩
    refine ⟨fun hmem => absurd hmem List.not_mem_nil, ?_⟩
    rintro ⟨rfl, hhas⟩
    rw [hsigner] at hhas
    cases hhas

theorem listBridgeConfigs_reads : Reads before (listBridgeConfigs home) fun paths =>
    (∀ path, path ∈ paths ↔ isBridgeConfig home path = true ∧ before.has path = true) ∧
      paths.Nodup :=
  listFiles_reads

/-- The update of a config that is read for an account. -/
structure RewrittenFor (deps : Deps) (home : Path) (before : FileSystem) (account : Account)
    (update : Json → Json) (file : Rewritten) : Prop where
  shape : ∃ shape, Shape home file.path shape ∧
    Says deps.texts before.get? file.path (shape account) ∧ file.updated = update (shape account)

theorem rewriteAll_reads {update : Json → Json} {paths : List Path}
    (hmanaged : Managed deps.texts home before.get? account)
    (hpaths : ∀ path ∈ paths, IsConfig home path ∧ before.has path = true) :
    Reads before (rewriteAll deps update paths) fun files =>
      files.map Rewritten.path = paths ∧
        ∀ file ∈ files, RewrittenFor deps home before account update file := by
  induction paths with
  | nil => exact Reads.pure ⟨rfl, fun file hmem => absurd hmem List.not_mem_nil⟩
  | cons path rest ih =>
    unfold rewriteAll
    refine readConfig_reads.then fun value hvalue => ?_
    refine (ih fun path hmem => hpaths path (List.mem_cons_of_mem _ hmem)).then fun files hfiles => ?_
    obtain ⟨hconfig, hhas⟩ := hpaths path List.mem_cons_self
    obtain ⟨shape, hshape, hheld⟩ := hmanaged.config path hconfig hhas
    refine Reads.pure ⟨by rw [List.map_cons, hfiles.1], fun file hmem => ?_⟩
    rcases List.mem_cons.mp hmem with rfl | hrest
    · exact ⟨shape, hshape, hheld, by rw [hvalue.eq hheld (hshape.written account)]⟩
    · exact hfiles.2 file hrest

theorem assertManagedConfigs_reads {configs : List Rewritten} :
    Reads before (assertManagedConfigs deps home account configs) fun _ => True :=
  refuseIf_reads.mono fun _ _ => trivial

end Account

end Mpas.Installer
