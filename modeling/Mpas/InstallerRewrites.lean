import Mpas.InstallerReads
import Mpas.Library.Checks

/-!
# Commands that rewrite the configs

`mpas config` and `mpas key rotate` start from a good home and commit changes
that make the good home of the updated account.

* `managed_rewritten`: the home after the account and its configs are written again;
* `runConfig_steady`, `runKeyRotate_steady`: the two commands.
-/

namespace Mpas.Installer

open Faulty (Triple)

/-! ## Updates of an account -/

section Updated

variable {texts : Texts} {home path : Path} {before : FileSystem} {changes : List FileChange}
  {account updated : Account} {shape : Account → Json}

theorem Shape.eq_signer (h : Shape home (homePaths.signerConfig home) shape) :
    shape = signerConfig home := by
  generalize hpath : homePaths.signerConfig home = path at h
  cases h with
  | signer => rfl
  | bridge app h =>
    rw [← hpath, signerConfig_not_bridge] at h
    cases h

theorem Shape.eq_bridge (h : Shape home path shape) (hpath : isBridgeConfig home path = true) :
    ∃ app, shape = bridgeConfig home app := by
  cases h with
  | signer =>
    rw [signerConfig_not_bridge] at hpath
    cases hpath
  | bridge app _ => exact ⟨app, rfl⟩

theorem updatedFiles_isSome (hupdate : Update home changes) :
    (updatedFiles before changes path).isSome ↔
      (∃ change ∈ changes, change.path = path) ∨ (before.get? path).isSome := by
  by_cases hlisted : ∃ change ∈ changes, change.path = path
  · obtain ⟨change, hmem, rfl⟩ := hlisted
    rw [updatedFiles_of_mem hupdate hmem]
    exact ⟨fun _ => Or.inl ⟨change, hmem, rfl⟩, fun _ => rfl⟩
  · rw [updatedFiles_of_ne fun change hmem heq => hlisted ⟨change, hmem, heq⟩]
    exact ⟨Or.inr, fun h => h.resolve_left hlisted⟩

theorem updatedFiles_says {change : FileChange} {value : Json} (hupdate : Update home changes)
    (hmem : change ∈ changes) (hcontents : change.contents = texts.json value) :
    Says texts (updatedFiles before changes) change.path value := by
  refine ⟨newMode before change, ?_⟩
  rw [updatedFiles_of_mem hupdate hmem, newFile, hcontents]

/-- The configs, where those that change are written for the updated account and those that stay say
nothing that changes. -/
theorem updatedFiles_config (hupdate : Update home changes)
    (hbefore : ∀ path, IsConfig home path → (before.get? path).isSome →
      ∃ shape, Shape home path shape ∧ Says texts before.get? path (shape account))
    (hchanges : ∀ change ∈ changes, IsConfig home change.path →
      ∃ shape, Shape home change.path shape ∧ change.contents = texts.json (shape updated))
    (hrest : ∀ path shape, Shape home path shape → (before.get? path).isSome →
      (∀ change ∈ changes, change.path ≠ path) → shape updated = shape account) :
    ∀ path, IsConfig home path → (updatedFiles before changes path).isSome →
      ∃ shape, Shape home path shape ∧ Says texts (updatedFiles before changes) path
        (shape updated) := by
  intro path hpath hsome
  by_cases hlisted : ∃ change ∈ changes, change.path = path
  · obtain ⟨change, hmem, rfl⟩ := hlisted
    obtain ⟨shape, hshape, hcontents⟩ := hchanges change hmem hpath
    exact ⟨shape, hshape, updatedFiles_says hupdate hmem hcontents⟩
  · have hne : ∀ change ∈ changes, change.path ≠ path :=
      fun change hmem heq => hlisted ⟨change, hmem, heq⟩
    rw [updatedFiles_of_ne hne] at hsome
    obtain ⟨shape, hshape, hheld⟩ := hbefore path hpath hsome
    refine ⟨shape, hshape, ?_⟩
    unfold Says
    rw [hrest path shape hshape hsome hne, updatedFiles_of_ne hne]
    exact hheld

theorem newMode_lt {change : FileChange} (h : ∀ mode, change.mode = some mode → mode < 0o1000) :
    newMode before change < 0o1000 := by
  unfold newMode
  cases hmode : change.mode with
  | some mode => exact h mode hmode
  | none =>
    cases before.get? change.path with
    | none => decide
    | some old => exact Nat.mod_lt _ (by decide)

theorem good_updated (hbefore : Good texts home before.get?) (hupdate : Update home changes)
    (hmanaged : Managed texts home (updatedFiles before changes) updated) :
    Good texts home (updatedFiles before changes) := by
  refine ⟨fun path file hpath hfile => ?_, Or.inr ⟨updated, hmanaged⟩⟩
  by_cases hlisted : ∃ change ∈ changes, change.path = path
  · obtain ⟨change, hmem, rfl⟩ := hlisted
    rw [updatedFiles_of_mem hupdate hmem] at hfile
    cases hfile
    exact newMode_lt (hupdate.modes change hmem)
  · rw [updatedFiles_of_ne fun change hmem heq => hlisted ⟨change, hmem, heq⟩] at hfile
    exact hbefore.plain path file hpath hfile

end Updated

section Commands

variable {deps : Deps} {home : Path} {before : FileSystem} {account updated : Account}
  {changes : Settings}

/-- A set of rewritten configs: those wanted that are there, each once. -/
structure Covers (before : FileSystem) (wanted : Path → Prop) (files : List Rewritten) : Prop where
  mem : ∀ path, path ∈ files.map Rewritten.path ↔ wanted path ∧ before.has path = true
  nodup : (files.map Rewritten.path).Nodup

theorem Covers.append {wanted wanted' : Path → Prop} {files files' : List Rewritten}
    (h : Covers before wanted files) (h' : Covers before wanted' files')
    (happart : ∀ path, wanted path → ¬ wanted' path) :
    Covers before (fun path => wanted path ∨ wanted' path) (files ++ files') where
  mem := by
    intro path
    rw [List.map_append, List.mem_append, h.mem, h'.mem, or_and_right]
  nodup := by
    rw [List.map_append]
    refine List.nodup_append.mpr ⟨h.nodup, h'.nodup, ?_⟩
    rintro a ha b hb rfl
    exact happart a ((h.mem a).mp ha).1 ((h'.mem a).mp hb).1

theorem not_config_of_head {name : String} (h : name.toList[0]? ≠ some 'm') :
    ¬ IsConfig home (join home name) := by
  rintro (heq | hbridge)
  · refine absurd heq (join_ne_of_getElem? 0 ?_)
    intro hsame
    exact h (hsame.trans (by decide))
  · rw [not_bridge_of_head h] at hbridge
    cases hbridge

theorem account_not_config : ¬ IsConfig home (homePaths.account home) :=
  not_config_of_head (by decide)

/-- Changes of other files, and then of configs. -/
theorem update_configs {others : List FileChange} {files : List Rewritten}
    (hothers : Update home others) (hapart : ∀ change ∈ others, ¬ IsConfig home change.path)
    (hconfigs : ∀ file ∈ files, IsConfig home file.path)
    (hnodup : (files.map Rewritten.path).Nodup) :
    Update home (others ++ files.map (Rewritten.change deps)) where
  distinct := by
    have hpaths : (files.map (Rewritten.change deps)).map (fun change => change.path) =
        files.map Rewritten.path := by
      rw [List.map_map]
      rfl
    rw [List.map_append, hpaths]
    refine List.nodup_append.mpr ⟨hothers.distinct, hnodup, ?_⟩
    rintro a ha b hb rfl
    obtain ⟨change, hchange, rfl⟩ := List.mem_map.mp ha
    obtain ⟨file, hfile, heq⟩ := List.mem_map.mp hb
    have hconfig := hconfigs file hfile
    rw [heq] at hconfig
    exact hapart change hchange hconfig
  files := by
    intro change hmem
    rcases List.mem_append.mp hmem with hother | hrewritten
    · exact hothers.files change hother
    · obtain ⟨file, hfile, rfl⟩ := List.mem_map.mp hrewritten
      exact (hconfigs file hfile).homeFile
  modes := by
    intro change hmem mode hmode
    rcases List.mem_append.mp hmem with hother | hrewritten
    · exact hothers.modes change hother mode hmode
    · obtain ⟨file, hfile, rfl⟩ := List.mem_map.mp hrewritten
      cases hmode

/-- The home of the updated account, once its files are written and its configs rewritten. -/
theorem managed_rewritten {others : List FileChange} {files : List Rewritten}
    (hmanaged : Managed deps.texts home before.get? account)
    (hupdate : Update home (others ++ files.map (Rewritten.change deps)))
    (hothers : ∀ change ∈ others, ¬ IsConfig home change.path)
    (haccount : accountChange deps home updated ∈ others)
    (hkey : ∃ bytes key, updatedFiles before (others ++ files.map (Rewritten.change deps))
        (homePaths.key home) = some ⟨.bytes bytes, 0o600⟩ ∧
      deps.texts.parse bytes = some key ∧ key.member "did" = some (.str updated.did))
    (hhas : ∀ file ∈ files, before.has file.path = true)
    (hfiles : ∀ file ∈ files, ∃ shape, Shape home file.path shape ∧ file.updated = shape updated)
    (hrest : ∀ path shape, Shape home path shape → before.has path = true →
      path ∉ files.map Rewritten.path → shape updated = shape account)
    (hroles : updated.roles = account.roles)
    (hcoordination : account.coordinationUrl.isSome → updated.coordinationUrl.isSome)
    (haction : account.actionUrl.isSome → updated.actionUrl.isSome)
    (hverifier : account.verifierDid.getD "" ≠ "" → updated.verifierDid.getD "" ≠ "") :
    Managed deps.texts home
      (updatedFiles before (others ++ files.map (Rewritten.change deps))) updated := by
  have hchange : ∀ change ∈ others ++ files.map (Rewritten.change deps), IsConfig home change.path →
      ∃ file ∈ files, change = Rewritten.change deps file := by
    intro change hmem hconfig
    rcases List.mem_append.mp hmem with hother | hrewritten
    · exact absurd hconfig (hothers change hother)
    · obtain ⟨file, hfile, rfl⟩ := List.mem_map.mp hrewritten
      exact ⟨file, hfile, rfl⟩
  -- No config is new.
  have hsome : ∀ path, IsConfig home path →
      (updatedFiles before (others ++ files.map (Rewritten.change deps)) path).isSome →
      (before.get? path).isSome := by
    intro path hconfig hsome
    rcases (updatedFiles_isSome hupdate).mp hsome with ⟨change, hmem, rfl⟩ | hbefore
    · obtain ⟨file, hfile, rfl⟩ := hchange change hmem hconfig
      exact hhas file hfile
    · exact hbefore
  constructor
  · exact updatedFiles_says hupdate (List.mem_append_left _ haccount) rfl
  · exact hkey
  · refine updatedFiles_config hupdate hmanaged.config (fun change hmem hconfig => ?_) ?_
    · obtain ⟨file, hfile, rfl⟩ := hchange change hmem hconfig
      obtain ⟨shape, hshape, hcontents⟩ := hfiles file hfile
      exact ⟨shape, hshape, congrArg deps.texts.json hcontents⟩
    · intro path shape hshape hbefore hne
      refine hrest path shape hshape hbefore fun hmem => ?_
      obtain ⟨file, hfile, rfl⟩ := List.mem_map.mp hmem
      exact hne _ (List.mem_append_right _ (List.mem_map_of_mem hfile)) rfl
  · rw [hroles, ← hmanaged.signer]
    exact ⟨hsome _ (Or.inl rfl), fun hbefore => (updatedFiles_isSome hupdate).mpr (Or.inr hbefore)⟩
  · intro path hpath hthere
    obtain ⟨hproposer, hdid⟩ := hmanaged.bridge path hpath (hsome path (Or.inr hpath) hthere)
    exact ⟨by rw [hroles]; exact hproposer, hverifier hdid⟩
  · rw [hroles]
    exact fun h => hcoordination (hmanaged.coordination h)
  · rw [hroles]
    exact fun h => haction (hmanaged.action h)

/-! ## `mpas config` -/

theorem Settings.apply_did (changes : Settings) (account : Account) :
    (changes.apply account).did = account.did := by
  rw [Settings.apply_eq]

theorem Settings.apply_roles (changes : Settings) (account : Account) :
    (changes.apply account).roles = account.roles := by
  rw [Settings.apply_eq]

theorem Settings.apply_coordinationUrl (h : account.coordinationUrl.isSome) :
    (changes.apply account).coordinationUrl.isSome := by
  rw [Settings.apply_eq]
  cases hchange : changes.isChange account .coordinationUrl with
  | false => simpa [hchange] using h
  | true => simpa [hchange] using (changes.isSome_of_change account).1 hchange

theorem Settings.apply_actionUrl (h : account.actionUrl.isSome) :
    (changes.apply account).actionUrl.isSome := by
  rw [Settings.apply_eq]
  cases hchange : changes.isChange account .actionUrl with
  | false => simpa [hchange] using h
  | true => simpa [hchange] using (changes.isSome_of_change account).2.1 hchange

theorem Settings.apply_verifierDid (h : account.verifierDid.getD "" ≠ "")
    (hdid : ∀ did, changes.verifierDid = some did → did ≠ "" ∨ account.verifierDid = some did) :
    (changes.apply account).verifierDid.getD "" ≠ "" := by
  rw [Settings.apply_eq]
  cases hchange : changes.isChange account .verifierDid with
  | false => simpa [hchange] using h
  | true =>
    have hsome := (changes.isSome_of_change account).2.2 hchange
    obtain ⟨did, hgiven⟩ := Option.isSome_iff_exists.mp hsome
    rcases hdid did hgiven with hne | hsame
    · simpa [hchange, hgiven] using hne
    · simpa [hchange, hgiven, hsame] using h

theorem signerRewrites_reads {changed : List Setting}
    (hmanaged : Managed deps.texts home before.get? account) :
    Reads before (signerRewrites deps home changed updated) fun files =>
      Covers before (fun path => changed.contains .coordinationUrl = true ∧
        path = homePaths.signerConfig home) files ∧
      ∀ file ∈ files, RewrittenFor deps home before account (updateSigner updated) file := by
  unfold signerRewrites
  cases hchanged : changed.contains .coordinationUrl with
  | false =>
    refine Reads.pure ⟨⟨fun path => ?_, List.nodup_nil⟩, fun _ hmem => absurd hmem List.not_mem_nil⟩
    simp
  | true =>
    refine signerPath_reads.then fun paths hpaths => ?_
    have hconfigs : ∀ path ∈ paths, IsConfig home path ∧ before.has path = true :=
      fun path hmem => ⟨Or.inl ((hpaths.1 path).mp hmem).1, ((hpaths.1 path).mp hmem).2⟩
    refine (rewriteAll_reads hmanaged hconfigs).mono fun files hfiles => ⟨⟨fun path => ?_, ?_⟩, hfiles.2⟩
    · rw [hfiles.1, hpaths.1]
      simp
    · rw [hfiles.1]
      exact hpaths.2

/-- A setting that a bridge config says. -/
def ofBridge (key : Setting) : Bool :=
  key = .coordinationUrl || key = .actionUrl || key = .verifierDid

theorem bridgeRewrites_reads {changed : List Setting}
    (hmanaged : Managed deps.texts home before.get? account) :
    Reads before (bridgeRewrites deps home changed updated) fun files =>
      Covers before (fun path => changed.any ofBridge = true ∧ isBridgeConfig home path = true)
        files ∧
      ∀ file ∈ files, RewrittenFor deps home before account (updateBridge changed updated) file := by
  unfold bridgeRewrites
  rw [show (changed.any fun key => key = .coordinationUrl || key = .actionUrl || key = .verifierDid) =
    changed.any ofBridge from rfl]
  cases hchanged : changed.any ofBridge with
  | false =>
    refine Reads.pure ⟨⟨fun path => ?_, List.nodup_nil⟩, fun _ hmem => absurd hmem List.not_mem_nil⟩
    simp
  | true =>
    refine listBridgeConfigs_reads.then fun paths hpaths => ?_
    have hconfigs : ∀ path ∈ paths, IsConfig home path ∧ before.has path = true :=
      fun path hmem => ⟨Or.inr ((hpaths.1 path).mp hmem).1, ((hpaths.1 path).mp hmem).2⟩
    refine (rewriteAll_reads hmanaged hconfigs).mono fun files hfiles => ⟨⟨fun path => ?_, ?_⟩, hfiles.2⟩
    · rw [hfiles.1, hpaths.1]
      simp
    · rw [hfiles.1]
      exact hpaths.2

/-- What is rewritten of a config for the changed settings is the config of the updated account. -/
theorem rewritten_settings {file : Rewritten} {update : Json → Json}
    (hmanaged : Managed deps.texts home before.get? account)
    (hfile : RewrittenFor deps home before account update file)
    (hupdate : file.path = homePaths.signerConfig home ∧ update = updateSigner (changes.apply account) ∨
      isBridgeConfig home file.path = true ∧
        update = updateBridge (changes.changed account) (changes.apply account)) :
    ∃ shape, Shape home file.path shape ∧ file.updated = shape (changes.apply account) := by
  obtain ⟨shape, hshape, hheld, hupdated⟩ := hfile.shape
  refine ⟨shape, hshape, ?_⟩
  rw [hupdated]
  rcases hupdate with ⟨hpath, rfl⟩ | ⟨hpath, rfl⟩
  · rw [hpath] at hshape hheld
    rw [hshape.eq_signer]
    have hurl := hmanaged.coordination (Or.inr (hmanaged.signer.mp hheld.isSome))
    exact updateSigner_signer hurl (changes.apply_did account) (Settings.apply_coordinationUrl hurl)
  · obtain ⟨app, rfl⟩ := hshape.eq_bridge hpath
    obtain ⟨hproposer, hdid⟩ := hmanaged.bridge file.path hpath hheld.isSome
    refine updateBridge_bridge app changes (hmanaged.coordination (Or.inl hproposer))
      (hmanaged.action hproposer) ?_
    cases hsome : account.verifierDid with
    | none =>
      rw [hsome] at hdid
      exact absurd rfl hdid
    | some did => rfl

/-- A config that is not rewritten says nothing that changes. -/
theorem shape_unchanged {path : Path} {shape : Account → Json} (hshape : Shape home path shape)
    (hsigner : path = homePaths.signerConfig home →
      (changes.changed account).contains .coordinationUrl = false)
    (hbridge : isBridgeConfig home path = true → (changes.changed account).any ofBridge = false) :
    shape (changes.apply account) = shape account := by
  cases hshape with
  | signer =>
    have hurl := hsigner rfl
    rw [Settings.contains_changed] at hurl
    rw [Settings.apply_eq]
    simp [signerConfig, hurl]
  | bridge app hpath =>
    refine bridgeConfig_unchanged app changes fun key hkey => ?_
    have hany := hbridge hpath
    rw [← Settings.contains_changed, List.contains_eq_mem, decide_eq_false_iff_not]
    intro hmem
    have hof : ofBridge key = true := by
      revert hkey
      cases key <;> decide
    exact absurd hof (by simpa using List.any_eq_false.mp hany key hmem)

theorem applySettings_steady (hsteady : Steady deps.texts home before)
    (hmanaged : Managed deps.texts home before.get? account)
    (hdid : ∀ did, changes.verifierDid = some did → did ≠ "" ∨ account.verifierDid = some did) :
    Triple (fun disk => disk = before) (applySettings deps home account changes)
      (fun _ => Steady deps.texts home) (Leaves deps.texts home) (Leaves deps.texts home) := by
  have hleaves := hsteady.leaves
  unfold applySettings
  dsimp only
  split
  · refine Triple.pure ?_
    rintro disk rfl
    exact hsteady
  refine (signerRewrites_reads hmanaged).bind hleaves hleaves fun signer hsigner => ?_
  refine (bridgeRewrites_reads hmanaged).bind hleaves hleaves fun bridges hbridges => ?_
  refine assertManagedConfigs_reads.bind hleaves hleaves fun _ _ => ?_
  have hcovers := hsigner.1.append hbridges.1 (by
    rintro path ⟨-, rfl⟩ ⟨-, hbridge⟩
    rw [signerConfig_not_bridge] at hbridge
    cases hbridge)
  have hwanted : ∀ file ∈ signer ++ bridges, ∃ shape, Shape home file.path shape ∧
      file.updated = shape (changes.apply account) := by
    intro file hmem
    rcases List.mem_append.mp hmem with hfile | hfile
    · have hpath := ((hsigner.1.mem file.path).mp (List.mem_map_of_mem hfile)).1.2
      exact rewritten_settings hmanaged (hsigner.2 file hfile) (Or.inl ⟨hpath, rfl⟩)
    · have hpath := ((hbridges.1.mem file.path).mp (List.mem_map_of_mem hfile)).1.2
      exact rewritten_settings hmanaged (hbridges.2 file hfile) (Or.inr ⟨hpath, rfl⟩)
  have hothers : ∀ change ∈ [accountChange deps home (changes.apply account)],
      ¬ IsConfig home change.path := by
    intro change hmem
    rw [List.mem_singleton.mp hmem]
    exact account_not_config
  have haccount : Update home [accountChange deps home (changes.apply account)] := by
    refine ⟨List.nodup_singleton _, fun change hmem => ?_, fun change hmem mode hmode => ?_⟩
    · rw [List.mem_singleton.mp hmem]
      exact homeFile_account home
    · rw [List.mem_singleton.mp hmem] at hmode
      cases hmode
      decide
  have hupdate : Update home ([accountChange deps home (changes.apply account)] ++
      (signer ++ bridges).map (Rewritten.change deps)) :=
    update_configs haccount hothers
      (fun file hmem => (hwanted file hmem).elim fun shape h => h.1.isConfig) hcovers.nodup
  refine commitChanges_steady hsteady hupdate (good_updated hsteady.good hupdate
    (managed_rewritten hmanaged hupdate hothers (List.mem_singleton_self _) ?_ ?_ hwanted ?_
      (changes.apply_roles account) Settings.apply_coordinationUrl Settings.apply_actionUrl
      fun h => Settings.apply_verifierDid h hdid))
  · rw [updatedFiles_of_ne, Settings.apply_did]
    · exact hmanaged.keyFile
    · intro change hmem
      rcases List.mem_append.mp hmem with haccount | hrewritten
      · rw [List.mem_singleton.mp haccount]
        exact join_ne_of_getElem? 0 (by decide)
      · obtain ⟨file, hfile, rfl⟩ := List.mem_map.mp hrewritten
        rintro heq
        obtain ⟨shape, hshape, -⟩ := hwanted file hfile
        have hconfig := hshape.isConfig
        rw [show file.path = homePaths.key home from heq] at hconfig
        exact not_config_of_head (by decide) hconfig
  · exact fun file hmem => ((hcovers.mem file.path).mp (List.mem_map_of_mem hmem)).2
  · intro path shape hshape hhas hnot
    refine shape_unchanged hshape (fun hpath => ?_) fun hpath => ?_
    · rw [← Bool.not_eq_true]
      exact fun hchanged => hnot ((hcovers.mem path).mpr ⟨Or.inl ⟨hchanged, hpath⟩, hhas⟩)
    · rw [← Bool.not_eq_true]
      exact fun hchanged => hnot ((hcovers.mem path).mpr ⟨Or.inr ⟨hchanged, hpath⟩, hhas⟩)

theorem parseDid_ne {value label did : String} (h : parseDid deps value label = .ok did) :
    did ≠ "" := by
  unfold parseDid at h
  dsimp only at h
  split at h
  · cases h
  rename_i hdid
  split at h
  · cases h
  · cases h
    intro hempty
    rw [hempty] at hdid
    exact hdid (by decide)

theorem askedDid_ne {answer label : String} {saved found : Option String}
    (h : askedDid deps answer label saved = .ok found) :
    ∀ did, found = some did → did ≠ "" ∨ saved = some did := by
  intro did hfound
  unfold askedDid at h
  split at h
  · cases h
    exact Or.inr hfound
  · obtain ⟨parsed, hparsed, heq⟩ := Checks.map_eq_ok.mp h
    rw [← heq] at hfound
    cases hfound
    exact Or.inl (parseDid_ne hparsed)

theorem given_eq_ok {α : Type} {flag : Option String} {parse : String → Except String α}
    {found : Option α} (h : given flag parse = .ok found) :
    ∀ a, found = some a → ∃ value, parse value = .ok a := by
  intro a hfound
  unfold given at h
  split at h
  · obtain ⟨parsed, hparsed, heq⟩ := Checks.map_eq_ok.mp h
    rw [← heq] at hfound
    cases hfound
    exact ⟨_, hparsed⟩
  · cases h
    cases hfound

/-- A Verifier DID that is set is not empty. -/
theorem ConfigRequest.settings_verifierDid {request : ConfigRequest}
    (h : request.settings deps account = .ok changes) :
    ∀ did, changes.verifierDid = some did → did ≠ "" ∨ account.verifierDid = some did := by
  intro did hdid
  have hflags : request.flagSettings deps = .ok changes →
      did ≠ "" ∨ account.verifierDid = some did := by
    intro hflags
    simp only [ConfigRequest.flagSettings, Checks.bind_eq_ok] at hflags
    obtain ⟨_, -, _, -, verifierDid, hverifier, hresult⟩ := hflags
    cases hresult
    obtain ⟨value, hvalue⟩ := given_eq_ok hverifier did hdid
    exact Or.inl (parseDid_ne hvalue)
  unfold ConfigRequest.settings at h
  split at h
  · cases h
  split at h
  · simp only [answerSettings, Checks.bind_eq_ok] at h
    obtain ⟨_, -, _, -, verifierDid, hverifier, hresult⟩ := h
    cases hresult
    obtain ⟨value, hvalue⟩ := given_eq_ok hverifier _ (Option.join_eq_some_iff.mp hdid)
    exact askedDid_ne hvalue did rfl
  · exact hflags h

theorem runConfig_steady (request : ConfigRequest) (hsteady : Steady deps.texts home before) :
    Triple (fun disk => disk = before) (runConfig deps home request)
      (fun _ => Steady deps.texts home) (Leaves deps.texts home) (Leaves deps.texts home) := by
  have hleaves := hsteady.leaves
  unfold runConfig
  refine (requireAccount_reads hsteady.good).bind hleaves hleaves fun account hmanaged => ?_
  refine outside_reads.bind hleaves hleaves fun _ _ => ?_
  refine liftExcept_reads.bind hleaves hleaves fun changes hchanges => ?_
  exact applySettings_steady hsteady hmanaged (ConfigRequest.settings_verifierDid hchanges)

/-! ## `mpas key rotate` -/

/-- The key's text says the key's DID. -/
def Usable (deps : Deps) (key : GivenKey) : Prop :=
  ∃ value, deps.texts.parse key.text = some value ∧ value.member "did" = some (.str key.did)

theorem generated_usable (key : KeyFile) : Usable deps (generated deps key) :=
  ⟨key.toJson, deps.texts.parse_json _ key.json_written, rfl⟩

theorem keyText_reads {contents : Contents} :
    Reads before (keyText contents) fun bytes => contents = .bytes bytes := by
  cases contents with
  | marker update => exact Reads.throw
  | bytes bytes => exact Reads.pure rfl

theorem keyFileProblem_none {bytes : List UInt8} {key : Json}
    (h : keyFileProblem deps bytes key = none) :
    (∃ did, key.member "did" = some (.str did)) ∧ member₂ key "privateJwk" "d" ≠ none := by
  unfold keyFileProblem at h
  split at h
  · cases h
  rename_i did hdid
  obtain ⟨found, hmember, hfound⟩ := Option.bind_eq_some_iff.mp hdid
  rw [Json.asString_eq_some.mp hfound] at hmember
  refine ⟨⟨did, hmember⟩, fun hnone => ?_⟩
  split at h
  · cases h
  split at h
  · cases h
  rw [hnone] at h
  cases h

/-- A key file that is read: its text says its DID, and it has a private key. -/
theorem readKeyFile_reads {path : Path} :
    Reads before (readKeyFile deps path) fun key => Usable deps key ∧
      ∃ value, Holds deps before path value ∧ value.member "did" = some (.str key.did) ∧
        member₂ value "privateJwk" "d" ≠ none := by
  unfold readKeyFile
  refine readFile_reads.then fun contents hfile => keyText_reads.then fun bytes hbytes => ?_
  subst hbytes
  refine parseText_reads.then fun value hvalue => ?_
  obtain ⟨_, rfl, hparse⟩ : ∃ found, bytes = found ∧ deps.texts.parse found = some value := by
    obtain ⟨found, heq, hparse⟩ := hvalue
    cases heq
    exact ⟨bytes, rfl, hparse⟩
  obtain ⟨mode, hfile⟩ := hfile
  unfold usableKey
  cases hproblem : keyFileProblem deps bytes value with
  | some problem => exact refuse_reads
  | none =>
    obtain ⟨⟨did, hdid⟩, hprivate⟩ := keyFileProblem_none hproblem
    have hsame : ((value.member "did").bind Json.asString).getD "" = did := by
      rw [hdid]
      rfl
    rw [hsame]
    exact Reads.pure ⟨⟨value, hparse, hdid⟩, value, ⟨bytes, mode, hfile, hparse⟩, hdid, hprivate⟩

/-- A file that can go: it says nothing of the account. -/
def Removable (deps : Deps) (home : Path) (useKey : Option Path) : Prop :=
  ∀ path, useKey = some path → ¬ Matters home (deps.resolve path)

theorem toJson_privateJwk (account : Account) : member₂ account.toJson "privateJwk" "d" = none := by
  obtain ⟨did, roles, _ | coordination, _ | action, _ | mode, _ | verifier⟩ := account <;> rfl

theorem Shape.privateJwk {path : Path} {shape : Account → Json} (h : Shape home path shape)
    (account : Account) : member₂ (shape account) "privateJwk" "d" = none := by
  cases h <;> rfl

/-- Another key's file is none of those that matter. -/
theorem not_matters {path : Path} {key : GivenKey} {value : Json}
    (hmanaged : Managed deps.texts home before.get? account) (hholds : Holds deps before path value)
    (hdid : value.member "did" = some (.str key.did))
    (hprivate : member₂ value "privateJwk" "d" ≠ none) (hother : key.did ≠ account.did) :
    ¬ Matters home path := by
  intro hmatters
  cases hmatters with
  | account =>
    rw [hholds.eq hmanaged.accountFile account.written] at hprivate
    exact hprivate (toJson_privateJwk account)
  | key =>
    obtain ⟨bytes, mode, hfile, hparse⟩ := hholds
    obtain ⟨bytes', current, hcurrent, hparse', hsame⟩ := hmanaged.keyFile
    rw [hcurrent] at hfile
    cases hfile
    rw [hparse'] at hparse
    cases hparse
    rw [hsame] at hdid
    exact hother (Json.str.inj (Option.some.inj hdid)).symm
  | config hconfig =>
    have hthere : (before.get? path).isSome := by
      obtain ⟨bytes, mode, hfile, -⟩ := hholds
      rw [hfile]
      rfl
    obtain ⟨shape, hshape, hheld⟩ := hmanaged.config path hconfig hthere
    rw [hholds.eq hheld (hshape.written account)] at hprivate
    exact hprivate (hshape.privateJwk account)

theorem nextKey_reads {request : RotateRequest} {current : Json}
    (hmanaged : Managed deps.texts home before.get? account)
    (hcurrent : current.member "did" = some (.str account.did)) :
    Reads before (nextKey deps request current) fun next =>
      Usable deps next ∧ Removable deps home request.useKey := by
  have hdidOf : didOf current = account.did := by
    unfold didOf
    rw [hcurrent]
    rfl
  unfold nextKey
  cases request.useKey with
  | none => exact Reads.pure ⟨generated_usable request.fresh, fun path h => by cases h⟩
  | some path =>
    refine readKeyFile_reads.then fun key hkey => ?_
    obtain ⟨husable, value, hholds, hdid, hprivate⟩ := hkey
    unfold otherKey
    rw [hdidOf]
    split
    · exact refuse_reads
    · rename_i hother
      refine Reads.pure ⟨husable, fun found hfound => ?_⟩
      cases hfound
      exact not_matters hmanaged hholds hdid hprivate hother

theorem removeGiven_steady {useKey : Option Path} (h : Removable deps home useKey) :
    Triple (Steady deps.texts home) (removeGiven deps useKey) (fun _ => Steady deps.texts home)
      (Leaves deps.texts home) (Leaves deps.texts home) := by
  unfold removeGiven
  cases useKey with
  | none => exact Triple.pure fun _ hsteady => hsteady
  | some path =>
    have hnot := h path rfl
    refine Triple.attempt (fun _ hsteady => hsteady.leaves) (fun _ hsteady => hsteady.leaves) ?_
    intro disk _ disk' hsteady heq
    split at heq
    · cases heq
      refine ⟨hsteady.good.shrink (fun other hother => ?_) fun other file _ hfile => ?_, ?_⟩
      · rw [OrderedMap.get?_delete, if_neg]
        intro hsame
        rw [hsame] at hnot
        exact hnot hother
      · rw [OrderedMap.get?_delete] at hfile
        split at hfile
        · cases hfile
        · exact hfile
      · unfold Unmarked
        rw [OrderedMap.get?_delete]
        split
        · rfl
        · exact hsteady.unmarked
    · cases heq

/-- The files that a rotation writes beside the configs. -/
def rotated (deps : Deps) (home : Path) (request : RotateRequest) (current : List UInt8)
    (next : GivenKey) (updated : Account) : List FileChange :=
  [⟨retiredKey home request.timestamp, current, some 0o600⟩,
    ⟨homePaths.key home, next.text, some 0o600⟩, accountChange deps home updated]

theorem homeFile_retiredKey (home : Path) (timestamp : String) :
    HomeFile home (retiredKey home timestamp) := by
  have hlast : ("keys/signing-key.retired-" ++ timestamp ++ ".json").toList.getLast? = some 'n' :=
    getLast?_append_string _ ".json" (by decide)
  refine homeFile_join hlast fun heq => ?_
  have hfirst := congrArg (fun name : String => name.toList[0]?) heq
  simp [String.toList_append] at hfirst

theorem retiredKey_ne (timestamp : String) : retiredKey home timestamp ≠ homePaths.key home := by
  refine join_ne_of_getElem? 17 ?_
  rw [String.toList_append, String.toList_append, List.append_assoc,
    List.getElem?_append_left (by decide)]
  decide

theorem retiredKey_head (timestamp : String) :
    ("keys/signing-key.retired-" ++ timestamp ++ ".json").toList[0]? = some 'k' := by
  simp [String.toList_append]

theorem rotated_update (request : RotateRequest) (current : List UInt8) (next : GivenKey)
    (updated : Account) : Update home (rotated deps home request current next updated) where
  distinct := by
    have hretired : retiredKey home request.timestamp ≠ homePaths.account home := by
      refine join_ne_of_getElem? 0 ?_
      rw [retiredKey_head]
      decide
    have hkey : homePaths.key home ≠ homePaths.account home := join_ne_of_getElem? 0 (by decide)
    simp [rotated, accountChange, hretired, hkey, retiredKey_ne]
  files := by
    intro change hmem
    simp only [rotated, List.mem_cons, List.not_mem_nil, or_false] at hmem
    rcases hmem with rfl | rfl | rfl
    · exact homeFile_retiredKey home _
    · exact homeFile_key home
    · exact homeFile_account home
  modes := by
    intro change hmem mode hmode
    simp only [rotated, List.mem_cons, List.not_mem_nil, or_false] at hmem
    rcases hmem with rfl | rfl | rfl <;> cases hmode <;> decide

theorem rotated_not_config (request : RotateRequest) (current : List UInt8) (next : GivenKey)
    (updated : Account) :
    ∀ change ∈ rotated deps home request current next updated, ¬ IsConfig home change.path := by
  intro change hmem
  simp only [rotated, List.mem_cons, List.not_mem_nil, or_false] at hmem
  rcases hmem with rfl | rfl | rfl
  · refine not_config_of_head ?_
    rw [retiredKey_head]
    decide
  · exact not_config_of_head (by decide)
  · exact account_not_config

/-- A config that gets another DID is the config of the account with that DID. -/
theorem rewritten_agent {file : Rewritten} {did : String}
    (hfile : RewrittenFor deps home before account (updateAgent did) file) :
    ∃ shape, Shape home file.path shape ∧ file.updated = shape { account with did } := by
  obtain ⟨shape, hshape, -, hupdated⟩ := hfile.shape
  refine ⟨shape, hshape, ?_⟩
  rw [hupdated]
  generalize file.path = path at hshape
  cases hshape with
  | signer => exact updateAgent_signer did
  | bridge app _ => exact updateAgent_bridge app did

theorem runKeyRotate_steady (request : RotateRequest) (hsteady : Steady deps.texts home before) :
    Triple (fun disk => disk = before) (runKeyRotate deps home request)
      (fun _ => Steady deps.texts home) (Leaves deps.texts home) (Leaves deps.texts home) := by
  have hleaves := hsteady.leaves
  unfold runKeyRotate
  refine (requireAccount_reads hsteady.good).bind hleaves hleaves fun account hmanaged => ?_
  refine readFile_reads.bind hleaves hleaves fun contents hfile => ?_
  refine keyText_reads.bind hleaves hleaves fun current hcurrent => ?_
  subst hcurrent
  refine parseText_reads.bind hleaves hleaves fun value hvalue => ?_
  have hdid : value.member "did" = some (.str account.did) := by
    obtain ⟨mode, hfile⟩ := hfile
    obtain ⟨bytes, heq, hparse⟩ := hvalue
    obtain ⟨bytes', key, hkey, hparse', hdid⟩ := hmanaged.keyFile
    cases heq
    rw [hkey] at hfile
    cases hfile
    rw [hparse'] at hparse
    cases hparse
    exact hdid
  refine (nextKey_reads hmanaged hdid).bind hleaves hleaves fun next hnext => ?_
  obtain ⟨⟨nextValue, hnextParse, hnextDid⟩, hremovable⟩ := hnext
  refine signerPath_reads.bind hleaves hleaves fun signer hsigner => ?_
  refine listBridgeConfigs_reads.bind hleaves hleaves fun bridges hbridges => ?_
  have hpaths : ∀ path, path ∈ signer ++ bridges ↔ IsConfig home path ∧ before.has path = true := by
    intro path
    rw [List.mem_append, hsigner.1, hbridges.1, ← or_and_right]
    rfl
  refine (rewriteAll_reads hmanaged fun path hmem => (hpaths path).mp hmem).bind hleaves hleaves
    fun files hfiles => ?_
  refine assertManagedConfigs_reads.bind hleaves hleaves fun _ _ => ?_
  have hnodup : (files.map Rewritten.path).Nodup := by
    rw [hfiles.1]
    refine List.nodup_append.mpr ⟨hsigner.2, hbridges.2, ?_⟩
    rintro a ha b hb rfl
    rw [((hsigner.1 a).mp ha).1, hbridges.1, signerConfig_not_bridge] at hb
    cases hb.1
  have hwanted : ∀ file ∈ files, ∃ shape, Shape home file.path shape ∧
      file.updated = shape { account with did := next.did } :=
    fun file hmem => rewritten_agent (hfiles.2 file hmem)
  have hothers : ∀ change ∈ rotated deps home request current next { account with did := next.did },
      ¬ IsConfig home change.path :=
    rotated_not_config request current next { account with did := next.did }
  have hupdate : Update home (rotated deps home request current next
      { account with did := next.did } ++ files.map (Rewritten.change deps)) :=
    update_configs (rotated_update request current next { account with did := next.did }) hothers
      (fun file hmem => (hwanted file hmem).elim fun shape h => h.1.isConfig) hnodup
  have hkey : (⟨homePaths.key home, next.text, some 0o600⟩ : FileChange) ∈
      rotated deps home request current next { account with did := next.did } ++
        files.map (Rewritten.change deps) :=
    List.mem_append_left _ (List.mem_cons_of_mem _ List.mem_cons_self)
  have hmem : ∀ path, path ∈ files.map Rewritten.path ↔ IsConfig home path ∧ before.has path = true := by
    intro path
    rw [hfiles.1, hpaths]
  refine Triple.seq (commitChanges_steady hsteady hupdate (good_updated hsteady.good hupdate
    (managed_rewritten hmanaged hupdate hothers ?_ ?_ ?_ hwanted ?_ rfl (fun h => h) (fun h => h)
      fun h => h))) (removeGiven_steady hremovable)
  · exact List.mem_cons_of_mem _ (List.mem_cons_of_mem _ List.mem_cons_self)
  · exact ⟨next.text, nextValue, updatedFiles_of_mem hupdate hkey, hnextParse, hnextDid⟩
  · exact fun file hfile => ((hmem file.path).mp (List.mem_map_of_mem hfile)).2
  · intro path shape hshape hhas hnot
    exact absurd ((hmem path).mpr ⟨hshape.isConfig, hhas⟩) hnot

end Commands

end Mpas.Installer
