import Mpas.InstallerRewrites

/-!
# Commands that add files

`mpas init` makes an account or adds a role to it, and `mpas mcp add` adds the
bridge config of an application. What an account has already said stays.

* `gatherRoleValues_eq_ok`: the values that a role brings, and those it leaves;
* `runInit_steady`, `addProposerBridge_steady`: the two commands.
-/

namespace Mpas.Installer

open Faulty (Triple)

section Commands

variable {deps : Deps} {home : Path} {before : FileSystem} {account : Account}

/-! ## The values of a role -/

/-- A value that the account has is kept, and one that it lacks is given. -/
theorem savedOrAsked_eq_ok {flag answer saved found : Option String}
    {name label defaultUrl : String}
    (h : savedOrAsked deps flag answer name label defaultUrl saved = .ok found) :
    (found <|> saved).isSome ∧ (saved.isSome → (found <|> saved) = saved) := by
  unfold savedOrAsked at h
  split at h
  · obtain ⟨url, -, h⟩ := Checks.bind_eq_ok.mp h
    split at h
    · cases h
    · rename_i hsaved
      cases h
      refine ⟨rfl, fun hsome => ?_⟩
      exact (Decidable.not_not.mp fun hne => hsaved ⟨hsome, hne⟩).symm
  · split at h
    · rename_i hsome
      cases h
      exact ⟨hsome, fun _ => rfl⟩
    · rename_i hnone
      split at h
      · obtain ⟨url, -, heq⟩ := Checks.map_eq_ok.mp h
        rw [← heq]
        exact ⟨rfl, fun hsome => absurd hsome hnone⟩
      · cases h

/-- What the values of a role do to an account. -/
structure Brings (role : Role) (saved values : Settings) : Prop where
  coordination : role = .proposer ∨ role = .maintainer →
    (values.coordinationUrl <|> saved.coordinationUrl).isSome
  action : role = .proposer ∨ role = .verifier → (values.actionUrl <|> saved.actionUrl).isSome
  keepsCoordination : saved.coordinationUrl.isSome →
    (values.coordinationUrl <|> saved.coordinationUrl) = saved.coordinationUrl
  keepsAction : saved.actionUrl.isSome → (values.actionUrl <|> saved.actionUrl) = saved.actionUrl
  keepsVerifierDid : role ≠ .proposer → values.verifierDid = none

theorem gatherRoleValues_eq_ok {request : InitRequest} {saved values : Settings}
    (h : request.gatherRoleValues deps saved = .ok values) : Brings request.role saved values := by
  simp only [InitRequest.gatherRoleValues, Checks.bind_eq_ok] at h
  obtain ⟨coordinationUrl, hcoordination, actionUrl, haction, verifierDid, hverifier, hresult⟩ := h
  cases hresult
  unfold InitRequest.coordinationValue at hcoordination
  unfold InitRequest.actionValue at haction
  unfold InitRequest.verifierDidValue at hverifier
  refine ⟨fun hrole => ?_, fun hrole => ?_, fun hsaved => ?_, fun hsaved => ?_, fun hrole => ?_⟩
  · rw [if_pos hrole] at hcoordination
    exact (savedOrAsked_eq_ok hcoordination).1
  · rw [if_pos hrole] at haction
    exact (savedOrAsked_eq_ok haction).1
  · split at hcoordination
    · exact (savedOrAsked_eq_ok hcoordination).2 hsaved
    · cases hcoordination
      rfl
  · split at haction
    · exact (savedOrAsked_eq_ok haction).2 hsaved
    · cases haction
      rfl
  · rw [if_neg hrole] at hverifier
    cases hverifier
    rfl

/-! ## `mpas init` -/

/-- The signer config that a role brings, where there is none. -/
def newSigner (deps : Deps) (home : Path) (before : FileSystem) (role : Role) (account : Account) :
    List FileChange :=
  if role = .maintainer ∧ before.has (homePaths.signerConfig home) = false then
    [⟨homePaths.signerConfig home, deps.texts.json (signerConfig home account), none⟩]
  else []

theorem roleFiles_reads {role : Role} :
    Reads before (roleFiles deps home role account) fun files =>
      files = newSigner deps home before role account := by
  unfold roleFiles newSigner
  by_cases hrole : role = .maintainer
  · rw [if_pos hrole]
    refine fileExists_reads.then fun found hfound => ?_
    subst hfound
    cases hsigner : before.has (homePaths.signerConfig home) with
    | true => exact Reads.pure (by simp)
    | false => exact Reads.pure (by simp [hrole])
  · rw [if_neg hrole]
    exact Reads.pure (by simp [hrole])

theorem keptSignerConfig_reads {role : Role} :
    Reads before (keptSignerConfig home role) fun _ => True := by
  unfold keptSignerConfig
  split
  · exact fileExists_reads.mono fun _ _ => trivial
  · exact Reads.pure trivial

theorem adoptedKey_reads {request : InitRequest} :
    Reads before (adoptedKey deps request) (Usable deps) := by
  unfold adoptedKey
  cases request.useKey with
  | none => exact Reads.pure (generated_usable request.fresh)
  | some path => exact readKeyFile_reads.mono fun _ h => h.1

/-- Changes that are not configs, and then the signer config. -/
theorem update_signer {others : List FileChange} {role : Role} (hothers : Update home others)
    (hapart : ∀ change ∈ others, ¬ IsConfig home change.path) :
    Update home (others ++ newSigner deps home before role account) := by
  unfold newSigner
  split
  · refine ⟨?_, fun change hmem => ?_, fun change hmem mode hmode => ?_⟩
    · rw [List.map_append]
      refine List.nodup_append.mpr ⟨hothers.distinct, List.nodup_singleton _, ?_⟩
      rintro a ha b hb rfl
      obtain ⟨change, hchange, rfl⟩ := List.mem_map.mp ha
      exact hapart change hchange (Or.inl (List.mem_singleton.mp hb))
    · rcases List.mem_append.mp hmem with hother | hsigner
      · exact hothers.files change hother
      · rw [List.mem_singleton.mp hsigner]
        exact IsConfig.homeFile (Or.inl rfl)
    · rcases List.mem_append.mp hmem with hother | hsigner
      · exact hothers.modes change hother mode hmode
      · rw [List.mem_singleton.mp hsigner] at hmode
        cases hmode
  · rw [List.append_nil]
    exact hothers

/-- The home of an account that has got a role, with the configs that it had. -/
theorem managed_role {others : List FileChange} {role : Role} {updated : Account}
    (hupdate : Update home (others ++ newSigner deps home before role updated))
    (hothers : ∀ change ∈ others, ¬ IsConfig home change.path)
    (haccount : accountChange deps home updated ∈ others)
    (hkey : ∃ bytes key, updatedFiles before (others ++ newSigner deps home before role updated)
        (homePaths.key home) = some ⟨.bytes bytes, 0o600⟩ ∧
      deps.texts.parse bytes = some key ∧ key.member "did" = some (.str updated.did))
    (hconfig : ∀ path, IsConfig home path → (before.get? path).isSome → ∃ shape,
      Shape home path shape ∧ Says deps.texts before.get? path (shape updated))
    (hsigner : before.has (homePaths.signerConfig home) = true → .maintainer ∈ updated.roles)
    (hmaintainer : .maintainer ∈ updated.roles →
      role = .maintainer ∨ before.has (homePaths.signerConfig home) = true)
    (hrole : role ∈ updated.roles)
    (hbridge : ∀ path, isBridgeConfig home path = true → (before.get? path).isSome →
      .proposer ∈ updated.roles ∧ updated.verifierDid.getD "" ≠ "")
    (hcoordination : .proposer ∈ updated.roles ∨ .maintainer ∈ updated.roles →
      updated.coordinationUrl.isSome)
    (haction : .proposer ∈ updated.roles → updated.actionUrl.isSome) :
    Managed deps.texts home
      (updatedFiles before (others ++ newSigner deps home before role updated)) updated := by
  have hchange : ∀ change ∈ others ++ newSigner deps home before role updated,
      IsConfig home change.path → role = .maintainer ∧
        change = ⟨homePaths.signerConfig home, deps.texts.json (signerConfig home updated), none⟩ := by
    intro change hmem hconfig
    rcases List.mem_append.mp hmem with hother | hnew
    · exact absurd hconfig (hothers change hother)
    · unfold newSigner at hnew
      split at hnew
      · rename_i hmissing
        exact ⟨hmissing.1, List.mem_singleton.mp hnew⟩
      · exact absurd hnew List.not_mem_nil
  constructor
  · exact updatedFiles_says hupdate (List.mem_append_left _ haccount) rfl
  · exact hkey
  · refine updatedFiles_config hupdate hconfig (fun change hmem hchanged => ?_) fun _ _ _ _ _ => rfl
    obtain ⟨-, rfl⟩ := hchange change hmem hchanged
    exact ⟨signerConfig home, .signer, rfl⟩
  · rw [updatedFiles_isSome hupdate]
    constructor
    · rintro (⟨change, hmem, hpath⟩ | hbefore)
      · obtain ⟨rfl, -⟩ := hchange change hmem (Or.inl hpath)
        exact hrole
      · exact hsigner hbefore
    · intro hroles
      cases hhas : before.has (homePaths.signerConfig home) with
      | true => exact Or.inr hhas
      | false =>
        rcases hmaintainer hroles with rfl | hthere
        · refine Or.inl ⟨⟨homePaths.signerConfig home, deps.texts.json (signerConfig home updated),
            none⟩, List.mem_append_right _ ?_, rfl⟩
          unfold newSigner
          rw [if_pos ⟨rfl, hhas⟩]
          exact List.mem_singleton_self _
        · rw [hthere] at hhas
          cases hhas
  · intro path hpath hsome
    rcases (updatedFiles_isSome hupdate).mp hsome with ⟨change, hmem, rfl⟩ | hbefore
    · obtain ⟨-, rfl⟩ := hchange change hmem (Or.inr hpath)
      rw [signerConfig_not_bridge] at hpath
      cases hpath
    · exact hbridge path hpath hbefore
  · exact hcoordination
  · exact haction

theorem singleton_update (account : Account) : Update home [accountChange deps home account] where
  distinct := List.nodup_singleton _
  files := by
    intro change hmem
    rw [List.mem_singleton.mp hmem]
    exact homeFile_account home
  modes := by
    intro change hmem mode hmode
    rw [List.mem_singleton.mp hmem] at hmode
    cases hmode
    decide

/-- The files of a new account, but for the signer config. -/
def createdFiles (deps : Deps) (home : Path) (key : GivenKey) (account : Account) : List FileChange :=
  [⟨homePaths.key home, key.text, some 0o600⟩, accountChange deps home account]

theorem createdFiles_update (key : GivenKey) (account : Account) :
    Update home (createdFiles deps home key account) where
  distinct := by
    have hne : homePaths.key home ≠ homePaths.account home := join_ne_of_getElem? 0 (by decide)
    simp [createdFiles, accountChange, hne]
  files := by
    intro change hmem
    simp only [createdFiles, List.mem_cons, List.not_mem_nil, or_false] at hmem
    rcases hmem with rfl | rfl
    · exact homeFile_key home
    · exact homeFile_account home
  modes := by
    intro change hmem mode hmode
    simp only [createdFiles, List.mem_cons, List.not_mem_nil, or_false] at hmem
    rcases hmem with rfl | rfl <;> cases hmode <;> decide

theorem createdFiles_not_config (key : GivenKey) (account : Account) :
    ∀ change ∈ createdFiles deps home key account, ¬ IsConfig home change.path := by
  intro change hmem
  simp only [createdFiles, List.mem_cons, List.not_mem_nil, or_false] at hmem
  rcases hmem with rfl | rfl
  · exact not_config_of_head (by decide)
  · exact account_not_config

theorem outside_steady : Triple (Steady deps.texts home) outside (fun _ => Steady deps.texts home)
    (Leaves deps.texts home) (Leaves deps.texts home) :=
  Triple.attempt (fun _ h => h.leaves) (fun _ h => h.leaves) fun disk _ disk' h heq => by
    cases heq
    exact h

theorem createAccount_steady (request : InitRequest) (hsteady : Steady deps.texts home before)
    (hunused : Unused home before.get?) :
    Triple (fun disk => disk = before) (createAccount deps home request)
      (fun _ => Steady deps.texts home) (Leaves deps.texts home) (Leaves deps.texts home) := by
  have hleaves := hsteady.leaves
  unfold createAccount
  refine listFiles_reads.bind hleaves hleaves fun handMade _ => ?_
  refine refuseIf_reads.bind hleaves hleaves fun _ _ => ?_
  refine adoptedKey_reads.bind hleaves hleaves fun key hkey => ?_
  refine outside_reads.bind hleaves hleaves fun _ _ => ?_
  refine liftExcept_reads.bind hleaves hleaves fun values hvalues => ?_
  refine keptSignerConfig_reads.bind hleaves hleaves fun _ _ => ?_
  refine roleFiles_reads.bind hleaves hleaves fun files hfiles => ?_
  subst hfiles
  obtain ⟨value, hparse, hdid⟩ := hkey
  have hbrings := gatherRoleValues_eq_ok hvalues
  generalize hcreated : applyValues { did := key.did, roles := [request.role] } values = created
  have hcreatedDid : created.did = key.did := by rw [← hcreated]; rfl
  have hroles : created.roles = [request.role] := by rw [← hcreated]; rfl
  have hupdate : Update home (createdFiles deps home key created ++
      newSigner deps home before request.role created) :=
    update_signer (createdFiles_update key created) (createdFiles_not_config key created)
  have hnone : before.has (homePaths.signerConfig home) = false := by
    rw [OrderedMap.has, hunused.config _ (Or.inl rfl)]
    rfl
  have habsent : ∀ path, IsConfig home path → ¬ (before.get? path).isSome := by
    intro path hpath
    rw [hunused.config path hpath]
    decide
  refine Triple.seq (commitChanges_steady hsteady hupdate (good_updated hsteady.good hupdate
    (managed_role hupdate (createdFiles_not_config key created) ?_ ?_ ?_ ?_ ?_ ?_ ?_ ?_ ?_)))
    outside_steady
  · exact List.mem_cons_of_mem _ List.mem_cons_self
  · have hmem : (⟨homePaths.key home, key.text, some 0o600⟩ : FileChange) ∈
        createdFiles deps home key created ++ newSigner deps home before request.role created :=
      List.mem_append_left _ List.mem_cons_self
    exact ⟨key.text, value, updatedFiles_of_mem hupdate hmem, hparse, by rw [hcreatedDid, hdid]⟩
  · exact fun path hpath hsome => absurd hsome (habsent path hpath)
  · exact fun hhas => absurd (hnone.symm.trans hhas) (by decide)
  · intro hmem
    rw [hroles, List.mem_singleton] at hmem
    exact Or.inl hmem.symm
  · rw [hroles]
    exact List.mem_singleton_self _
  · exact fun path hpath hsome => absurd hsome (habsent path (Or.inr hpath))
  · intro hmem
    rw [hroles, List.mem_singleton, List.mem_singleton] at hmem
    rw [← hcreated]
    exact hbrings.coordination (hmem.imp Eq.symm Eq.symm)
  · intro hmem
    rw [hroles, List.mem_singleton] at hmem
    rw [← hcreated]
    exact hbrings.action (Or.inl hmem.symm)

/-- What a config has said it still says when the account gets a role. -/
theorem shape_role {path : Path} {shape : Account → Json} {role : Role} {values : Settings}
    (hmanaged : Managed deps.texts home before.get? account)
    (hrole : role ∉ account.roles) (hshape : Shape home path shape)
    (hsome : (before.get? path).isSome)
    (hbrings : Brings role ⟨account.coordinationUrl, account.actionUrl, account.verifierMode,
      account.verifierDid⟩ values) :
    shape (applyValues { account with roles := account.roles ++ [role] } values) = shape account := by
  cases hshape with
  | signer =>
    have hurl := hmanaged.coordination (Or.inr (hmanaged.signer.mp hsome))
    have hsame := hbrings.keepsCoordination hurl
    simp only [signerConfig, applyValues]
    rw [hsame]
  | bridge app hpath =>
    obtain ⟨hproposer, -⟩ := hmanaged.bridge _ hpath hsome
    have hurl := hbrings.keepsCoordination (hmanaged.coordination (Or.inl hproposer))
    have haction := hbrings.keepsAction (hmanaged.action hproposer)
    have hverifier : values.verifierDid = none := by
      refine hbrings.keepsVerifierDid ?_
      rintro rfl
      exact hrole hproposer
    simp only [bridgeConfig, applyValues]
    rw [hurl, haction, hverifier]
    rfl

theorem addRole_steady (request : InitRequest) (hsteady : Steady deps.texts home before)
    (hmanaged : Managed deps.texts home before.get? account)
    (hrole : request.role ∉ account.roles) :
    Triple (fun disk => disk = before) (addRole deps home request account)
      (fun _ => Steady deps.texts home) (Leaves deps.texts home) (Leaves deps.texts home) := by
  have hleaves := hsteady.leaves
  unfold addRole
  refine refuseIf_reads.bind hleaves hleaves fun _ _ => ?_
  refine refuseIf_reads.bind hleaves hleaves fun _ _ => ?_
  refine outside_reads.bind hleaves hleaves fun _ _ => ?_
  refine liftExcept_reads.bind hleaves hleaves fun values hvalues => ?_
  refine keptSignerConfig_reads.bind hleaves hleaves fun _ _ => ?_
  refine roleFiles_reads.bind hleaves hleaves fun files hfiles => ?_
  subst hfiles
  have hbrings := gatherRoleValues_eq_ok hvalues
  have hshapes := fun path shape (hshape : Shape home path shape) hsome =>
    shape_role hmanaged hrole hshape hsome hbrings
  generalize hgot : applyValues { account with roles := account.roles ++ [request.role] } values =
    updated at hshapes
  have hdid : updated.did = account.did := by rw [← hgot]; rfl
  have hroles : ∀ role, role ∈ updated.roles ↔ role ∈ account.roles ∨ role = request.role := by
    intro role
    rw [← hgot]
    simp [applyValues]
  have hothers : ∀ change ∈ [accountChange deps home updated], ¬ IsConfig home change.path := by
    intro change hmem
    rw [List.mem_singleton.mp hmem]
    exact account_not_config
  have hupdate : Update home ([accountChange deps home updated] ++
      newSigner deps home before request.role updated) :=
    update_signer (singleton_update updated) hothers
  have hconfig : ∀ path, IsConfig home path → (before.get? path).isSome → ∃ shape,
      Shape home path shape ∧ Says deps.texts before.get? path (shape updated) := by
    intro path hpath hsome
    obtain ⟨shape, hshape, hheld⟩ := hmanaged.config path hpath hsome
    exact ⟨shape, hshape, by rw [hshapes path shape hshape hsome]; exact hheld⟩
  refine Triple.seq (commitChanges_steady hsteady hupdate (good_updated hsteady.good hupdate
    (managed_role hupdate hothers (List.mem_singleton_self _) ?_ hconfig ?_ ?_ ?_ ?_ ?_ ?_)))
    outside_steady
  · rw [updatedFiles_of_ne, hdid]
    · exact hmanaged.keyFile
    · intro change hmem
      rcases List.mem_append.mp hmem with haccount | hsigner
      · rw [List.mem_singleton.mp haccount]
        exact join_ne_of_getElem? 0 (by decide)
      · unfold newSigner at hsigner
        split at hsigner
        · rw [List.mem_singleton.mp hsigner]
          exact join_ne_of_getElem? 0 (by decide)
        · exact absurd hsigner List.not_mem_nil
  · exact fun hhas => (hroles _).mpr (Or.inl (hmanaged.signer.mp hhas))
  · intro hmem
    rcases (hroles _).mp hmem with hold | hnew
    · exact Or.inr (hmanaged.signer.mpr hold)
    · exact Or.inl hnew.symm
  · exact (hroles _).mpr (Or.inr rfl)
  · intro path hpath hsome
    obtain ⟨hproposer, hverifier⟩ := hmanaged.bridge path hpath hsome
    refine ⟨(hroles _).mpr (Or.inl hproposer), ?_⟩
    have hnone : values.verifierDid = none := by
      refine hbrings.keepsVerifierDid ?_
      intro heq
      rw [heq] at hrole
      exact hrole hproposer
    rw [← hgot, applyValues, hnone]
    exact hverifier
  · intro hmem
    by_cases hold : .proposer ∈ account.roles ∨ .maintainer ∈ account.roles
    · have hsaved := hmanaged.coordination hold
      rw [← hgot]
      show (values.coordinationUrl <|> account.coordinationUrl).isSome = true
      have hkeeps := hbrings.keepsCoordination hsaved
      rw [show (values.coordinationUrl <|> account.coordinationUrl) = account.coordinationUrl
        from hkeeps]
      exact hsaved
    · rw [← hgot]
      refine hbrings.coordination ?_
      rcases hmem with hproposer | hmaintainer
      · rcases (hroles _).mp hproposer with h | h
        · exact absurd (Or.inl h) hold
        · exact Or.inl h.symm
      · rcases (hroles _).mp hmaintainer with h | h
        · exact absurd (Or.inr h) hold
        · exact Or.inr h.symm
  · intro hmem
    rw [← hgot]
    rcases (hroles _).mp hmem with hold | hnew
    · have hsaved := hmanaged.action hold
      show (values.actionUrl <|> account.actionUrl).isSome = true
      have hkeeps := hbrings.keepsAction hsaved
      rw [show (values.actionUrl <|> account.actionUrl) = account.actionUrl from hkeeps]
      exact hsaved
    · exact hbrings.action (Or.inl hnew.symm)

theorem runInit_steady (request : InitRequest) (hsteady : Steady deps.texts home before) :
    Triple (fun disk => disk = before) (runInit deps home request)
      (fun _ => Steady deps.texts home) (Leaves deps.texts home) (Leaves deps.texts home) := by
  have hleaves := hsteady.leaves
  have hstays : ∀ disk, disk = before → Steady deps.texts home disk := by
    rintro disk rfl
    exact hsteady
  have hrefuse : ∀ {condition : Bool} {text : String},
      Triple (fun disk => disk = before) (refuseIf condition text)
        (fun _ => Steady deps.texts home) (Leaves deps.texts home) (Leaves deps.texts home) :=
    fun {condition} {text} => refuseIf_reads.weaken (fun _ h => h) (fun _ _ h => hstays _ h.2)
      (fun _ h => (hstays _ h).leaves) fun _ h => (hstays _ h).leaves
  unfold runInit
  split
  · exact Triple.throw fun _ h => (hstays _ h).leaves
  refine refuseIf_reads.bind hleaves hleaves fun _ _ => ?_
  refine (readAccount_reads hsteady.good).bind hleaves hleaves fun found hfound => ?_
  rcases hfound with ⟨rfl, hunused⟩ | ⟨account, rfl, hmanaged⟩
  · exact createAccount_steady request hsteady hunused
  · unfold initAccount
    dsimp only
    split
    · exact hrefuse
    · rename_i hrole
      refine addRole_steady request hsteady hmanaged ?_
      simpa using hrole

/-! ## `mpas mcp add` -/

theorem mem_splitOn {a c : Char} (hne : c ≠ a) (text : List Char) (h : c ∈ text) :
    ∃ part ∈ text.splitOn a, c ∈ part := by
  induction text with
  | nil => cases h
  | cons first rest ih =>
    rw [List.splitOn_cons_eq_if_modifyHead]
    by_cases hfirst : first = a
    · rw [if_pos (by simpa using hfirst)]
      have hrest : c ∈ rest := by
        rcases List.mem_cons.mp h with rfl | hrest
        · exact absurd hfirst hne
        · exact hrest
      obtain ⟨part, hpart, hmem⟩ := ih hrest
      exact ⟨part, List.mem_cons_of_mem _ hpart, hmem⟩
    · rw [if_neg (by simpa using hfirst)]
      cases hparts : rest.splitOn a with
      | nil => exact absurd hparts (List.splitOn_ne_nil a rest)
      | cons head tail =>
        rw [hparts] at ih
        rcases List.mem_cons.mp h with rfl | hrest
        · exact ⟨c :: head, List.mem_cons_self, List.mem_cons_self⟩
        · obtain ⟨part, hpart, hmem⟩ := ih hrest
          rcases List.mem_cons.mp hpart with rfl | htail
          · exact ⟨first :: part, List.mem_cons_self, List.mem_cons_of_mem _ hmem⟩
          · exact ⟨part, List.mem_cons_of_mem _ htail, hmem⟩

theorem checkApplicationName_slash {name : String} (h : checkApplicationName name = true) :
    '/' ∉ name.toList := by
  intro hslash
  obtain ⟨part, hpart, hmem⟩ := mem_splitOn (a := '-') (by decide) name.toList hslash
  have hall := List.all_eq_true.mp h part hpart
  simp only [Bool.and_eq_true, List.all_eq_true] at hall
  exact absurd (hall.2 _ hmem) (by decide)

/-- The files of a new bridge. -/
def bridgeFiles (deps : Deps) (home : Path) (request : AddRequest) (account : Account) :
    List FileChange :=
  [⟨(bridgeApplication home request).plugin, request.pluginBytes, none⟩,
    ⟨homePaths.installed home request.name, deps.texts.json (installRecord request), none⟩,
    ⟨homePaths.bridgeConfig home request.name,
      deps.texts.json (bridgeConfig home (bridgeApplication home request) account), none⟩]

theorem plugin_head (app artifact : String) :
    ("plugins/" ++ app ++ "-plugin-" ++ artifact ++ ".json").toList[0]? = some 'p' := by
  simp [String.toList_append]

theorem installed_head (app : String) : ("installed/" ++ app ++ ".json").toList[0]? = some 'i' := by
  simp [String.toList_append]

theorem homeFile_of_head {name : String} {c : Char} (hlast : name.toList.getLast? = some 'n')
    (hhead : name.toList[0]? = some c) (hc : c ≠ 'u') : HomeFile home (join home name) := by
  refine homeFile_join hlast fun heq => ?_
  rw [heq] at hhead
  exact hc (Option.some.inj hhead).symm

theorem bridgeFiles_update {request : AddRequest}
    (hname : checkApplicationName request.name = true) :
    Update home (bridgeFiles deps home request account) where
  distinct := by
    have hplugin : (bridgeApplication home request).plugin ≠
        homePaths.installed home request.name := by
      refine join_ne_of_getElem? 0 ?_
      rw [plugin_head, installed_head]
      decide
    have hbridge : IsConfig home (homePaths.bridgeConfig home request.name) :=
      Or.inr (isBridgeConfig_bridge (checkApplicationName_slash hname))
    have hplugin' : (bridgeApplication home request).plugin ≠
        homePaths.bridgeConfig home request.name := by
      intro heq
      refine absurd hbridge ?_
      rw [← heq]
      refine not_config_of_head ?_
      rw [plugin_head]
      decide
    have hinstalled : homePaths.installed home request.name ≠
        homePaths.bridgeConfig home request.name := by
      intro heq
      refine absurd hbridge ?_
      rw [← heq]
      refine not_config_of_head ?_
      rw [installed_head]
      decide
    simp [bridgeFiles, hplugin, hplugin', hinstalled]
  files := by
    intro change hmem
    simp only [bridgeFiles, List.mem_cons, List.not_mem_nil, or_false] at hmem
    rcases hmem with rfl | rfl | rfl
    · exact homeFile_of_head (getLast?_append_string _ ".json" (by decide)) (plugin_head _ _) (by decide)
    · exact homeFile_of_head (getLast?_append_string _ ".json" (by decide)) (installed_head _) (by decide)
    · exact homeFile_bridge (isBridgeConfig_bridge (checkApplicationName_slash hname))
  modes := by
    intro change hmem mode hmode
    simp only [bridgeFiles, List.mem_cons, List.not_mem_nil, or_false] at hmem
    rcases hmem with rfl | rfl | rfl <;> cases hmode

/-- The change of a config among them is that of the bridge config. -/
theorem bridgeFiles_config {request : AddRequest} {change : FileChange}
    (hmem : change ∈ bridgeFiles deps home request account) (hconfig : IsConfig home change.path) :
    change = ⟨homePaths.bridgeConfig home request.name,
      deps.texts.json (bridgeConfig home (bridgeApplication home request) account), none⟩ := by
  simp only [bridgeFiles, List.mem_cons, List.not_mem_nil, or_false] at hmem
  rcases hmem with rfl | rfl | rfl
  · refine absurd hconfig (not_config_of_head ?_)
    rw [plugin_head]
    decide
  · refine absurd hconfig (not_config_of_head ?_)
    rw [installed_head]
    decide
  · rfl

theorem bridgeFiles_ne {request : AddRequest} {name : String}
    (hhead : name.toList[0]? = some 'a' ∨ name.toList[0]? = some 'k') :
    ∀ change ∈ bridgeFiles deps home request account, change.path ≠ join home name := by
  intro change hmem
  simp only [bridgeFiles, List.mem_cons, List.not_mem_nil, or_false] at hmem
  rcases hmem with rfl | rfl | rfl
  · refine join_ne_of_getElem? 0 ?_
    rw [plugin_head]
    rcases hhead with h | h <;> rw [h] <;> decide
  · refine join_ne_of_getElem? 0 ?_
    rw [installed_head]
    rcases hhead with h | h <;> rw [h] <;> decide
  · refine join_ne_of_getElem? 0 ?_
    rw [show ("mcp-server-configs/" ++ request.name ++ "-mcp-bridge-config.json").toList[0]? = some 'm'
      by simp [String.toList_append]]
    rcases hhead with h | h <;> rw [h] <;> decide

theorem managed_bridge {request : AddRequest} (hmanaged : Managed deps.texts home before.get? account)
    (hname : checkApplicationName request.name = true) (hproposer : .proposer ∈ account.roles)
    (hverifier : account.verifierDid.getD "" ≠ "") :
    Managed deps.texts home (updatedFiles before (bridgeFiles deps home request account))
      account := by
  have hupdate : Update home (bridgeFiles deps home request account) := bridgeFiles_update hname
  have hbridge : isBridgeConfig home (homePaths.bridgeConfig home request.name) = true :=
    isBridgeConfig_bridge (checkApplicationName_slash hname)
  have haccount : updatedFiles before (bridgeFiles deps home request account)
      (homePaths.account home) = before.get? (homePaths.account home) :=
    updatedFiles_of_ne (bridgeFiles_ne (Or.inl (by decide)))
  have hkey : updatedFiles before (bridgeFiles deps home request account)
      (homePaths.key home) = before.get? (homePaths.key home) :=
    updatedFiles_of_ne (bridgeFiles_ne (Or.inr (by decide)))
  constructor
  · unfold Says
    rw [haccount]
    exact hmanaged.accountFile
  · rw [hkey]
    exact hmanaged.keyFile
  · refine updatedFiles_config hupdate hmanaged.config (fun change hmem hconfig => ?_)
      fun _ _ _ _ _ => rfl
    rw [bridgeFiles_config hmem hconfig]
    exact ⟨_, .bridge (bridgeApplication home request) hbridge, rfl⟩
  · rw [updatedFiles_isSome hupdate, ← hmanaged.signer]
    refine ⟨fun h => h.resolve_left ?_, Or.inr⟩
    rintro ⟨change, hmem, hpath⟩
    rw [bridgeFiles_config hmem (Or.inl hpath)] at hpath
    rw [show homePaths.bridgeConfig home request.name = homePaths.signerConfig home from hpath,
      signerConfig_not_bridge] at hbridge
    cases hbridge
  · exact fun path hpath hsome => ⟨hproposer, hverifier⟩
  · exact hmanaged.coordination
  · exact hmanaged.action

theorem checkNameFree_reads {request : AddRequest} :
    Reads before (checkNameFree deps home request) fun _ => True := by
  have hrecord : Reads before (readRecord deps home request.name) fun _ => True := by
    unfold readRecord
    refine fileExists_reads.then fun found _ => ?_
    split
    · exact readJsonFile_reads.then fun _ _ => Reads.pure trivial
    · exact Reads.pure trivial
  unfold checkNameFree
  refine hrecord.then fun record _ => fileExists_reads.then fun bridge _ => ?_
  refine fileExists_reads.then fun draft _ => fileExists_reads.then fun live _ => ?_
  exact refuseIf_reads.mono fun _ _ => trivial

theorem addProposerBridge_steady (request : AddRequest) (hsteady : Steady deps.texts home before) :
    Triple (fun disk => disk = before) (addProposerBridge deps home request)
      (fun _ => Steady deps.texts home) (Leaves deps.texts home) (Leaves deps.texts home) := by
  have hleaves := hsteady.leaves
  unfold addProposerBridge
  refine (requireAccount_reads hsteady.good).bind hleaves hleaves fun account hmanaged => ?_
  refine refuseIf_reads.bind hleaves hleaves fun _ hproposer => ?_
  refine refuseIf_reads.bind hleaves hleaves fun _ hverifier => ?_
  refine outside_reads.bind hleaves hleaves fun _ _ => ?_
  refine refuseIf_reads.bind hleaves hleaves fun _ hname => ?_
  refine checkNameFree_reads.bind hleaves hleaves fun _ _ => ?_
  refine outside_reads.bind hleaves hleaves fun _ _ => ?_
  have hname : checkApplicationName request.name = true := by simpa using hname
  have hupdate : Update home (bridgeFiles deps home request account) := bridgeFiles_update hname
  have hafter := managed_bridge hmanaged hname (by simpa using hproposer)
    (of_decide_eq_false hverifier)
  have hlast : Triple (Steady deps.texts home)
      (do refuseIf (!request.published) ("The bridge package " ++ request.packageName ++ "@" ++
            request.version ++ " is not published on npm. The plugin and bridge config were saved, " ++
            "but " ++ request.name ++ "-mpas was not registered.")
          outside)
      (fun _ => Steady deps.texts home) (Leaves deps.texts home) (Leaves deps.texts home) := by
    refine Triple.seq (R := Steady deps.texts home) ?_ outside_steady
    unfold refuseIf
    split
    · exact Triple.throw fun _ h => h.leaves
    · exact Triple.pure fun _ h => h
  exact Triple.seq (commitChanges_steady hsteady hupdate (good_updated hsteady.good hupdate hafter))
    hlast

end Commands

end Mpas.Installer
