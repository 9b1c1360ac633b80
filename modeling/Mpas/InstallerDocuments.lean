import Mpas.InstallerAtomicity
import Mpas.InstallerCommands

/-!
# Documents and paths of an MPAS home

What an account is written as is read back as the account, and the commands turn
each config of an account into the config of the updated account.

* `Account.ofJson_toJson`: the account is read back;
* `updateAgent_signer`, `updateSigner_signer`, `updateBridge_bridge`: the updates;
* `HomeFile`, `isBridgeConfig_iff`: paths of the home.
-/

namespace Mpas.Installer

/-! ## Paths of the home -/

section Paths

variable {home path : Path} {name other : String}

theorem join_toList (home : Path) (name : String) :
    (join home name).toList = home.toList ++ '/' :: name.toList := by
  simp [join, String.toList_append]

theorem join_injective (h : join home name = join home other) : name = other := by
  have hlist := congrArg String.toList h
  rw [join_toList, join_toList] at hlist
  exact String.toList_injective (List.cons.inj (List.append_cancel_left hlist)).2

theorem updateMarker_eq (home : Path) : updateMarker home = join home "update-in-progress.json" := by
  apply String.toList_injective
  rw [join_toList]
  simp [updateMarker, String.toList_append]

theorem getLast?_join (h : name.toList ≠ []) :
    (join home name).toList.getLast? = name.toList.getLast? :=
  getLast?_append_string (home ++ "/") name h

theorem endsWith_last {ending : String} (h : endsWith ending path = true)
    (hending : ending.toList ≠ []) : path.toList.getLast? = ending.toList.getLast? := by
  unfold endsWith at h
  rw [List.isSuffixOf_iff_suffix] at h
  obtain ⟨start, hstart⟩ := h
  rw [← hstart, List.getLast?_append]
  cases hlast : ending.toList.getLast? with
  | none => exact absurd (List.getLast?_eq_none_iff.mp hlast) hending
  | some c => rfl

/-- A file of the home, below it and beside no file of an update. -/
structure HomeFile (home path : Path) : Prop where
  below : ∃ name, path = join home name
  ordinary : Ordinary home path

theorem homeFile_join (hlast : name.toList.getLast? = some 'n')
    (hne : name ≠ "update-in-progress.json") : HomeFile home (join home name) := by
  have hnonempty : name.toList ≠ [] := by
    intro hnil
    rw [hnil] at hlast
    cases hlast
  have hend : (join home name).toList.getLast? = some 'n' := by rw [getLast?_join hnonempty, hlast]
  refine ⟨⟨name, rfl⟩, ?_, ?_, ?_, ?_⟩
  · rw [updateMarker_eq]
    exact fun heq => hne (join_injective heq)
  · exact ne_of_last hend (markerTemp_last home) (by decide)
  · cases hnew : endsWith ".mpas-new" (join home name) with
    | false => rfl
    | true =>
      have hw := endsWith_last hnew (by decide)
      rw [hend] at hw
      exact absurd hw (by decide)
  · cases hold : endsWith ".mpas-old" (join home name) with
    | false => rfl
    | true =>
      have hd := endsWith_last hold (by decide)
      rw [hend] at hd
      exact absurd hd (by decide)

/-- Two files are apart whose names differ somewhere. -/
theorem join_ne_of_getElem? (i : Nat) (h : name.toList[i]? ≠ other.toList[i]?) :
    join home name ≠ join home other := by
  intro heq
  exact h (by rw [join_injective heq])

theorem below?_eq_some {directory : Path} {rest : List Char} (h : below? directory path = some rest) :
    path.toList = directory.toList ++ '/' :: rest := by
  unfold below? at h
  split at h
  · rename_i hstart
    cases h
    rw [ List.isPrefixOf_iff_prefix] at hstart
    obtain ⟨tail, htail⟩ := hstart
    rw [← htail, List.drop_left]
    simp [String.toList_append]
  · cases h

theorem isBridgeConfig_iff : isBridgeConfig home path = true ↔
    ∃ rest : String, path = join home ("mcp-server-configs/" ++ rest) ∧ '/' ∉ rest.toList ∧
      endsWith "-mcp-bridge-config.json" path = true := by
  unfold isBridgeConfig isFileIn
  constructor
  · intro h
    split at h
    · rename_i rest hrest
      have hpath := below?_eq_some hrest
      simp only [Bool.and_eq_true, Bool.not_eq_true', List.contains_eq_mem, decide_eq_false_iff_not] at h
      refine ⟨String.ofList rest, ?_, by simpa using h.1, h.2⟩
      apply String.toList_injective
      rw [hpath, homePaths.mcpConfigs, join_toList, join_toList]
      simp [String.toList_append]
    · cases h
  · rintro ⟨rest, rfl, hslash, hends⟩
    have hbelow : below? (homePaths.mcpConfigs home) (join home ("mcp-server-configs/" ++ rest)) =
        some rest.toList := by
      have hsplit : (join home ("mcp-server-configs/" ++ rest)).toList =
          (homePaths.mcpConfigs home ++ "/").toList ++ rest.toList := by
        rw [homePaths.mcpConfigs, join_toList, String.toList_append, String.toList_append, join_toList]
        simp
      unfold below?
      rw [hsplit, if_pos ( List.isPrefixOf_iff_prefix.mpr (List.prefix_append _ _)), List.drop_left]
    rw [hbelow]
    simp [hslash, hends]

theorem isBridgeConfig_bridge {app : String} (h : '/' ∉ app.toList) :
    isBridgeConfig home (homePaths.bridgeConfig home app) = true := by
  rw [isBridgeConfig_iff]
  refine ⟨app ++ "-mcp-bridge-config.json", ?_, ?_, ?_⟩
  · unfold homePaths.bridgeConfig
    rw [String.append_assoc]
  · rw [String.toList_append, List.mem_append]
    rintro (happ | hending)
    · exact h happ
    · revert hending
      decide
  · unfold homePaths.bridgeConfig join
    rw [← String.append_assoc]
    exact endsWith_append _ _

theorem homeFile_bridge (h : isBridgeConfig home path = true) : HomeFile home path := by
  obtain ⟨rest, rfl, -, hends⟩ := isBridgeConfig_iff.mp h
  have hlast := endsWith_last hends (by decide)
  have hnonempty : ("mcp-server-configs/" ++ rest).toList ≠ [] := by
    rw [String.toList_append]
    exact fun hnil => absurd (List.append_eq_nil_iff.mp hnil).1 (by decide)
  rw [getLast?_join hnonempty] at hlast
  refine homeFile_join (hlast.trans (by decide)) ?_
  intro heq
  have hfirst := congrArg (fun name : String => name.toList[0]?) heq
  simp [String.toList_append] at hfirst

/-- The paths that no bridge config has. -/
theorem not_bridge_of_head (h : name.toList[0]? ≠ some 'm') :
    isBridgeConfig home (join home name) = false := by
  cases hbridge : isBridgeConfig home (join home name) with
  | false => rfl
  | true =>
    obtain ⟨rest, heq, -, -⟩ := isBridgeConfig_iff.mp hbridge
    rw [join_injective heq] at h
    exact absurd (by simp [String.toList_append]) h

theorem signerConfig_not_bridge (home : Path) :
    isBridgeConfig home (homePaths.signerConfig home) = false := by
  cases hbridge : isBridgeConfig home (homePaths.signerConfig home) with
  | false => rfl
  | true =>
    obtain ⟨rest, -, -, hends⟩ := isBridgeConfig_iff.mp hbridge
    unfold endsWith at hends
    rw [List.isSuffixOf_iff_suffix, homePaths.signerConfig, join_toList] at hends
    have hsuffix : "-mcp-bridge-config.json".toList <:+
        "mcp-server-configs/maintainer-signer-config.json".toList :=
      List.suffix_of_suffix_length_le hends
        ⟨home.toList ++ ['/'], by simp⟩ (by decide)
    exact absurd hsuffix (by decide)

end Paths

/-! ## Documents -/

section Documents

variable {home : Path} {account updated : Account}

theorem Role.ofJson_text (role : Role) : Role.ofJson (.str role.text) = some role := by
  cases role <;> rfl

theorem rolesOf_toJson (account : Account) : rolesOf account.toJson = some account.roles := by
  have hroles : ∀ roles : List Role,
      (roles.map fun role => Json.str role.text).mapM Role.ofJson = some roles := by
    intro roles
    induction roles with
    | nil => rfl
    | cons role rest ih =>
      rw [List.map_cons, List.mapM_cons, Role.ofJson_text, ih]
      rfl
  exact hroles account.roles

/-- What an account is written as is read back as the account. -/
theorem Account.ofJson_toJson (account : Account) : Account.ofJson account.toJson = some account := by
  have hdid : (account.toJson.member "did").bind Json.asString = some account.did := rfl
  have hcoordination : optionalMember account.toJson "coordinationUrl" =
      some account.coordinationUrl := by
    obtain ⟨did, roles, _ | coordination, _ | action, _ | mode, _ | verifier⟩ := account <;> rfl
  have haction : optionalMember account.toJson "actionUrl" = some account.actionUrl := by
    obtain ⟨did, roles, _ | coordination, _ | action, _ | mode, _ | verifier⟩ := account <;> rfl
  have hmode : modeOf account.toJson = some account.verifierMode := by
    obtain ⟨did, roles, _ | coordination, _ | action, _ | mode, _ | verifier⟩ := account <;>
      first | rfl | (cases mode <;> rfl)
  have hverifier : optionalMember account.toJson "verifierDid" = some account.verifierDid := by
    obtain ⟨did, roles, _ | coordination, _ | action, _ | mode, _ | verifier⟩ := account <;> rfl
  unfold Account.ofJson
  rw [hdid, rolesOf_toJson, hcoordination, haction, hmode, hverifier]
  rfl

theorem rolesWritten (roles : List Role) :
    itemsWritten (roles.map fun role => Json.str role.text) = true := by
  induction roles with
  | nil => rfl
  | cons role rest ih =>
    rw [List.map_cons, itemsWritten, ih]
    rfl

theorem Account.written (account : Account) : isWritten account.toJson = true := by
  have hroles := rolesWritten account.roles
  obtain ⟨did, roles, _ | coordination, _ | action, _ | mode, _ | verifier⟩ := account <;>
    simp_all [Account.toJson, defined, isWritten, membersWritten, isArrayIndex]

theorem signerConfig_written (home : Path) (account : Account) :
    isWritten (signerConfig home account) = true := by
  cases hurl : account.coordinationUrl <;>
    simp [signerConfig, defined, isWritten, membersWritten, isArrayIndex, hurl]

theorem bridgeConfig_written (home : Path) (app : Application) (account : Account) :
    isWritten (bridgeConfig home app account) = true := by
  cases hurl : account.coordinationUrl <;> cases haction : account.actionUrl <;>
    cases hdid : account.verifierDid <;>
    simp [bridgeConfig, defined, isWritten, membersWritten, isArrayIndex, hurl, haction, hdid]

theorem KeyFile.json_written (key : KeyFile) : isWritten key.toJson = true := by
  obtain ⟨hprivate, hpublic⟩ := key.written
  simp [KeyFile.toJson, isWritten, membersWritten, isArrayIndex, hprivate, hpublic]

theorem updateAgent_signer (did : String) :
    updateAgent did (signerConfig home account) = signerConfig home { account with did } := rfl

theorem updateAgent_bridge (app : Application) (did : String) :
    updateAgent did (bridgeConfig home app account) = bridgeConfig home app { account with did } := rfl

theorem updateSigner_signer (hurl : account.coordinationUrl.isSome) (hdid : updated.did = account.did)
    (hupdated : updated.coordinationUrl.isSome) :
    updateSigner updated (signerConfig home account) = signerConfig home updated := by
  obtain ⟨url, hurl⟩ := Option.isSome_iff_exists.mp hurl
  obtain ⟨url', hupdated⟩ := Option.isSome_iff_exists.mp hupdated
  simp only [updateSigner, signerConfig, hurl, hupdated, hdid]
  rfl

theorem Settings.contains_changed (changes : Settings) (account : Account) (key : Setting) :
    (changes.changed account).contains key = changes.isChange account key := by
  unfold Settings.changed
  rw [List.contains_eq_mem]
  cases key <;> simp [List.mem_filter]

theorem Settings.apply_eq (changes : Settings) (account : Account) :
    changes.apply account =
      { account with
        coordinationUrl := if changes.isChange account .coordinationUrl then
          changes.coordinationUrl else account.coordinationUrl
        actionUrl := if changes.isChange account .actionUrl then
          changes.actionUrl else account.actionUrl
        verifierMode := if changes.isChange account .verifierMode then
          changes.verifierMode else account.verifierMode
        verifierDid := if changes.isChange account .verifierDid then
          changes.verifierDid else account.verifierDid } := by
  unfold Settings.apply Settings.changed
  cases h₁ : changes.isChange account .coordinationUrl <;>
    cases h₂ : changes.isChange account .actionUrl <;>
    cases h₃ : changes.isChange account .verifierMode <;>
    cases h₄ : changes.isChange account .verifierDid <;>
    simp [List.filter, h₁, h₂, h₃, h₄, Settings.assignTo]

/-- A value that changes is given. -/
theorem Settings.isSome_of_change (changes : Settings) (account : Account) :
    (changes.isChange account .coordinationUrl = true → changes.coordinationUrl.isSome) ∧
      (changes.isChange account .actionUrl = true → changes.actionUrl.isSome) ∧
      (changes.isChange account .verifierDid = true → changes.verifierDid.isSome) := by
  simp only [Settings.isChange, Bool.and_eq_true]
  exact ⟨fun h => h.1, fun h => h.1, fun h => h.1⟩

theorem assignIn_coordination (account : Account) {value : Option String} {changes : Bool}
    (app : Application) (hvalue : changes = true → value.isSome)
    (hurl : account.coordinationUrl.isSome) :
    (if changes then assignIn (bridgeConfig home app account) "coordination" "url" value
      else bridgeConfig home app account) =
      bridgeConfig home app
        { account with coordinationUrl := if changes then value else account.coordinationUrl } := by
  cases changes with
  | false => rfl
  | true =>
    obtain ⟨url, hurl⟩ := Option.isSome_iff_exists.mp hurl
    obtain ⟨new, rfl⟩ := Option.isSome_iff_exists.mp (hvalue rfl)
    simp only [↓reduceIte, bridgeConfig, hurl]
    rfl

theorem assignIn_action (account : Account) {value : Option String} {changes : Bool}
    (app : Application) (hvalue : changes = true → value.isSome)
    (haction : account.actionUrl.isSome) :
    (if changes then assignIn (bridgeConfig home app account) "actionEndpoint" "url" value
      else bridgeConfig home app account) =
      bridgeConfig home app
        { account with actionUrl := if changes then value else account.actionUrl } := by
  cases changes with
  | false => rfl
  | true =>
    obtain ⟨url, haction⟩ := Option.isSome_iff_exists.mp haction
    obtain ⟨new, rfl⟩ := Option.isSome_iff_exists.mp (hvalue rfl)
    simp only [↓reduceIte, bridgeConfig, haction]
    rfl

theorem assignIn_verifierDid (account : Account) {value : Option String} {changes : Bool}
    (app : Application) (hvalue : changes = true → value.isSome)
    (haction : account.actionUrl.isSome) (hdid : account.verifierDid.isSome) :
    (if changes then assignIn (bridgeConfig home app account) "actionEndpoint" "verifierDid" value
      else bridgeConfig home app account) =
      bridgeConfig home app
        { account with verifierDid := if changes then value else account.verifierDid } := by
  cases changes with
  | false => rfl
  | true =>
    obtain ⟨url, haction⟩ := Option.isSome_iff_exists.mp haction
    obtain ⟨did, hdid⟩ := Option.isSome_iff_exists.mp hdid
    obtain ⟨new, rfl⟩ := Option.isSome_iff_exists.mp (hvalue rfl)
    simp only [↓reduceIte, bridgeConfig, haction, hdid]
    rfl

/-- A bridge config follows the settings, whichever of them change. -/
theorem updateBridge_bridge (app : Application) (changes : Settings)
    (hurl : account.coordinationUrl.isSome) (haction : account.actionUrl.isSome)
    (hdid : account.verifierDid.isSome) :
    updateBridge (changes.changed account) (changes.apply account)
      (bridgeConfig home app account) = bridgeConfig home app (changes.apply account) := by
  obtain ⟨hurlNew, hactionNew, hdidNew⟩ := changes.isSome_of_change account
  have hnew : ∀ (change : Bool) (new old : Option String), (change = true → new.isSome) →
      change = true → (if change then new else old).isSome := by
    intro change new old hnew hchange
    rw [if_pos hchange]
    exact hnew hchange
  unfold updateBridge
  simp only [Settings.contains_changed]
  rw [Settings.apply_eq, assignIn_coordination, assignIn_action, assignIn_verifierDid]
  · cases changes.isChange account .coordinationUrl <;> cases changes.isChange account .actionUrl <;>
      cases changes.isChange account .verifierDid <;> rfl
  · exact hnew _ _ _ hdidNew
  · cases hchange : changes.isChange account .actionUrl with
    | false => simpa [hchange] using haction
    | true => simpa [hchange] using hactionNew hchange
  · exact hdid
  · exact hnew _ _ _ hactionNew
  · exact haction
  · exact hnew _ _ _ hurlNew
  · exact hurl

/-- A bridge config says nothing of the mode. -/
theorem bridgeConfig_unchanged (app : Application) (changes : Settings)
    (h : ∀ key ∈ [Setting.coordinationUrl, .actionUrl, .verifierDid],
      changes.isChange account key = false) :
    bridgeConfig home app (changes.apply account) = bridgeConfig home app account := by
  have hurl := h .coordinationUrl (by decide)
  have haction := h .actionUrl (by decide)
  have hdid := h .verifierDid (by decide)
  rw [Settings.apply_eq]
  simp [bridgeConfig, hurl, haction, hdid]

end Documents

end Mpas.Installer
