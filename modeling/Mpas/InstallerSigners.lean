import Mpas.Library.Checks
import Mpas.InstallerTexts
import Mpas.InstallerCommands

/-!
# The signers of a deployment config

`mpas signer add` puts a DID into a signer group, into the group `all` and into
`signerKeys`, in place of the placeholders of the template; `mpas signer remove`
takes a DID out of all of them.

* `addSigner`, `removeSigner`: the commands, on the config that they have read;
* `SignerConfig.Consistent`: `all` is the union of the groups, with one key for each member;
* `signers_stay_consistent_iff`: which commands keep a config consistent.
-/

namespace Mpas.Installer

/-! ## Configs -/

structure SignerKey where
  did : String
  label : Option String
  others : List (String × Json)

/-- A deployment config as these commands read it. -/
structure SignerConfig where
  signerGroups : OrderedMap String (List String)
  signerKeys : List SignerKey
  /-- the other members of the policy -/
  policy : List (String × Json)
  /-- the other members of the config -/
  others : List (String × Json)

/-- `target`: the file, and whether it is the live config -/
structure SignerTarget where
  path : Path
  live : Bool

/-- What a command prints, and what is in the file then. -/
structure SignerReply where
  config : SignerConfig
  said : List String
  warned : List String := []

structure AddFlags where
  proposer : Option String := none
  maintainer : Option String := none
  group : Option String := none
  label : Option String := none

def policyIssue : String := "https://github.com/oma3dao/mpas/issues/6 (oma3dao/mpas#6)"

/-- A template value the operator still has to replace. -/
def isPlaceholder (value : String) : Bool := !isDid value || startsWith "did:example:" value

def parseDidJwk (deps : Deps) (value label : String) : Except String String :=
  let trimmed := trimText value
  if startsWith "did:jwk:" trimmed && (deps.didJwkToJwk trimmed).isSome then .ok trimmed
  else .error (label ++ " must be a valid did:jwk: " ++ trimmed)

namespace SignerConfig

variable (config : SignerConfig)

def members (name : String) : List String := (config.signerGroups.get? name).getD []

/-- Some group other than `all` lists it. -/
def stillListed (did : String) : Bool :=
  config.signerGroups.entries.any fun entry => decide (entry.1 ≠ "all") && entry.2.contains did

def hasKey (did : String) : Bool := config.signerKeys.any fun key => decide (key.did = did)

/-! ## `mpas signer add` -/

/-- One turn of the loop over the placeholders of the group. -/
def dropPlaceholder (placeholder : String) : SignerConfig :=
  if config.stillListed placeholder then config
  else { config with
    signerGroups := config.signerGroups.set "all"
      ((config.members "all").filter fun entry => decide (entry ≠ placeholder))
    signerKeys := config.signerKeys.filter fun key => decide (key.did ≠ placeholder) }

/-- The group without its placeholders, which also leave `all` and the keys. -/
def dropPlaceholders (group : String) : SignerConfig :=
  ((config.members group).filter isPlaceholder).foldl dropPlaceholder
    { config with
      signerGroups := config.signerGroups.set group
        ((config.members group).filter fun entry => !isPlaceholder entry) }

def pushMember (group did : String) : SignerConfig :=
  { config with signerGroups := config.signerGroups.set group (config.members group ++ [did]) }

def pushUmbrella (did : String) : SignerConfig :=
  if (config.members "all").contains did then config else config.pushMember "all" did

def pushKey (did label : String) : SignerConfig :=
  if config.hasKey did then config
  else { config with signerKeys := config.signerKeys ++ [⟨did, some label, []⟩] }

def pushSigner (group did label : String) : SignerConfig :=
  ((config.pushMember group did).pushUmbrella did).pushKey did label

/-- The change that `addSigner` makes in the file. -/
def withSigner (group did label : String) : SignerConfig :=
  (config.dropPlaceholders group).pushSigner group did label

end SignerConfig

section Commands

variable (deps : Deps) (target : SignerTarget) (app : String)

/-- `finishChange` -/
def finishChange : List String :=
  (if target.live then
    ["This is the live config. Restart the Credential Adapter to apply the change."] else []) ++
  ["Check it with: mpas config validate" ++ deps.homeFlag ++ " " ++ shellQuote app]

def signerGroup (flags : AddFlags) (config : SignerConfig) : String :=
  if flags.proposer.isSome then "proposers"
  else flags.group.getD (if config.signerGroups.has "maintainers" then "maintainers"
    else "approvers")

/-- The checks of `addSigner`: the group, and the DID that goes into it. -/
def signerToAdd (flags : AddFlags) (config : SignerConfig) : Except String (String × String) :=
  if flags.proposer.isNone = flags.maintainer.isNone then
    .error "Pass exactly one of --proposer <did> or --maintainer <did>."
  else if flags.proposer.isSome && flags.group.isSome then
    .error "--group applies only to --maintainer. Proposer DIDs always go into proposers."
  else do
    let did ← parseDidJwk deps ((flags.proposer.or flags.maintainer).getD "")
      (if flags.proposer.isSome then "--proposer" else "--maintainer")
    if !config.signerGroups.has "all" then
      .error (target.path ++ " has no policy.signerGroups.all. Fix the config by hand or see " ++
        policyIssue ++ ".")
    else
      let group := signerGroup flags config
      if !config.signerGroups.has group then
        .error (target.path ++ " has no signer group \"" ++ group ++
          "\". This command does not create groups; see " ++ policyIssue ++ ".")
      else .ok (group, did)

def addSigner (flags : AddFlags) (config : SignerConfig) : Except String SignerReply := do
  let (group, did) ← signerToAdd deps target flags config
  if (config.members group).contains did then
    return ⟨config, [did ++ " is already in " ++ group ++ ". Nothing changed."], []⟩
  else
    let label := flags.label.getD (if flags.proposer.isSome then "Proposer" else "Maintainer")
    return ⟨config.withSigner group did label,
      ("Added " ++ did ++ " to " ++ group ++ " in " ++ target.path) :: finishChange deps target app,
      []⟩

/-! ## `mpas signer remove` -/

/-- The change that `removeSigner` makes in the file. -/
def SignerConfig.withoutSigner (config : SignerConfig) (did : String) : SignerConfig :=
  { config with
    signerGroups := config.signerGroups.map fun _ members =>
      if members.contains did then members.filter fun entry => decide (entry ≠ did) else members
    signerKeys := config.signerKeys.filter fun key => decide (key.did ≠ did) }

/-- The groups that listed nobody else. -/
def emptiedGroups (config : SignerConfig) (did : String) : List String :=
  config.signerGroups.entries.filterMap fun entry =>
    if entry.2.contains did && (entry.2.filter fun member => decide (member ≠ did)).isEmpty then
      some entry.1 else none

def removeSigner (value : String) (config : SignerConfig) : Except String SignerReply := do
  let did ← parseDidJwk deps value "DID"
  if !(config.signerGroups.values.any (·.contains did) || config.hasKey did) then
    return ⟨config, [did ++ " is not a signer in " ++ target.path ++ ". Nothing changed."], []⟩
  else
    return ⟨config.withoutSigner did,
      ("Removed " ++ did ++ " from " ++ target.path) :: finishChange deps target app,
      (emptiedGroups config did).map fun name =>
        name ++ " is now empty. Operations that need " ++ name ++ " can no longer be approved."⟩

inductive SignerCommand
  | add (flags : AddFlags)
  | remove (did : String)

def runSigner (command : SignerCommand) (config : SignerConfig) : Except String SignerReply :=
  match command with
  | .add flags => addSigner deps target app flags config
  | .remove did => removeSigner deps target app did config

/-- The config in the file after a command. One that is refused leaves it as it was. -/
def afterSigner (config : SignerConfig) (command : SignerCommand) : SignerConfig :=
  match runSigner deps target app command config with
  | .ok reply => reply.config
  | .error _ => config

end Commands

/-! ## What the changes do -/

namespace SignerConfig

variable {config : SignerConfig} {group name did label member placeholder : String}

/-- Every group's members are in `all`, each key is that of one member of `all` and the other way
round, and no group lists a DID twice. -/
structure Consistent (config : SignerConfig) : Prop where
  all : config.signerGroups.has "all" = true
  umbrella : ∀ name, ∀ did ∈ config.members name, did ∈ config.members "all"
  keys : (config.signerKeys.map (·.did)).Perm (config.members "all")
  nodup : ∀ name, (config.members name).Nodup

/-- The groups as they are written in the file, each checked on its own. -/
theorem consistent_iff : config.Consistent ↔
    config.signerGroups.has "all" = true ∧
    (∀ entry ∈ config.signerGroups.entries, entry.2.Nodup ∧
      ∀ did ∈ entry.2, did ∈ config.members "all") ∧
    (config.signerKeys.map (·.did)).Perm (config.members "all") := by
  have hmembers : ∀ name listed, (name, listed) ∈ config.signerGroups.entries →
      config.members name = listed := by
    intro name listed hentry
    rw [members, (config.signerGroups.mem_entries_iff name listed).mp hentry, Option.getD_some]
  constructor
  · intro h
    refine ⟨h.all, fun ⟨name, listed⟩ hentry => ?_, h.keys⟩
    have hnodup := h.nodup name
    have humbrella := h.umbrella name
    rw [hmembers name listed hentry] at hnodup humbrella
    exact ⟨hnodup, humbrella⟩
  · rintro ⟨hall, hentries, hkeys⟩
    have hgroup : ∀ name, (config.members name).Nodup ∧
        ∀ did ∈ config.members name, did ∈ config.members "all" := by
      intro name
      cases hget : config.signerGroups.get? name with
      | none => simp [members, hget]
      | some listed =>
        have hentry := (config.signerGroups.mem_entries_iff name listed).mpr hget
        rw [hmembers name listed hentry]
        exact hentries _ hentry
    exact ⟨hall, fun name => (hgroup name).2, hkeys, fun name => (hgroup name).1⟩

instance : Decidable config.Consistent := decidable_of_iff _ consistent_iff.symm

theorem listed_iff {p : String → Bool} :
    (config.signerGroups.entries.any fun entry => p entry.1 && entry.2.contains did) = true ↔
      ∃ name, p name = true ∧ did ∈ config.members name := by
  unfold members
  simp only [List.any_eq_true, Bool.and_eq_true, List.contains_iff_mem]
  constructor
  · rintro ⟨⟨name, listed⟩, hentry, hname, hdid⟩
    refine ⟨name, hname, ?_⟩
    rw [(config.signerGroups.mem_entries_iff name listed).mp hentry]
    exact hdid
  · rintro ⟨name, hname, hdid⟩
    cases hget : config.signerGroups.get? name with
    | none => simp [hget] at hdid
    | some listed =>
      refine ⟨(name, listed), (config.signerGroups.mem_entries_iff name listed).mpr hget, hname, ?_⟩
      simpa [hget] using hdid

theorem stillListed_iff : config.stillListed did = true ↔
    ∃ name, name ≠ "all" ∧ did ∈ config.members name := by
  have h := @listed_iff config did fun name => decide (name ≠ "all")
  simpa only [stillListed, decide_eq_true_eq] using h

theorem hasKey_iff : config.hasKey did = true ↔ did ∈ config.signerKeys.map (·.did) := by
  simp [hasKey]

theorem members_set (listed : List String) (keys : List SignerKey) :
    { config with
      signerGroups := config.signerGroups.set group listed, signerKeys := keys }.members name =
      if group = name then listed else config.members name := by
  unfold members
  simp only [OrderedMap.get?_set]
  split <;> rfl

/-- The placeholders that leave `all` and the keys. -/
def dropped (config : SignerConfig) (placeholders : List String) (did : String) : Bool :=
  placeholders.contains did && !config.stillListed did

/-- What the loop has done: it only takes from `all` and from the keys, so what is listed elsewhere
stays as it was at the start. -/
structure LoopOf (config : SignerConfig) (placeholders : List String) (config' : SignerConfig) :
    Prop where
  members : ∀ name, config'.members name = if name = "all" then
    (config.members "all").filter fun did => !config.dropped placeholders did
    else config.members name
  keys : config'.signerKeys = config.signerKeys.filter fun key =>
    !config.dropped placeholders key.did
  has : ∀ name, config.signerGroups.has name = true → config'.signerGroups.has name = true
  rest : config'.policy = config.policy ∧ config'.others = config.others

theorem has_set (groups : OrderedMap String (List String)) (listed : List String)
    (h : groups.has name = true) : (groups.set group listed).has name = true := by
  rw [OrderedMap.has, OrderedMap.get?_set]
  split
  · rfl
  · exact h

theorem stillListed_dropPlaceholder :
    (config.dropPlaceholder placeholder).stillListed did = config.stillListed did := by
  rw [Bool.eq_iff_iff, stillListed_iff, stillListed_iff]
  unfold dropPlaceholder
  split
  · rfl
  · refine exists_congr fun name => and_congr_right fun hname => ?_
    rw [members_set, if_neg (Ne.symm hname)]

theorem loop_start (config : SignerConfig) : LoopOf config [] config where
  members name := by
    simp only [dropped, List.contains_nil, Bool.false_and, Bool.not_false, List.filter_true]
    split <;> simp_all
  keys := by simp [dropped]
  has _ h := h
  rest := ⟨rfl, rfl⟩

theorem dropped_cons (placeholders : List String) :
    config.dropped (placeholder :: placeholders) did =
      (decide (did = placeholder) && !config.stillListed placeholder ||
        config.dropped placeholders did) := by
  unfold dropped
  by_cases h : did = placeholder
  · subst h; cases config.stillListed did <;> simp
  · simp [h]

/-- The turn for one placeholder, then the rest of the loop. -/
theorem loop_turn (placeholders : List String) {config' : SignerConfig}
    (h : LoopOf (config.dropPlaceholder placeholder) placeholders config') :
    LoopOf config (placeholder :: placeholders) config' := by
  have hdropped : ∀ did, (config.dropPlaceholder placeholder).dropped placeholders did =
      config.dropped placeholders did := by
    intro did
    unfold dropped
    rw [stillListed_dropPlaceholder]
  have hmembers := h.members
  have hkeys := h.keys
  have hhas := h.has
  have hrest := h.rest
  simp only [hdropped] at hmembers hkeys
  cases hlisted : config.stillListed placeholder with
  | true =>
    have hsame : config.dropPlaceholder placeholder = config := by simp [dropPlaceholder, hlisted]
    have hcons : ∀ did, config.dropped (placeholder :: placeholders) did =
        config.dropped placeholders did := by
      intro did
      simp [dropped_cons, hlisted]
    rw [hsame] at hmembers hkeys hhas hrest
    exact ⟨by simpa only [hcons] using hmembers, by simpa only [hcons] using hkeys, hhas, hrest⟩
  | false =>
    have hdrop : config.dropPlaceholder placeholder = { config with
        signerGroups := config.signerGroups.set "all"
          ((config.members "all").filter fun entry => decide (entry ≠ placeholder))
        signerKeys := config.signerKeys.filter fun key => decide (key.did ≠ placeholder) } := by
      simp [dropPlaceholder, hlisted]
    have hcons : ∀ did, (!config.dropped (placeholder :: placeholders) did) =
        (decide (did ≠ placeholder) && !config.dropped placeholders did) := by
      intro did
      simp [dropped_cons, hlisted, Bool.not_or]
    rw [hdrop] at hmembers hkeys hhas hrest
    refine ⟨fun name => ?_, ?_, fun name hname => hhas name (has_set _ _ hname), hrest⟩
    · rw [hmembers name, members_set, members_set]
      by_cases hname : name = "all"
      · simp only [hname, ↓reduceIte, List.filter_filter, hcons, Bool.and_comm]
      · simp only [hname, ↓reduceIte, Ne.symm hname]
    · rw [hkeys, List.filter_filter]
      simp only [hcons, Bool.and_comm]

theorem dropPlaceholders_loop (placeholders : List String) (config : SignerConfig) :
    LoopOf config placeholders (placeholders.foldl dropPlaceholder config) := by
  induction placeholders generalizing config with
  | nil => exact loop_start config
  | cons placeholder placeholders ih => exact loop_turn placeholders (ih _)

/-! ## Adding a signer -/

/-- A group other than `all` has a placeholder. -/
def hasPlaceholder (config : SignerConfig) : Prop :=
  ∃ name, name ≠ "all" ∧ ∃ did ∈ config.members name, isPlaceholder did = true

theorem dropPlaceholders_members (hname : name ≠ "all") :
    (config.dropPlaceholders group).members name =
      if group = name then (config.members group).filter fun entry => !isPlaceholder entry
      else config.members name := by
  unfold dropPlaceholders
  rw [(dropPlaceholders_loop _ _).members, if_neg hname, members_set]

/-- Some group other than `all` and `group` lists it. -/
def listedElsewhere (config : SignerConfig) (group did : String) : Bool :=
  config.signerGroups.entries.any fun entry =>
    decide (entry.1 ≠ "all" ∧ entry.1 ≠ group) && entry.2.contains did

/-- A placeholder of the group that no other group lists. -/
def leaves (config : SignerConfig) (group did : String) : Bool :=
  (config.members group).contains did && isPlaceholder did && !config.listedElsewhere group did

theorem listedElsewhere_iff : config.listedElsewhere group did = true ↔
    ∃ name, (name ≠ "all" ∧ name ≠ group) ∧ did ∈ config.members name := by
  have h := @listed_iff config did fun name => decide (name ≠ "all" ∧ name ≠ group)
  simpa only [listedElsewhere, decide_eq_true_eq] using h

theorem dropped_eq_leaves (keys : List SignerKey) (did : String) :
    ({ config with
      signerGroups := config.signerGroups.set group
        ((config.members group).filter fun entry => !isPlaceholder entry)
      signerKeys := keys } : SignerConfig).dropped
      ((config.members group).filter isPlaceholder) did = config.leaves group did := by
  rw [Bool.eq_iff_iff]
  unfold dropped leaves
  simp only [Bool.and_eq_true, Bool.not_eq_true', ← Bool.not_eq_true, stillListed_iff,
    listedElsewhere_iff, List.contains_iff_mem, List.mem_filter, members_set]
  refine and_congr_right fun hplaceholder => not_congr (exists_congr fun name => ?_)
  by_cases hname : group = name
  · subst hname
    simp [hplaceholder.2]
  · simp [hname, Ne.symm hname]

theorem dropPlaceholders_all : (config.dropPlaceholders group).members "all" =
    (if group = "all" then (config.members group).filter fun entry => !isPlaceholder entry
      else config.members "all").filter fun did => !config.leaves group did := by
  unfold dropPlaceholders
  rw [(dropPlaceholders_loop _ _).members, if_pos rfl, members_set]
  simp only [dropped_eq_leaves]

theorem dropPlaceholders_keys : (config.dropPlaceholders group).signerKeys =
    config.signerKeys.filter fun key => !config.leaves group key.did := by
  unfold dropPlaceholders
  rw [(dropPlaceholders_loop _ _).keys]
  simp only [dropped_eq_leaves]

/-- The members of `all` that are left. A placeholder stays for the sake of another group. -/
theorem mem_dropPlaceholders_all : member ∈ (config.dropPlaceholders group).members "all" ↔
    member ∈ config.members "all" ∧ (group = "all" → isPlaceholder member = false) ∧
      config.leaves group member = false := by
  rw [dropPlaceholders_all, List.mem_filter]
  by_cases hgroup : group = "all"
  · simp [hgroup, and_assoc]
  · simp [hgroup]

theorem leaves_of_real (h : isPlaceholder member = false) : config.leaves group member = false := by
  simp [leaves, h]

/-- The members that are no placeholders stay where they are. -/
theorem mem_dropPlaceholders (h : isPlaceholder member = false) :
    member ∈ (config.dropPlaceholders group).members name ↔ member ∈ config.members name := by
  by_cases hname : name = "all"
  · subst hname
    rw [mem_dropPlaceholders_all]
    simp [h, leaves_of_real h]
  · rw [dropPlaceholders_members hname]
    split
    · rename_i hgroup
      simp [← hgroup, h]
    · rfl

theorem nodup_dropPlaceholders (h : ∀ name, (config.members name).Nodup) :
    ((config.dropPlaceholders group).members name).Nodup := by
  by_cases hname : name = "all"
  · subst hname
    rw [dropPlaceholders_all]
    refine List.Nodup.filter _ ?_
    split
    · exact (h group).filter _
    · exact h "all"
  · rw [dropPlaceholders_members hname]
    split
    · exact (h group).filter _
    · exact h name

/-- A placeholder that leaves `all` is in no group any more, unless the group is `all` itself. -/
theorem umbrella_dropPlaceholders (h : config.Consistent)
    (hall : group = "all" → ¬ config.hasPlaceholder) (hname : name ≠ "all")
    (hmember : member ∈ (config.dropPlaceholders group).members name) :
    member ∈ (config.dropPlaceholders group).members "all" := by
  rw [dropPlaceholders_members hname] at hmember
  rw [mem_dropPlaceholders_all]
  by_cases hgroup : group = name
  · subst hgroup
    rw [if_pos rfl] at hmember
    obtain ⟨hlisted, hreal⟩ := List.mem_filter.mp hmember
    have hreal : isPlaceholder member = false := by simpa using hreal
    exact ⟨h.umbrella group member hlisted, fun _ => hreal, leaves_of_real hreal⟩
  · rw [if_neg hgroup] at hmember
    refine ⟨h.umbrella name member hmember, fun he => ?_, ?_⟩
    · by_contra hplaceholder
      exact hall he ⟨name, hname, member, hmember, by simpa using hplaceholder⟩
    · have helsewhere : config.listedElsewhere group member = true :=
        listedElsewhere_iff.mpr ⟨name, ⟨hname, Ne.symm hgroup⟩, hmember⟩
      simp [leaves, helsewhere]

/-- What leaves `all` leaves the keys. -/
theorem keys_dropPlaceholders (h : config.Consistent)
    (hall : group = "all" → ¬ config.hasPlaceholder) :
    ((config.dropPlaceholders group).signerKeys.map (·.did)).Perm
      ((config.dropPlaceholders group).members "all") := by
  have hkeys : (config.dropPlaceholders group).signerKeys.map (·.did) =
      (config.signerKeys.map (·.did)).filter fun did => !config.leaves group did := by
    rw [dropPlaceholders_keys, List.filter_map]
    rfl
  rw [hkeys, dropPlaceholders_all]
  split
  · rename_i hgroup
    subst hgroup
    refine (h.keys.filter _).trans (List.Perm.of_eq ?_)
    rw [List.filter_filter]
    refine List.filter_congr fun did hdid => ?_
    have helsewhere : isPlaceholder did = true → config.listedElsewhere "all" did = false := by
      intro hplaceholder
      rw [← Bool.not_eq_true, listedElsewhere_iff]
      rintro ⟨name, ⟨hname, -⟩, hlisted⟩
      exact hall rfl ⟨name, hname, did, hlisted, hplaceholder⟩
    cases hplaceholder : isPlaceholder did with
    | false => simp [leaves_of_real hplaceholder]
    | true => simp [leaves, hplaceholder, helsewhere hplaceholder, hdid]
  · exact h.keys.filter _

theorem members_pushMember : (config.pushMember group did).members name =
    if group = name then config.members group ++ [did] else config.members name :=
  members_set _ _

theorem members_pushKey : (config.pushKey did label).members name = config.members name := by
  unfold pushKey
  split <;> rfl

theorem members_pushUmbrella : (config.pushUmbrella did).members name =
    if name = "all" ∧ did ∉ config.members "all" then config.members "all" ++ [did]
    else config.members name := by
  unfold pushUmbrella
  by_cases hdid : did ∈ config.members "all"
  · simp [hdid]
  · simp only [List.contains_iff_mem, hdid, ↓reduceIte, not_false_eq_true, and_true,
      members_pushMember, @eq_comm _ name]

/-- The group, then `all` unless it has the DID already. -/
theorem members_pushSigner : (config.pushSigner group did label).members name =
    if group = name then config.members group ++ [did]
    else if name = "all" ∧ did ∉ config.members "all" then config.members "all" ++ [did]
    else config.members name := by
  unfold pushSigner
  rw [members_pushKey, members_pushUmbrella]
  simp only [members_pushMember]
  by_cases hgroup : group = "all"
  · subst hgroup
    by_cases hname : "all" = name
    · subst hname
      simp
    · simp [hname, Ne.symm hname]
  · simp only [hgroup, ↓reduceIte]
    by_cases hname : name = "all"
    · subst hname
      simp [hgroup]
    · simp [hname]

theorem keys_pushSigner : (config.pushSigner group did label).signerKeys =
    if config.hasKey did then config.signerKeys
    else config.signerKeys ++ [⟨did, some label, []⟩] := by
  have hkeys : ((config.pushMember group did).pushUmbrella did).signerKeys = config.signerKeys := by
    unfold pushUmbrella
    split <;> rfl
  have hkey : ((config.pushMember group did).pushUmbrella did).hasKey did = config.hasKey did := by
    unfold hasKey
    rw [hkeys]
  unfold pushSigner pushKey
  rw [hkey]
  split
  · exact hkeys
  · rw [hkeys]

theorem has_pushSigner (h : config.signerGroups.has name = true) :
    (config.pushSigner group did label).signerGroups.has name = true := by
  unfold pushSigner pushKey pushUmbrella
  split <;> split
  · exact has_set _ _ h
  · exact has_set _ _ h
  · exact has_set _ _ (has_set _ _ h)
  · exact has_set _ _ (has_set _ _ h)

theorem mem_pushSigner : member ∈ (config.pushSigner group did label).members name ↔
    member ∈ config.members name ∨ (name = group ∨ name = "all") ∧ member = did := by
  rw [members_pushSigner]
  by_cases hgroup : group = name
  · subst hgroup
    simp
  · rw [if_neg hgroup]
    split
    · rename_i h
      simp [h.1]
    · rename_i h
      rw [not_and, not_not] at h
      simp only [Ne.symm hgroup, false_or]
      refine ⟨Or.inl, ?_⟩
      rintro (hmember | ⟨hname, rfl⟩)
      · exact hmember
      · rw [hname]
        exact h hname

/-- `withSigner`, for a DID that its group does not list: the added DID aside, the members that are
no placeholders are where they were. -/
theorem mem_withSigner (hreal : isPlaceholder member = false) :
    member ∈ (config.withSigner group did label).members name ↔
      member ∈ config.members name ∨ (name = group ∨ name = "all") ∧ member = did := by
  unfold withSigner
  rw [mem_pushSigner, mem_dropPlaceholders hreal]

/-- A DID that is pushed leaves a consistent config consistent. -/
theorem consistent_pushSigner (hall : config.signerGroups.has "all" = true)
    (humbrella : ∀ name, name ≠ "all" → ∀ did ∈ config.members name, did ∈ config.members "all")
    (hkeys : (config.signerKeys.map (·.did)).Perm (config.members "all"))
    (hnodup : ∀ name, (config.members name).Nodup) (hnew : did ∉ config.members group) :
    (config.pushSigner group did label).Consistent where
  all := has_pushSigner hall
  umbrella name := by
    intro other hother
    rw [mem_pushSigner] at hother ⊢
    rcases hother with hother | ⟨-, hother⟩
    · by_cases hname : name = "all"
      · subst hname
        exact .inl hother
      · exact .inl (humbrella name hname other hother)
    · exact .inr ⟨.inr rfl, hother⟩
  keys := by
    have hkey : config.hasKey did = true ↔ did ∈ config.members "all" :=
      hasKey_iff.trans hkeys.mem_iff
    rw [keys_pushSigner, members_pushSigner]
    by_cases hdid : did ∈ config.members "all"
    · have hgroup : group ≠ "all" := fun h => hnew (h ▸ hdid)
      rw [if_pos (hkey.mpr hdid), if_neg hgroup, if_neg (fun h => h.2 hdid)]
      exact hkeys
    · rw [if_neg (fun h => hdid (hkey.mp h)), List.map_append]
      have happended : (if group = "all" then config.members group ++ [did]
          else if "all" = "all" ∧ did ∉ config.members "all" then config.members "all" ++ [did]
          else config.members "all") = config.members "all" ++ [did] := by
        split
        · rename_i hgroup
          rw [hgroup]
        · simp [hdid]
      rw [happended]
      exact hkeys.append_right _
  nodup name := by
    rw [members_pushSigner]
    split
    · rename_i hgroup
      exact List.Nodup.append (hnodup group) (by simp) (by simpa using hnew)
    · split
      · rename_i hname
        exact List.Nodup.append (hnodup "all") (by simp) (by simpa using hname.2)
      · exact hnodup name

theorem has_dropPlaceholders (h : config.signerGroups.has name = true) :
    (config.dropPlaceholders group).signerGroups.has name = true :=
  (dropPlaceholders_loop _ _).has name (has_set _ _ h)

theorem consistent_withSigner (h : config.Consistent) (hnew : did ∉ config.members group)
    (hall : group = "all" → ¬ config.hasPlaceholder) :
    (config.withSigner group did label).Consistent := by
  refine consistent_pushSigner (has_dropPlaceholders h.all)
    (fun name hname other hother => umbrella_dropPlaceholders h hall hname hother)
    (keys_dropPlaceholders h hall) (fun name => nodup_dropPlaceholders h.nodup) ?_
  intro hdid
  by_cases hgroup : group = "all"
  · subst hgroup
    exact hnew (mem_dropPlaceholders_all.mp hdid).1
  · rw [dropPlaceholders_members hgroup, if_pos rfl] at hdid
    exact hnew (List.mem_filter.mp hdid).1

/-- A placeholder that another group lists is dropped from `all` when the DID goes into `all`. -/
theorem not_umbrella_withSigner (h : config.Consistent) (hnew : did ∉ config.members "all")
    (hplaceholder : config.hasPlaceholder) :
    ¬ (config.withSigner "all" did label).Consistent := by
  intro hafter
  obtain ⟨name, hname, placeholder, hlisted, hp⟩ := hplaceholder
  have hne : placeholder ≠ did := fun he => hnew (he ▸ h.umbrella name placeholder hlisted)
  have hstays : placeholder ∈ (config.withSigner "all" did label).members name := by
    unfold withSigner
    rw [mem_pushSigner, dropPlaceholders_members hname, if_neg (Ne.symm hname)]
    exact .inl hlisted
  have hall := hafter.umbrella name placeholder hstays
  unfold withSigner at hall
  rw [mem_pushSigner, mem_dropPlaceholders_all] at hall
  rcases hall with ⟨-, hreal, -⟩ | ⟨-, he⟩
  · rw [hreal rfl] at hp
    cases hp
  · exact hne he

/-! ## Removing a signer -/

theorem members_withoutSigner : (config.withoutSigner did).members name =
    (config.members name).filter fun entry => decide (entry ≠ did) := by
  unfold withoutSigner members
  rw [OrderedMap.get?_map]
  cases config.signerGroups.get? name with
  | none => rfl
  | some listed =>
    simp only [Option.map_some, Option.getD_some, List.contains_iff_mem]
    split
    · rfl
    · rename_i habsent
      refine (List.filter_eq_self.mpr fun entry hentry => ?_).symm
      simpa using fun he : entry = did => habsent (he ▸ hentry)

theorem mem_withoutSigner : member ∈ (config.withoutSigner did).members name ↔
    member ∈ config.members name ∧ member ≠ did := by
  simp [members_withoutSigner]

theorem keys_withoutSigner : (config.withoutSigner did).signerKeys.map (·.did) =
    (config.signerKeys.map (·.did)).filter fun entry => decide (entry ≠ did) := by
  unfold withoutSigner
  rw [List.filter_map]
  rfl

theorem consistent_withoutSigner (h : config.Consistent) :
    (config.withoutSigner did).Consistent where
  all := by
    obtain ⟨listed, hlisted⟩ := (config.signerGroups.has_iff "all").mp h.all
    simp [withoutSigner, OrderedMap.has, hlisted]
  umbrella name member hmember := by
    rw [mem_withoutSigner] at hmember ⊢
    exact ⟨h.umbrella name member hmember.1, hmember.2⟩
  keys := by
    rw [keys_withoutSigner, members_withoutSigner]
    exact h.keys.filter _
  nodup name := by
    rw [members_withoutSigner]
    exact (h.nodup name).filter _

end SignerConfig

/-! ## One command -/

section OneCommand

variable (deps : Deps) (target : SignerTarget) (app : String)

/-- The DID that a command is about. -/
def SignerCommand.did : SignerCommand → String
  | .add flags => trimText ((flags.proposer.or flags.maintainer).getD "")
  | .remove value => trimText value

/-- A command leaves the config consistent and does what it says, to nobody else. -/
structure Sound (config : SignerConfig) (command : SignerCommand) : Prop where
  consistent : (afterSigner deps target app config command).Consistent
  added : ∀ flags group did, command = .add flags →
    signerToAdd deps target flags config = .ok (group, did) →
      did ∈ (afterSigner deps target app config command).members group ∧
      did ∈ (afterSigner deps target app config command).members "all" ∧
      did ∈ (afterSigner deps target app config command).signerKeys.map (·.did)
  removed : ∀ value did, command = .remove value → parseDidJwk deps value "DID" = .ok did →
    (∀ name, did ∉ (afterSigner deps target app config command).members name) ∧
      did ∉ (afterSigner deps target app config command).signerKeys.map (·.did)
  /-- The other members, those that are no placeholders. -/
  kept : ∀ name member, isPlaceholder member = false → member ≠ command.did →
    (member ∈ (afterSigner deps target app config command).members name ↔
      member ∈ config.members name)
  /-- The DID that is added goes into its group and `all` only. -/
  elsewhere : ∀ flags group did, command = .add flags →
    signerToAdd deps target flags config = .ok (group, did) → ∀ name, name ≠ group →
      name ≠ "all" → (did ∈ (afterSigner deps target app config command).members name ↔
        did ∈ config.members name)
  outside : (afterSigner deps target app config command).policy = config.policy ∧
    (afterSigner deps target app config command).others = config.others

/-- The command does not put a DID into `all` itself while another group has a placeholder. -/
def Meets (config : SignerConfig) : SignerCommand → Prop
  | .add flags => ∀ value did, flags.proposer = none → flags.maintainer = some value →
      flags.group = some "all" → parseDidJwk deps value "--maintainer" = .ok did →
      did ∈ config.members "all" ∨ ¬ config.hasPlaceholder
  | .remove _ => True

variable {deps target app} {config : SignerConfig} {flags : AddFlags} {group did value : String}

theorem parseDidJwk_eq {label : String} (h : parseDidJwk deps value label = .ok did) :
    did = trimText value := by
  simp only [parseDidJwk] at h
  split at h
  · cases h
    rfl
  · cases h

/-- Only `--maintainer` with `--group all` goes into `all` itself. -/
theorem signerGroup_all (h : signerGroup flags config = "all") :
    flags.proposer = none ∧ flags.group = some "all" := by
  unfold signerGroup at h
  cases hproposer : flags.proposer with
  | some proposer => simp [hproposer] at h
  | none =>
    refine ⟨rfl, ?_⟩
    cases hgroup : flags.group with
    | some name => simpa [hproposer, hgroup] using h
    | none =>
      simp only [hproposer, hgroup, Option.isSome_none, Bool.false_eq_true, ↓reduceIte,
        Option.getD_none] at h
      split at h <;> simp at h

/-- What the checks of `addSigner` let through. -/
theorem signerToAdd_ok (h : signerToAdd deps target flags config = .ok (group, did)) :
    group = signerGroup flags config ∧ flags.proposer.isNone ≠ flags.maintainer.isNone ∧
      parseDidJwk deps ((flags.proposer.or flags.maintainer).getD "")
        (if flags.proposer.isSome then "--proposer" else "--maintainer") = .ok did := by
  unfold signerToAdd at h
  by_cases hone : flags.proposer.isNone = flags.maintainer.isNone
  · simp [hone] at h
  rw [if_neg hone] at h
  split at h
  · cases h
  · obtain ⟨parsed, hparsed, hrest⟩ := Checks.bind_eq_ok.mp h
    split at hrest
    · cases hrest
    · simp only at hrest
      split at hrest
      · cases hrest
      · cases hrest
        exact ⟨rfl, hone, hparsed⟩

/-- What the checks let into `all` itself. -/
theorem intoAll_of_ok (h : signerToAdd deps target flags config = .ok ("all", did)) :
    flags.proposer = none ∧ flags.group = some "all" ∧
      ∃ value, flags.maintainer = some value ∧ parseDidJwk deps value "--maintainer" = .ok did := by
  obtain ⟨hgroup, hone, hparsed⟩ := signerToAdd_ok h
  obtain ⟨hproposer, hflag⟩ := signerGroup_all hgroup.symm
  refine ⟨hproposer, hflag, ?_⟩
  cases hmaintainer : flags.maintainer with
  | none => simp [hproposer, hmaintainer] at hone
  | some value => exact ⟨value, rfl, by simpa [hproposer, hmaintainer] using hparsed⟩

/-- The checks let a Maintainer into `all`. -/
theorem signerToAdd_all (hall : config.signerGroups.has "all" = true)
    (hproposer : flags.proposer = none) (hmaintainer : flags.maintainer = some value)
    (hgroup : flags.group = some "all")
    (hparsed : parseDidJwk deps value "--maintainer" = .ok did) :
    signerToAdd deps target flags config = .ok ("all", did) := by
  simp [signerToAdd, signerGroup, hproposer, hmaintainer, hgroup, hparsed, hall, bind, Except.bind]

/-- The config after `mpas signer add`. -/
theorem afterSigner_add (h : signerToAdd deps target flags config = .ok (group, did)) :
    afterSigner deps target app config (.add flags) =
      if did ∈ config.members group then config
      else config.withSigner group did
        (flags.label.getD (if flags.proposer.isSome then "Proposer" else "Maintainer")) := by
  simp only [afterSigner, runSigner, addSigner, h, bind, Except.bind, pure, Except.pure,
    List.contains_iff_mem]
  by_cases hlisted : did ∈ config.members group <;> simp only [hlisted, ↓reduceIte]

theorem afterSigner_refused {e : String} (h : signerToAdd deps target flags config = .error e) :
    afterSigner deps target app config (.add flags) = config := by
  simp [afterSigner, runSigner, addSigner, h, bind, Except.bind]

theorem withSigner_outside {label : String} :
    (config.withSigner group did label).policy = config.policy ∧
      (config.withSigner group did label).others = config.others := by
  have hdrop := (SignerConfig.dropPlaceholders_loop
    ((config.members group).filter isPlaceholder) { config with
      signerGroups := config.signerGroups.set group
        ((config.members group).filter fun entry => !isPlaceholder entry) }).rest
  unfold SignerConfig.withSigner SignerConfig.pushSigner SignerConfig.pushKey
    SignerConfig.pushUmbrella
  split <;> split <;> exact hdrop

theorem sound_add (h : config.Consistent) (hmeets : Meets deps config (.add flags)) :
    Sound deps target app config (.add flags) := by
  cases hchecked : signerToAdd deps target flags config with
  | error e =>
    have hafter : afterSigner deps target app config (.add flags) = config :=
      afterSigner_refused hchecked
    exact {
      consistent := by rw [hafter]; exact h
      added := by rintro _ group did ⟨⟩ hok; rw [hchecked] at hok; cases hok
      removed := by rintro _ _ ⟨⟩
      kept := fun _ _ _ _ => by rw [hafter]
      elsewhere := fun _ _ _ _ _ _ _ _ => by rw [hafter]
      outside := by rw [hafter]; exact ⟨rfl, rfl⟩ }
  | ok checked =>
    obtain ⟨group, did⟩ := checked
    have hdid : did = (SignerCommand.add flags).did := parseDidJwk_eq (signerToAdd_ok hchecked).2.2
    have hafter := @afterSigner_add deps target app config flags group did hchecked
    by_cases hlisted : did ∈ config.members group
    · rw [if_pos hlisted] at hafter
      exact {
        consistent := by rw [hafter]; exact h
        added := by
          rintro _ group' did' ⟨⟩ hok
          rw [hchecked] at hok
          cases hok
          rw [hafter]
          have hall := h.umbrella group did hlisted
          exact ⟨hlisted, hall, h.keys.mem_iff.mpr hall⟩
        removed := by rintro _ _ ⟨⟩
        kept := fun _ _ _ _ => by rw [hafter]
        elsewhere := fun _ _ _ _ _ _ _ _ => by rw [hafter]
        outside := by rw [hafter]; exact ⟨rfl, rfl⟩ }
    · rw [if_neg hlisted] at hafter
      have hcondition : group = "all" → ¬ config.hasPlaceholder := by
        rintro rfl
        obtain ⟨hproposer, hflag, value, hmaintainer, hparsed⟩ := intoAll_of_ok hchecked
        exact (hmeets value did hproposer hmaintainer hflag hparsed).resolve_left hlisted
      have hconsistent : (config.withSigner group did (flags.label.getD
          (if flags.proposer.isSome then "Proposer" else "Maintainer"))).Consistent :=
        SignerConfig.consistent_withSigner h hlisted hcondition
      exact {
        consistent := by rw [hafter]; exact hconsistent
        added := by
          rintro _ group' did' ⟨⟩ hok
          rw [hchecked] at hok
          cases hok
          rw [hafter]
          have hgroup : did ∈ (config.withSigner group did
              (flags.label.getD (if flags.proposer.isSome then "Proposer" else "Maintainer"))).members
                group := SignerConfig.mem_pushSigner.mpr (.inr ⟨.inl rfl, rfl⟩)
          have hall := hconsistent.umbrella group did hgroup
          exact ⟨hgroup, hall, hconsistent.keys.mem_iff.mpr hall⟩
        removed := by rintro _ _ ⟨⟩
        kept := by
          intro name member hreal hother
          rw [hafter, SignerConfig.mem_withSigner hreal, hdid]
          simp [hother]
        elsewhere := by
          rintro _ group' did' ⟨⟩ hok name hname hall
          rw [hchecked] at hok
          cases hok
          rw [hafter]
          unfold SignerConfig.withSigner
          rw [SignerConfig.mem_pushSigner, SignerConfig.dropPlaceholders_members hall,
            if_neg (Ne.symm hname)]
          simp [hname, hall]
        outside := by rw [hafter]; exact withSigner_outside }

/-- A DID that no group lists has no key. -/
theorem absent_of_unlisted (h : config.Consistent)
    (hlisted : (config.signerGroups.values.any (·.contains did) || config.hasKey did) = false) :
    ∀ name, did ∉ config.members name := by
  intro name hdid
  have hkey : config.hasKey did = true :=
    SignerConfig.hasKey_iff.mpr (h.keys.mem_iff.mpr (h.umbrella name did hdid))
  simp [hkey] at hlisted

/-- The config after `mpas signer remove`: without the DID, whether it was there or not. -/
theorem afterSigner_remove (h : config.Consistent)
    (hparsed : parseDidJwk deps value "DID" = .ok did) :
    (∀ name member, member ∈ (afterSigner deps target app config (.remove value)).members name ↔
      member ∈ config.members name ∧ member ≠ did) ∧
    (afterSigner deps target app config (.remove value)).Consistent ∧
    (afterSigner deps target app config (.remove value)).policy = config.policy ∧
    (afterSigner deps target app config (.remove value)).others = config.others := by
  cases hlisted : config.signerGroups.values.any (·.contains did) || config.hasKey did with
  | false =>
    have hafter : afterSigner deps target app config (.remove value) = config := by
      simp only [afterSigner, runSigner, removeSigner, hparsed, hlisted, bind, Except.bind, pure,
        Except.pure, Bool.not_false, ↓reduceIte]
    rw [hafter]
    refine ⟨fun name member => ?_, h, rfl, rfl⟩
    refine ⟨fun hmember => ⟨hmember, ?_⟩, And.left⟩
    rintro rfl
    exact absent_of_unlisted h hlisted name hmember
  | true =>
    have hafter : afterSigner deps target app config (.remove value) = config.withoutSigner did := by
      simp only [afterSigner, runSigner, removeSigner, hparsed, hlisted, bind, Except.bind, pure,
        Except.pure, Bool.not_true, Bool.false_eq_true, ↓reduceIte]
    rw [hafter]
    exact ⟨fun _ _ => SignerConfig.mem_withoutSigner, SignerConfig.consistent_withoutSigner h,
      rfl, rfl⟩

theorem sound_remove (h : config.Consistent) : Sound deps target app config (.remove value) := by
  cases hparsed : parseDidJwk deps value "DID" with
  | error e =>
    have hafter : afterSigner deps target app config (.remove value) = config := by
      simp [afterSigner, runSigner, removeSigner, hparsed, bind, Except.bind]
    exact {
      consistent := by rw [hafter]; exact h
      added := by rintro _ _ _ ⟨⟩
      removed := by rintro _ did ⟨⟩ hok; rw [hparsed] at hok; cases hok
      kept := fun _ _ _ _ => by rw [hafter]
      elsewhere := by rintro _ _ _ ⟨⟩
      outside := by rw [hafter]; exact ⟨rfl, rfl⟩ }
  | ok did =>
    obtain ⟨hmembers, hconsistent, houtside⟩ :=
      @afterSigner_remove deps target app config did value h hparsed
    have hgone : ∀ name, did ∉ (afterSigner deps target app config (.remove value)).members name :=
      fun name hdid => ((hmembers name did).mp hdid).2 rfl
    exact {
      consistent := hconsistent
      added := by rintro _ _ _ ⟨⟩
      removed := by
        rintro _ did' ⟨⟩ hok
        rw [hparsed] at hok
        cases hok
        exact ⟨hgone, fun hkey => hgone "all" (hconsistent.keys.mem_iff.mp hkey)⟩
      kept := by
        intro name member _ hother
        rw [hmembers]
        rw [SignerCommand.did, ← parseDidJwk_eq hparsed] at hother
        simp [hother]
      elsewhere := by rintro _ _ _ ⟨⟩
      outside := houtside }

/-- **One command on a consistent config.** -/
theorem sound_iff_meets (h : config.Consistent) {command : SignerCommand} :
    Sound deps target app config command ↔ Meets deps config command := by
  cases command with
  | remove value => exact ⟨fun _ => trivial, fun _ => sound_remove h⟩
  | add flags =>
    refine ⟨fun hsound => ?_, sound_add h⟩
    intro value did hproposer hmaintainer hgroup hparsed
    by_contra hbroken
    rw [not_or, not_not] at hbroken
    have hconsistent := hsound.consistent
    rw [afterSigner_add (signerToAdd_all h.all hproposer hmaintainer hgroup hparsed),
      if_neg hbroken.1] at hconsistent
    exact SignerConfig.not_umbrella_withSigner h hbroken.1 hbroken.2 hconsistent

end OneCommand

/-! ## Every sequence of commands -/

/-- Each command has the property on the config that the ones before it have left. -/
def AlongCommands (deps : Deps) (target : SignerTarget) (app : String)
    (P : SignerConfig → SignerCommand → Prop) : SignerConfig → List SignerCommand → Prop
  | _, [] => True
  | config, command :: commands => P config command ∧
      AlongCommands deps target app P (afterSigner deps target app config command) commands

/-- Every command of a sequence keeps the config consistent and does what it says exactly when none
puts a DID into `all` itself while another group still has a placeholder. -/
theorem signers_stay_consistent_iff {deps : Deps} {target : SignerTarget} {app : String}
    {config : SignerConfig} (h : config.Consistent) (commands : List SignerCommand) :
    AlongCommands deps target app (Sound deps target app) config commands ↔
      AlongCommands deps target app (Meets deps) config commands := by
  induction commands generalizing config with
  | nil => exact Iff.rfl
  | cons command commands ih =>
    have hone : Sound deps target app config command ↔ Meets deps config command :=
      sound_iff_meets h
    constructor
    · rintro ⟨hsound, hrest⟩
      exact ⟨hone.mp hsound, (ih hsound.consistent).mp hrest⟩
    · rintro ⟨hmeets, hrest⟩
      have hsound := hone.mpr hmeets
      exact ⟨hsound, (ih hsound.consistent).mpr hrest⟩

/-- A config that names its placeholder for the Proposer in two groups. -/
def templateConfig : SignerConfig where
  signerGroups := ⟨[("all", ["REPLACE_WITH_PROPOSER_DID"]),
    ("proposers", ["REPLACE_WITH_PROPOSER_DID"]), ("maintainers", [])], by decide⟩
  signerKeys := [⟨"REPLACE_WITH_PROPOSER_DID", none, []⟩]
  policy := []
  others := []

def firstKey : String :=
  "did:jwk:eyJrdHkiOiJPS1AiLCJjcnYiOiJFZDI1NTE5IiwieCI6IjExcVlBWUt4Q3JmVlNfN1R5V1FIT2c3aGN2UGFwaU1scndJYWFQY0hVUm8ifQ"

def secondKey : String :=
  "did:jwk:eyJrdHkiOiJPS1AiLCJjcnYiOiJFZDI1NTE5IiwieCI6IlBVQVh3LWhEaVZxU3R3cW5UUnQtdkp5WUxNOHV4SmFNd00xVjhTcjBaZ3cifQ"

/-- The parts of the program around it, for these two keys. -/
def twoKeys : Deps where
  texts := jsonTexts
  resolve := id
  validUrl := fun _ => true
  didJwkToJwk := fun did =>
    if did = firstKey then
      some (.obj [("kty", .str "OKP"), ("crv", .str "Ed25519"),
        ("x", .str "11qYAYKxCrfVS_7TyWQHOg7hcvPapiMlrwIaaPcHURo")])
    else if did = secondKey then
      some (.obj [("kty", .str "OKP"), ("crv", .str "Ed25519"),
        ("x", .str "PUAXw-hDiVqStwqnTRt-vJyYLM8uxJaMwM1V8Sr0Zgw")])
    else none
  runtimeDid := fun _ => none
  homeFlag := ""

def draftTarget : SignerTarget := ⟨"/m/config/demo.json", false⟩

/-- The Proposer, a Maintainer, and the Maintainer out again. -/
theorem signers_stay_consistent_template : AlongCommands twoKeys draftTarget "demo"
    (Sound twoKeys draftTarget "demo") templateConfig
    [.add { proposer := some firstKey }, .add { maintainer := some secondKey },
      .remove secondKey] :=
  (signers_stay_consistent_iff (by decide) _).mpr
    ⟨fun _ _ hproposer => by simp at hproposer, fun _ _ _ _ hgroup => by simp at hgroup, trivial,
      trivial⟩

/-- `mpas signer add --maintainer <did> --group all` takes the placeholder out of `all`, and
the group of the Proposers keeps it. -/
theorem template_loses_umbrella : templateConfig.Consistent ∧
    ¬ Sound twoKeys draftTarget "demo" templateConfig
      (.add { maintainer := some firstKey, group := some "all" }) := by
  refine ⟨by decide, fun h => ?_⟩
  exact absurd h.consistent (by decide +kernel)

end Mpas.Installer
