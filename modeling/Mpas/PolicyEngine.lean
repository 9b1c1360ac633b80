import Mpas.Artifacts

/-!
# The JSON Verifier policy engine

A policy arrives as JSON. Its types below keep what the evaluation can meet: a
member may be absent, or hold a value of another kind than the one expected,
and the names of the members that no evaluation reads are listed for the
validation, which refuses them.

* `validatePolicyConfig`: the profile's shape check;
* `evaluatePolicy`: which requirement is in force for an Action, and which of
  its thresholds the verified approvals leave unsatisfied.
-/

namespace Mpas.PolicyEngine

/-! ## Policy documents -/

/-- A member of an object, where the code expects an `α`. -/
inductive Member (α : Type)
  | absent
  | other (value : Json)
  | given (value : α)
  deriving DecidableEq

structure ThresholdRequirement where
  threshold : Option Json
  eligibleSignerGroup : Option Json := none
  eligibleSigners : Option Json := none
  decision : Option Json := none
  description : Option Json := none
  unexpectedKeys : List String := []
  deriving DecidableEq

inductive Requirement
  | proposerOnly (unexpectedKeys : List String)
  | threshold (requirement : ThresholdRequirement)
  | allOf (requirements : List Requirement) (unexpectedKeys : List String)
  | anyOf (requirements : List Requirement) (unexpectedKeys : List String)
  /-- `allOf` without an array of requirements -/
  | allOfNothing (unexpectedKeys : List String)
  /-- `anyOf` without an array of requirements -/
  | anyOfNothing (unexpectedKeys : List String)
  /-- any other value: of an unknown type, no object, or `undefined` -/
  | other (value : Option Json)

structure PolicyCondition where
  source : Option Json
  path : Option Json
  op : Option Json
  value : Option Json := none
  unexpectedKeys : List String := []
  deriving DecidableEq

structure PolicyMatch where
  conditions : Member (List (Member PolicyCondition))
  unexpectedKeys : List String := []
  deriving DecidableEq

structure PolicyEntry where
  reject : Option Json := none
  description : Option Json := none
  match_ : Member PolicyMatch := .absent
  /-- `none` when the entry has no such member -/
  requirements : Option Requirement := none
  context : Option Json := none
  unexpectedKeys : List String := []

structure PolicyConfig where
  defaultRequirement : Requirement
  policies : Member (List (String × Member (List (Member PolicyEntry)))) := .absent
  signerGroups : Member (List (String × Json))
  context : Option Json := none

/-! ## Results -/

structure UnsatisfiedThreshold where
  requirement : ThresholdRequirement
  requiredRole : Json
  requiredDecision : Json
  threshold : Option Json
  found : Nat
  eligibleSigners : Json
  deriving DecidableEq

inductive RejectionCode
  | ACTION_BLOCKED_BY_POLICY
  | CONFLICTING_SIGNER_DECISIONS
  deriving DecidableEq, Repr

/-- The value and the condition that an `UnparseableNumericValueError` names. -/
structure UnparseableNumericValue where
  condition : PolicyCondition
  value : Json
  deriving DecidableEq

inductive PolicyResult
  | satisfied
  | rejected (code : RejectionCode) (message : String)
  | additionalApprovalsRequired (unsatisfiedRules : List UnsatisfiedThreshold)
  /-- `NUMERIC_CONDITION_UNPARSEABLE` -/
  | malformed (cause : UnparseableNumericValue)
  deriving DecidableEq

structure VerifiedApproval where
  approval : Approval
  signerDid : Did
  decision : Decision
  createdAt : Timestamp
  deriving DecidableEq, Repr

structure VerifiedApprovals where
  actionEnvelopeHash : HashObject
  approvals : List VerifiedApproval
  deriving DecidableEq, Repr

/-! ## Validation -/

def isRecord : Option Json → Bool
  | some (.obj _) => true
  | _ => false

def isString : Option Json → Bool
  | some (.str _) => true
  | _ => false

def isNonEmptyString : Json → Bool
  | .str s => decide (s ≠ "")
  | _ => false

def isDidArray : Option Json → Bool
  | some (.arr items) => !items.isEmpty && items.all isNonEmptyString &&
      decide ((Json.distinct items).length = items.length)
  | _ => false

inductive ConditionOp
  | eq | neq | isIn | notIn | gt | gte | lt | lte | exists | notExists | contains | startsWith
  deriving DecidableEq, Repr

def ConditionOp.ofString (s : String) : Option ConditionOp :=
  [("eq", .eq), ("neq", .neq), ("in", .isIn), ("notIn", .notIn), ("gt", .gt), ("gte", .gte),
    ("lt", .lt), ("lte", .lte), ("exists", .exists), ("notExists", .notExists),
    ("contains", .contains), ("prefix", .startsWith)].lookup s

/-- The operator that the member `op` of a condition names, if it names one. -/
def PolicyCondition.operator (condition : PolicyCondition) : Option ConditionOp :=
  match condition.op with
  | some (.str s) => ConditionOp.ofString s
  | _ => none

def isPositiveInteger : Option Json → Bool
  | some (.num n) => n.isInteger && !n.lt (.finite 1)
  | _ => false

def isGroupName : Option Json → Bool
  | some (.str group) => decide (group ≠ "")
  | _ => false

def namesGroup (signerGroups : List (String × Json)) : Option Json → Bool
  | some (.str group) => (signerGroups.lookup group).isSome
  | _ => false

def isPositiveDecision : Option Json → Bool
  | none => true
  | some v => ["approve", "propose", "abstain"].any fun d => decide (v = .str d)

def validateThreshold (signerGroups : List (String × Json)) (path : String)
    (requirement : ThresholdRequirement) : Option String :=
  let hasGroup := isGroupName requirement.eligibleSignerGroup
  let hasSigners := isDidArray requirement.eligibleSigners
  if requirement.unexpectedKeys ≠ [] then some (path ++ ".threshold has unsupported fields.")
  else if !isPositiveInteger requirement.threshold then
    some (path ++ ".threshold must be a positive integer.")
  else if hasGroup = hasSigners then
    some (path ++ " must define exactly one of eligibleSignerGroup or eligibleSigners.")
  else if hasGroup && !namesGroup signerGroups requirement.eligibleSignerGroup then
    some (path ++ ".eligibleSignerGroup does not exist in signerGroups.")
  else if !isPositiveDecision requirement.decision then some (path ++ ".decision is invalid.")
  else if requirement.description ≠ none ∧ !isString requirement.description then
    some (path ++ ".description must be a string.")
  else none

mutual

def validateRequirement (signerGroups : List (String × Json)) (path : String) :
    Requirement → Option String
  | .proposerOnly unexpectedKeys =>
    if unexpectedKeys = [] then none else some (path ++ ".proposerOnly has unsupported fields.")
  | .threshold requirement => validateThreshold signerGroups path requirement
  | .allOf requirements unexpectedKeys =>
    if unexpectedKeys ≠ [] then some (path ++ ".allOf has unsupported fields.")
    else if requirements.isEmpty then some (path ++ ".requirements must be a non-empty array.")
    else validateNested signerGroups path 0 requirements
  | .anyOf requirements unexpectedKeys =>
    if unexpectedKeys ≠ [] then some (path ++ ".anyOf has unsupported fields.")
    else if requirements.isEmpty then some (path ++ ".requirements must be a non-empty array.")
    else validateNested signerGroups path 0 requirements
  | .allOfNothing unexpectedKeys =>
    if unexpectedKeys ≠ [] then some (path ++ ".allOf has unsupported fields.")
    else some (path ++ ".requirements must be a non-empty array.")
  | .anyOfNothing unexpectedKeys =>
    if unexpectedKeys ≠ [] then some (path ++ ".anyOf has unsupported fields.")
    else some (path ++ ".requirements must be a non-empty array.")
  | .other value =>
    if isString (value.bind (Json.member "type")) then some (path ++ ".type is invalid.")
    else some (path ++ " must be an approval requirement object.")

def validateNested (signerGroups : List (String × Json)) (path : String) (index : Nat) :
    List Requirement → Option String
  | [] => none
  | nested :: rest =>
    match validateRequirement signerGroups (path ++ ".requirements[" ++ toString index ++ "]")
        nested with
    | some error => some error
    | none => validateNested signerGroups path (index + 1) rest

end

def validateCondition (path : String) : Member PolicyCondition → Option String
  | .given condition =>
    if condition.unexpectedKeys ≠ [] then some (path ++ " has unsupported fields.")
    else if condition.source ≠ some (.str "executionPayload") ∧
        condition.source ≠ some (.str "actionEnvelope") then some (path ++ ".source is invalid.")
    else match condition.operator with
      | none => some (path ++ ".op is invalid.")
      | some op =>
        if op ≠ .exists ∧ op ≠ .notExists ∧ !isString condition.path then
          some (path ++ ".path is required.")
        else none
  | _ => some (path ++ " must be an object.")

/-- Validates the items of an array in order, up to the first error. -/
def validateItems {α : Type} (validate : String → α → Option String) (path : String) :
    Nat → List α → Option String
  | _, [] => none
  | index, item :: rest =>
    match validate (path ++ "[" ++ toString index ++ "]") item with
    | some error => some error
    | none => validateItems validate path (index + 1) rest

def validateMatch (path : String) : Member PolicyMatch → Option String
  | .absent => none
  | .other _ => some (path ++ " must be an object.")
  | .given m =>
    if m.unexpectedKeys ≠ [] then some (path ++ " has unsupported fields.")
    else match m.conditions with
      | .absent => none
      | .other _ => some (path ++ ".conditions must be an array.")
      | .given conditions => validateItems validateCondition (path ++ ".conditions") 0 conditions

def validatePolicyEntry (signerGroups : List (String × Json)) (path : String) :
    Member PolicyEntry → Option String
  | .given entry =>
    let isReject := decide (entry.reject = some (.bool true))
    if entry.unexpectedKeys ≠ [] then some (path ++ " has unsupported fields.")
    else if isReject = entry.requirements.isSome then
      some (path ++ " must contain either reject: true or requirements, but not both.")
    else if entry.reject ≠ none ∧ entry.reject ≠ some (.bool true) ∧
        entry.reject ≠ some (.bool false) then some (path ++ ".reject must be a boolean.")
    else if entry.description ≠ none ∧ !isString entry.description then
      some (path ++ ".description must be a string.")
    else if entry.context ≠ none ∧ !isRecord entry.context then
      some (path ++ ".context must be an object.")
    else
      let requirementError := if isReject then none
        else validateRequirement signerGroups (path ++ ".requirements")
          (entry.requirements.getD (.other none))
      match requirementError with
      | some error => some error
      | none => validateMatch (path ++ ".match") entry.match_
  | _ => some (path ++ " must be an object.")

def validateOperations (signerGroups : List (String × Json)) :
    List (String × Member (List (Member PolicyEntry))) → Option String
  | [] => none
  | (operation, .given entries) :: rest =>
    match validateItems (validatePolicyEntry signerGroups) ("policies." ++ operation) 0
        entries with
    | some error => some error
    | none => validateOperations signerGroups rest
  | (operation, _) :: _ => some ("Policy policies." ++ operation ++ " must be an array.")

def validateSignerGroups : List (String × Json) → Option String
  | [] => none
  | (groupName, signers) :: rest =>
    if isDidArray (some signers) then validateSignerGroups rest
    else some ("Policy signerGroups." ++ groupName ++
      " must be a non-empty array of unique DIDs.")

/-- The message of the first shape error, or `none` for a policy that may be evaluated. -/
def validatePolicyConfig (policy : PolicyConfig) : Option String :=
  match policy.signerGroups with
  | .given signerGroups =>
    if policy.context ≠ none ∧ !isRecord policy.context then
      some "Policy context must be an object."
    else if !isDidArray (signerGroups.lookup "all") then
      some "Policy signerGroups.all must be a non-empty array of unique DIDs."
    else match validateSignerGroups signerGroups with
      | some error => some error
      | none =>
        match validateRequirement signerGroups "defaultRequirement" policy.defaultRequirement with
        | some error => some error
        | none => match policy.policies with
          | .absent => none
          | .other _ => some "Policy policies must be an object keyed by operation name."
          | .given operations => validateOperations signerGroups operations
  | _ => some "Policy must define signerGroups."

/-! ## JSON Pointer resolution -/

/-- `part.replaceAll("~" + code, value)`. -/
def replaceEscape (code value : Char) : List Char → List Char
  | '~' :: c :: rest =>
    if c = code then value :: replaceEscape code value rest
    else '~' :: replaceEscape code value (c :: rest)
  | c :: rest => c :: replaceEscape code value rest
  | [] => []

/-- The own property `key` of an object or an array. -/
def ownProperty (key : String) : Json → Option Json
  | .obj members => members.lookup key
  | .arr items =>
    if key = "length" then some (.num (.ofNat items.length))
    else (items.zipIdx.find? fun item => decide (toString item.2 = key)).map Prod.fst
  | _ => none

def pointerParts (pointer : List Char) : List String :=
  (pointer.splitOn '/').tail.map fun part =>
    String.ofList (replaceEscape '0' '~' (replaceEscape '1' '/' part))

def getJsonPointerValue (value : Json) (pointer : String) : Option Json :=
  (pointerParts pointer.toList).foldlM (fun current part => ownProperty part current) value

/-! ## Conditions -/

inductive ConditionError
  | unparseable (cause : UnparseableNumericValue)
  | exception (error : JsError)
  deriving DecidableEq

def toNumber (value : Option Json) (condition : PolicyCondition) :
    Except ConditionError JsNumber :=
  match value with
  | none => .ok .nan
  | some v =>
    match v with
    | .num n =>
      if n.isFinite then .ok n else .error (.unparseable ⟨condition, v⟩)
    | .str s =>
      if JsNumber.trim s.toList ≠ [] ∧ JsNumber.ofString s ≠ .nan then .ok (.ofString s)
      else .error (.unparseable ⟨condition, v⟩)
    | _ => .error (.unparseable ⟨condition, v⟩)

def compareNumbers (compare : JsNumber → JsNumber → Bool) (condition : PolicyCondition)
    (actual : Option Json) : Except ConditionError Bool := do
  let left ← toNumber actual condition
  let right ← toNumber condition.value condition
  return compare left right

def conditionMatches (actionPackage : ActionPackage) (condition : PolicyCondition) :
    Except ConditionError Bool :=
  let source := if condition.source = some (.str "actionEnvelope")
    then actionPackage.actionEnvelope.toJson else actionPackage.executionPayload
  match condition.path with
  | some (.str path) =>
    let actual := getJsonPointerValue source path
    let includesActual (values : List Json) := values.any fun v => Json.strictEquals (some v) actual
    match condition.operator with
    | some .eq => .ok (Json.strictEquals actual condition.value)
    | some .neq => .ok !(Json.strictEquals actual condition.value)
    | some .isIn => .ok <| match condition.value with
      | some (.arr values) => includesActual values
      | _ => false
    | some .notIn => .ok <| match condition.value with
      | some (.arr values) => !includesActual values
      | _ => false
    | some .gt => compareNumbers (fun a b => b.lt a) condition actual
    | some .gte => compareNumbers (fun a b => b.le a) condition actual
    | some .lt => compareNumbers JsNumber.lt condition actual
    | some .lte => compareNumbers JsNumber.le condition actual
    | some .exists => .ok actual.isSome
    | some .notExists => .ok actual.isNone
    | some .contains => .ok <| match actual with
      | some (.arr values) => values.any fun v => Json.strictEquals (some v) condition.value
      | _ => false
    | some .startsWith => .ok <| match actual, condition.value with
      | some (.str text), some (.str start) => start.toList.isPrefixOf text.toList
      | _, _ => false
    | none => .ok false
  -- nothing but a string has a method `split`
  | _ => .error (.exception .typeError)

/-- `conditions.every(…)`: the conditions after one that fails are not looked at. -/
def matchesConditions (actionPackage : ActionPackage) :
    List (Member PolicyCondition) → Except ConditionError Bool
  | [] => .ok true
  | .given condition :: rest => do
    if ← conditionMatches actionPackage condition then matchesConditions actionPackage rest
    else return false
  | _ :: _ => .error (.exception .typeError)

def entryMatches (actionPackage : ActionPackage) (entry : PolicyEntry) :
    Except ConditionError Bool :=
  match entry.match_ with
  | .given m => match m.conditions with
    | .given conditions => matchesConditions actionPackage conditions
    | .absent => .ok true
    | .other v =>
      if !v.truthy || Json.strictEquals (v.member "length") (some (.num (.finite 0))) then .ok true
      else .error (.exception .typeError)
  | _ => .ok true

/-- An entry as its members are read: a value that is no object has none of them. -/
def readEntry : Member PolicyEntry → Except ConditionError PolicyEntry
  | .given entry => .ok entry
  | .other .null => .error (.exception .typeError)
  | .other _ => .ok {}
  | .absent => .error (.exception .typeError)

def collectMatching (actionPackage : ActionPackage) :
    List (Member PolicyEntry) → Except ConditionError (List PolicyEntry)
  | [] => .ok []
  | item :: rest => do
    let entry ← readEntry item
    let matched ← entryMatches actionPackage entry
    let others ← collectMatching actionPackage rest
    return if matched then entry :: others else others

/-! ## Requirements -/

/-- The value of `eligibleSigners`, if it is not falsy and of positive length. -/
def ThresholdRequirement.inlineSigners (requirement : ThresholdRequirement) :
    Except JsError (Option Json) :=
  match requirement.eligibleSigners with
  | some v =>
    if v.truthy then v.hasPositiveLength.map fun positive => if positive then some v else none
    else .ok none
  | none => .ok none

def resolveEligibleSigners (policy : PolicyConfig) (requirement : ThresholdRequirement) :
    Except JsError Json := do
  match ← requirement.inlineSigners with
  | some signers => return signers
  | none => return match requirement.eligibleSignerGroup, policy.signerGroups with
    | some (.str group), .given signerGroups =>
      if group = "" then .arr [] else (signerGroups.lookup group).getD (.arr [])
    | _, _ => .arr []

/-- The values of the set that Signers are looked up in; none of them for an empty list. -/
def eligibleSet (eligibleSigners : Json) : Except JsError (List Json) :=
  if eligibleSigners = .null then .error .typeError
  else do if ← eligibleSigners.hasPositiveLength then Json.newSet eligibleSigners else return []

def countFound (verifiedApprovals : VerifiedApprovals) (proposerDid : Did) (decision : Json)
    (eligible : List Json) : Nat :=
  ((verifiedApprovals.approvals.filter fun approval =>
    decide (approval.signerDid ≠ proposerDid) && decide (.str approval.decision.text = decision) &&
      Json.includes eligible (.str approval.signerDid)).map (·.signerDid)).dedup.length

def evaluateThreshold (verifiedApprovals : VerifiedApprovals) (policy : PolicyConfig)
    (proposerDid : Did) (requirement : ThresholdRequirement) :
    Except JsError (List UnsatisfiedThreshold) :=
  if Json.strictEquals requirement.threshold (some (.num (.finite 0))) then .ok []
  else do
    let decision := Json.nullish requirement.decision (.str "approve")
    let eligibleSigners ← resolveEligibleSigners policy requirement
    let eligible ← eligibleSet eligibleSigners
    let found := countFound verifiedApprovals proposerDid decision eligible
    if ← Json.countReaches found requirement.threshold then return []
    else return [{
      requirement
      requiredRole := Json.nullish requirement.eligibleSignerGroup (.str "unknown")
      requiredDecision := decision
      threshold := requirement.threshold
      found
      eligibleSigners }]

/-- The entry for a requirement that nothing satisfies. -/
def unsatisfiableRequirement : UnsatisfiedThreshold where
  requirement := { threshold := some (.num (.finite 1)) }
  requiredRole := .str "(unsatisfiable requirement)"
  requiredDecision := .str "approve"
  threshold := some (.num (.finite 1))
  found := 0
  eligibleSigners := .arr []

section

variable (verifiedApprovals : VerifiedApprovals) (policy : PolicyConfig) (proposerDid : Did)

mutual

/-- The unsatisfied thresholds of a requirement; none if it is satisfied. -/
def evaluateRequirement : Requirement → Except JsError (List UnsatisfiedThreshold)
  | .proposerOnly _ => .ok []
  | .threshold requirement => evaluateThreshold verifiedApprovals policy proposerDid requirement
  | .allOf requirements _ => evaluateAll requirements
  | .allOfNothing _ => .ok []
  | .anyOf [] _ => .ok [unsatisfiableRequirement]
  | .anyOf (first :: rest) _ => do
    if ← evaluateAny (first :: rest) then return []
    -- none is satisfied: the first branch stands for all of them
    evaluateRequirement first
  | .anyOfNothing _ => .ok [unsatisfiableRequirement]
  | .other none => .error .typeError
  | .other (some .null) => .error .typeError
  | .other (some _) => .ok []

def evaluateAll : List Requirement → Except JsError (List UnsatisfiedThreshold)
  | [] => .ok []
  | requirement :: rest => do
    let unsatisfied ← evaluateRequirement requirement
    let others ← evaluateAll rest
    return unsatisfied ++ others

/-- Whether some branch is satisfied; the branches after it are not evaluated. -/
def evaluateAny : List Requirement → Except JsError Bool
  | [] => .ok false
  | requirement :: rest => do
    let result ← evaluateRequirement requirement
    if result.isEmpty then return true
    evaluateAny rest

end

end

/-! ## Evaluation -/

/-- Whether some Signer occurs with two decisions; `decided` is the map so far. -/
def conflictingDecisions (decided : List (Did × Decision)) : List VerifiedApproval → Bool
  | [] => false
  | approval :: rest =>
    match decided.lookup approval.signerDid with
    | some prior =>
      if prior ≠ approval.decision then true
      else conflictingDecisions ((approval.signerDid, approval.decision) :: decided) rest
    | none => conflictingDecisions ((approval.signerDid, approval.decision) :: decided) rest

def actionNameOf (payload : Json) : Option String :=
  match payload.member "name" with
  | some (.str name) => some name
  | _ => none

/-- The entries listed under the Action's name. Of an operation whose entries
are no array, every value that is not falsy fails when it is iterated or read. -/
def policyEntriesOf (policy : PolicyConfig) (actionName : Option String) :
    Except ConditionError (List (Member PolicyEntry)) :=
  match actionName, policy.policies with
  | some name, .given operations =>
    if name = "" then .ok []
    else match operations.lookup name with
      | some (.given entries) => .ok entries
      | some (.other v) => if v.truthy then .error (.exception .typeError) else .ok []
      | some .absent | none => .ok []
  | _, _ => .ok []

/-- What the matching entries of a policy make of an Action. -/
inductive Effective
  | malformed (cause : UnparseableNumericValue)
  | blocked (message : String)
  | requires (requirement : Requirement)

def effectiveRequirement (actionPackage : ActionPackage) (policy : PolicyConfig) :
    Except JsError Effective :=
  let actionName := actionNameOf actionPackage.executionPayload
  match (policyEntriesOf policy actionName).bind (collectMatching actionPackage) with
  | .error (.unparseable cause) => .ok (.malformed cause)
  | .error (.exception e) => .error e
  | .ok matchedEntries =>
    if matchedEntries.any fun entry => decide (entry.reject = some (.bool true)) then
      .ok (.blocked ("Action " ++ actionName.getD "(unknown)" ++ " is blocked by policy."))
    else match matchedEntries.map fun entry => entry.requirements.getD (.other none) with
      | [] => .ok (.requires policy.defaultRequirement)
      | [requirement] => .ok (.requires requirement)
      | requirements => .ok (.requires (.allOf requirements []))

def evaluatePolicy (actionPackage : ActionPackage) (verifiedApprovals : VerifiedApprovals)
    (policy : PolicyConfig) : Except JsError PolicyResult :=
  if conflictingDecisions [] verifiedApprovals.approvals then
    .ok (.rejected .CONFLICTING_SIGNER_DECISIONS
      "One Signer supplied contradictory decisions for the same Action Envelope.")
  else match effectiveRequirement actionPackage policy with
    | .error e => .error e
    | .ok (.malformed cause) => .ok (.malformed cause)
    | .ok (.blocked message) => .ok (.rejected .ACTION_BLOCKED_BY_POLICY message)
    | .ok (.requires requirement) =>
      match evaluateRequirement verifiedApprovals policy actionPackage.actionEnvelope.proposer
          requirement with
      | .error e => .error e
      | .ok [] => .ok .satisfied
      | .ok unsatisfied => .ok (.additionalApprovalsRequired unsatisfied)

end Mpas.PolicyEngine
