import Mpas.DefaultRequirement

/-!
# Conditions on paths that are not there

The profile lets a condition on a missing path evaluate to false, its two
operators about existence apart. Every operator meets `undefined` in its own way.

* `conditionMatches_missing_iff`: which conditions are false of a missing path;
* `missing_is_false_iff`: so which entries such a condition keeps from matching.
-/

namespace Mpas.PolicyEngine

/-! ## Missing paths -/

def PolicyCondition.sourceOf (condition : PolicyCondition) (actionPackage : ActionPackage) : Json :=
  if condition.source = some (.str "actionEnvelope") then actionPackage.actionEnvelope.toJson
  else actionPackage.executionPayload

/-- The path of the condition resolves to nothing. -/
def PathMissing (actionPackage : ActionPackage) (condition : PolicyCondition) : Prop :=
  ∀ path, condition.path = some (.str path) →
    getJsonPointerValue (condition.sourceOf actionPackage) path = none

/-- The condition is evaluated to false, and no entry that evaluates it matches. -/
def EvaluatesFalse (actionPackage : ActionPackage) (condition : PolicyCondition) : Prop :=
  conditionMatches actionPackage condition = .ok false ∧
    ∀ (entry : PolicyEntry) (m : PolicyMatch) (before after : List (Member PolicyCondition))
      (b : Bool), entry.match_ = .given m →
        m.conditions = .given (before ++ .given condition :: after) →
        matchesConditions actionPackage before = .ok b → entryMatches actionPackage entry = .ok false

/-- What a numeric operator can compare with. -/
def ReadAsNumber : Option Json → Prop
  | none => True
  | some (.num n) => n.isFinite = true
  | some (.str s) => JsNumber.trim s.toList ≠ [] ∧ JsNumber.ofString s ≠ .nan
  | some _ => False

/-- The values that make an operator false of `undefined`. -/
def FalseOfMissing (value : Option Json) : ConditionOp → Prop
  | .eq => value ≠ none
  | .neq => value = none
  | .notIn => ∀ items, value ≠ some (.arr items)
  | .gt | .gte | .lt | .lte => ReadAsNumber value
  | .isIn | .contains | .startsWith => True
  | .exists | .notExists => False

/-! ## Comparisons with `undefined` -/

theorem toNumber_ok_iff (condition : PolicyCondition) {value : Option Json} :
    (∃ n, toNumber value condition = .ok n) ↔ ReadAsNumber value := by
  unfold toNumber ReadAsNumber
  cases value with
  | none => simp
  | some v =>
    cases v with
    | num n => by_cases hn : n.isFinite = true <;> simp [hn]
    | str s =>
      by_cases hs : JsNumber.trim s.toList ≠ [] ∧ JsNumber.ofString s ≠ .nan <;> simp [hs]
    | _ => simp

/-- `undefined` is read as `NaN`, which is in no order to a number. -/
theorem compareNumbers_missing {compare : JsNumber → JsNumber → Bool} {condition : PolicyCondition}
    (hnan : ∀ n, compare .nan n = false) :
    compareNumbers compare condition none = .ok false ↔ ReadAsNumber condition.value := by
  rw [← toNumber_ok_iff condition]
  have hleft : toNumber none condition = .ok .nan := rfl
  unfold compareNumbers
  rw [hleft]
  cases hright : toNumber condition.value condition with
  | error e => simp [bind, Except.bind]
  | ok n => simp [bind, Except.bind, pure, Except.pure, hnan]

theorem JsNumber.nan_lt (n : JsNumber) : JsNumber.lt .nan n = false := by cases n <;> rfl

theorem JsNumber.lt_nan (n : JsNumber) : JsNumber.lt n .nan = false := by
  cases n with
  | infinity negative => cases negative <;> rfl
  | _ => rfl

theorem JsNumber.nan_le (n : JsNumber) : JsNumber.le .nan n = false := by cases n <;> rfl

theorem JsNumber.le_nan (n : JsNumber) : JsNumber.le n .nan = false := by
  cases n with
  | infinity negative => cases negative <;> rfl
  | _ => rfl

theorem strictEquals_missing (value : Option Json) :
    Json.strictEquals none value = false ↔ value ≠ none := by
  cases value with
  | none => simp [Json.strictEquals]
  | some v => simp [Json.strictEquals]

/-- No member of an array is `undefined`. -/
theorem includes_missing (values : List Json) :
    (values.any fun v => Json.strictEquals (some v) none) = false := by
  rw [List.any_eq_false]
  intro v _
  simp [Json.strictEquals]

/-! ## Evaluation -/

variable {actionPackage : ActionPackage} {condition : PolicyCondition} {op : ConditionOp}

theorem validateCondition_spec {place : String}
    (h : validateCondition place (.given condition) = none) :
    ∃ op, condition.operator = some op ∧
      (op ≠ .exists → op ≠ .notExists → ∃ path, condition.path = some (.str path)) := by
  simp only [validateCondition, check_eq_none] at h
  obtain ⟨-, -, h⟩ := h
  cases hop : condition.operator with
  | none => simp [hop] at h
  | some op =>
    refine ⟨op, rfl, fun hexists hnotExists => ?_⟩
    simp only [hop, check_eq_none, not_and, Bool.not_eq_true', Bool.not_eq_false] at h
    have hpath := h.1 hexists hnotExists
    unfold isString at hpath
    split at hpath
    · rename_i path heq
      exact ⟨path, heq⟩
    · cases hpath

theorem conditionMatches_missing_iff (hop : condition.operator = some op)
    (hexists : op ≠ .exists) (hnotExists : op ≠ .notExists)
    (hpath : ∃ path, condition.path = some (.str path))
    (hmissing : PathMissing actionPackage condition) :
    conditionMatches actionPackage condition = .ok false ↔ FalseOfMissing condition.value op := by
  obtain ⟨path, hpath⟩ := hpath
  have hnone := hmissing path hpath
  unfold PolicyCondition.sourceOf at hnone
  unfold conditionMatches
  simp only [hpath, hop, hnone]
  cases op with
  | eq => simpa [FalseOfMissing] using strictEquals_missing condition.value
  | neq =>
    have h := strictEquals_missing condition.value
    cases hvalue : condition.value <;> simp_all [FalseOfMissing, Json.strictEquals]
  | isIn =>
    simp only [FalseOfMissing, iff_true, Except.ok.injEq]
    split
    · exact includes_missing _
    · rfl
  | notIn =>
    simp only [FalseOfMissing, Except.ok.injEq]
    split
    · rename_i items hitems
      simp [hitems, includes_missing]
    · rename_i hother
      simpa using hother
  | gt => exact compareNumbers_missing JsNumber.lt_nan
  | gte => exact compareNumbers_missing JsNumber.le_nan
  | lt => exact compareNumbers_missing JsNumber.nan_lt
  | lte => exact compareNumbers_missing JsNumber.nan_le
  | «exists» => exact absurd rfl hexists
  | notExists => exact absurd rfl hnotExists
  | contains => simp [FalseOfMissing]
  | startsWith => simp [FalseOfMissing]

theorem matchesConditions_append {before : List (Member PolicyCondition)} {b : Bool}
    (h : matchesConditions actionPackage before = .ok b) (after : List (Member PolicyCondition)) :
    matchesConditions actionPackage (before ++ after) =
      if b then matchesConditions actionPackage after else .ok false := by
  induction before with
  | nil =>
    cases h
    rfl
  | cons item rest ih =>
    cases item with
    | given condition =>
      rw [matchesConditions] at h
      obtain ⟨first, hfirst, h⟩ := Checks.bind_eq_ok.mp h
      rw [List.cons_append, matchesConditions, hfirst]
      cases first with
      | true => exact ih h
      | false =>
        cases h
        rfl
    | absent => cases h
    | other v => cases h

theorem evaluatesFalse_iff : EvaluatesFalse actionPackage condition ↔
    conditionMatches actionPackage condition = .ok false := by
  refine ⟨fun h => h.1, fun h => ⟨h, fun entry m before after b hentry hm hbefore => ?_⟩⟩
  have htail : matchesConditions actionPackage (.given condition :: after) = .ok false := by
    rw [matchesConditions, h]
    rfl
  have hall := matchesConditions_append hbefore (.given condition :: after)
  rw [htail, ite_self] at hall
  unfold entryMatches
  simp only [hentry, hm]
  exact hall

/-- **Missing paths.** A validated condition is false of a missing path exactly if
its operator and the value it compares with make it so. -/
theorem missing_is_false_iff (place : String) (actionPackage : ActionPackage)
    (condition : PolicyCondition) (h : validateCondition place (.given condition) = none)
    (hexists : condition.operator ≠ some .exists) (hnotExists : condition.operator ≠ some .notExists)
    (hmissing : PathMissing actionPackage condition) :
    EvaluatesFalse actionPackage condition ↔
      ∃ op, condition.operator = some op ∧ FalseOfMissing condition.value op := by
  obtain ⟨op, hop, hpath⟩ := validateCondition_spec h
  rw [hop] at hexists hnotExists
  have hne : op ≠ .exists := fun heq => hexists (by rw [heq])
  have hne' : op ≠ .notExists := fun heq => hnotExists (by rw [heq])
  rw [evaluatesFalse_iff,
    conditionMatches_missing_iff hop hne hne' (hpath hne hne') hmissing, hop]
  simp

/-- A deployment call without arguments. -/
def deployAction : ActionPackage :=
  { namelessAction "did:web:agent" with
    executionPayload := .obj [("name", .str "deploy"), ("arguments", .obj [])] }

def envCondition (op : String) (value : Json) : PolicyCondition where
  source := some (.str "executionPayload")
  path := some (.str "/arguments/env")
  op := some (.str op)
  value := some value

theorem envCondition_missing (op : String) (value : Json) :
    PathMissing deployAction (envCondition op value) := by
  intro path hpath
  cases hpath
  have hmissing : getJsonPointerValue deployAction.executionPayload "/arguments/env" = none := by
    decide +kernel
  exact hmissing

theorem missing_is_false_eq : EvaluatesFalse deployAction (envCondition "eq" (.str "prod")) := by
  refine (missing_is_false_iff "policies.deploy[0]" deployAction _ (by decide +kernel)
    (by decide +kernel) (by decide +kernel) (envCondition_missing _ _)).mpr ⟨.eq, ?_, ?_⟩
  · decide +kernel
  · simp [FalseOfMissing, envCondition]

/-- `neq` and `notIn` match, and a number that cannot be read makes the package malformed. -/
theorem missing_is_not_false :
    (validateCondition "c" (.given (envCondition "neq" (.str "prod"))) = none ∧
      PathMissing deployAction (envCondition "neq" (.str "prod")) ∧
      ¬EvaluatesFalse deployAction (envCondition "neq" (.str "prod"))) ∧
    (validateCondition "c" (.given (envCondition "notIn" (.arr [.str "prod"]))) = none ∧
      PathMissing deployAction (envCondition "notIn" (.arr [.str "prod"])) ∧
      ¬EvaluatesFalse deployAction (envCondition "notIn" (.arr [.str "prod"]))) ∧
    (validateCondition "c" (.given (envCondition "gt" (.str "many"))) = none ∧
      PathMissing deployAction (envCondition "gt" (.str "many")) ∧
      ¬EvaluatesFalse deployAction (envCondition "gt" (.str "many"))) := by
  refine ⟨⟨by decide +kernel, envCondition_missing _ _, ?_⟩,
    ⟨by decide +kernel, envCondition_missing _ _, ?_⟩,
    ⟨by decide +kernel, envCondition_missing _ _, ?_⟩⟩
  · rw [evaluatesFalse_iff]
    decide +kernel
  · rw [evaluatesFalse_iff]
    decide +kernel
  · rw [evaluatesFalse_iff]
    decide +kernel

end Mpas.PolicyEngine
