import Mathlib.Data.Rat.Floor
import Mathlib.Data.List.Basic

/-!
# JavaScript values that came out of JSON

Numbers, JSON values and the operators of the language that the code applies to
them: strict equality, the equality of `includes` and `Set`, truth, iteration,
and the conversion of strings to numbers. `undefined` is `none`.

* `Json.decEq`: equality of JSON values is decidable;
* `Json.strings_distinct_nodup`, `Json.mem_strings_distinct`: the strings in a `Set` of values.
-/

namespace Mpas

/-- A number value. Negative zero is not kept apart: no operator here does. -/
inductive JsNumber
  | finite (q : ℚ)
  | infinity (negative : Bool)
  | nan
  deriving DecidableEq, Repr

namespace JsNumber

def ofNat (n : Nat) : JsNumber := .finite n

def lt : JsNumber → JsNumber → Bool
  | .finite a, .finite b => decide (a < b)
  | .finite _, .infinity negative => !negative
  | .infinity negative, .finite _ => negative
  | .infinity a, .infinity b => a && !b
  | _, _ => false

def le : JsNumber → JsNumber → Bool
  | .finite a, .finite b => decide (a ≤ b)
  | .finite _, .infinity negative => !negative
  | .infinity negative, .finite _ => negative
  | .infinity a, .infinity b => a || !b
  | _, _ => false

/-- `Number.isInteger`. -/
def isInteger : JsNumber → Bool
  | .finite q => decide (q.den = 1)
  | _ => false

def isFinite : JsNumber → Bool
  | .finite _ => true
  | _ => false

/-- The largest `e` with `2 ^ e ≤ q`, for positive `q`. -/
def binaryExponent (q : ℚ) : Int :=
  let e : Int := (Nat.log2 q.num.natAbs : Int) - Nat.log2 q.den
  if q < 2 ^ e then e - 1 else if 2 ^ (e + 1) ≤ q then e + 1 else e

def roundHalfEven (q : ℚ) : Int :=
  let below := q.floor
  let rest := q - below
  if rest < 1 / 2 then below else if 1 / 2 < rest then below + 1
  else if below % 2 = 0 then below else below + 1

/-- The binary64 number nearest to `q`, ties to even. -/
def roundToDouble (q : ℚ) : JsNumber :=
  if q = 0 then .finite 0
  else
    let a := |q|
    let ulp : ℚ := 2 ^ (max (binaryExponent a) (-1022) - 52)
    let r := (roundHalfEven (a / ulp) : ℚ) * ulp
    if (2 : ℚ) ^ (1024 : Nat) ≤ r then .infinity (decide (q < 0))
    else .finite (if q < 0 then -r else r)

/-! ## Arithmetic -/

def add : JsNumber → JsNumber → JsNumber
  | .finite a, .finite b => roundToDouble (a + b)
  | .finite _, .infinity negative => .infinity negative
  | .infinity negative, .finite _ => .infinity negative
  | .infinity a, .infinity b => if a = b then .infinity a else .nan
  | _, _ => .nan

/-- `Math.max(a, b)`. -/
def max : JsNumber → JsNumber → JsNumber
  | .nan, _ => .nan
  | _, .nan => .nan
  | a, b => if a.lt b then b else a

/-- `Math.min(a, b)`. -/
def min : JsNumber → JsNumber → JsNumber
  | .nan, _ => .nan
  | _, .nan => .nan
  | a, b => if b.lt a then b else a

def ofInt (n : Int) : JsNumber := .finite n

/-- `new Date(value).toISOString()`, the text kept as its milliseconds; `none`
where it throws, outside of the range of dates. -/
def toISOString : JsNumber → Option Int
  | .finite q => if |q| ≤ 8640000000000000 then
      some (if 0 ≤ q then q.floor else q.ceil) else none
  | _ => none

/-! ## `Number(text)` -/

def isStrWhiteSpace (c : Char) : Bool :=
  let n := c.toNat
  n == 0x20 || (0x09 ≤ n && n ≤ 0x0D) || n == 0xA0 || n == 0x1680 || (0x2000 ≤ n && n ≤ 0x200A) ||
    n == 0x2028 || n == 0x2029 || n == 0x202F || n == 0x205F || n == 0x3000 || n == 0xFEFF

/-- `text.trim()`. -/
def trim (text : List Char) : List Char :=
  ((text.dropWhile isStrWhiteSpace).reverse.dropWhile isStrWhiteSpace).reverse

def digitValue (c : Char) : Nat :=
  if c.isDigit then c.toNat - 48 else if c.isUpper then c.toNat - 55 else c.toNat - 87

def digitsValue (base : Nat) (digits : List Char) : Nat :=
  digits.foldl (fun acc c => acc * base + digitValue c) 0

def exponentPart : List Char → Option Int
  | [] => some 0
  | c :: rest =>
    if c = 'e' ∨ c = 'E' then
      let (negative, digits) := match rest with
        | '-' :: ds => (true, ds)
        | '+' :: ds => (false, ds)
        | ds => (false, ds)
      if digits ≠ [] ∧ digits.all Char.isDigit then
        some (if negative then -(digitsValue 10 digits : Int) else digitsValue 10 digits)
      else none
    else none

def unsignedDecimal (text : List Char) : Option JsNumber :=
  if text = "Infinity".toList then some (.infinity false)
  else
    let (whole, rest) := text.span Char.isDigit
    let (fraction, rest) := match rest with
      | '.' :: r => r.span Char.isDigit
      | r => ([], r)
    if whole = [] ∧ fraction = [] then none
    else (exponentPart rest).map fun e =>
      roundToDouble ((digitsValue 10 (whole ++ fraction) : ℚ) * 10 ^ (e - (fraction.length : Int)))

def radixLiteral (base : Nat) (isDigit : Char → Bool) (digits : List Char) : Option JsNumber :=
  if digits ≠ [] ∧ digits.all isDigit then some (roundToDouble (digitsValue base digits)) else none

def negate : JsNumber → JsNumber
  | .finite q => .finite (-q)
  | .infinity negative => .infinity !negative
  | .nan => .nan

def isHexDigit (c : Char) : Bool :=
  c.isDigit || (decide ('a' ≤ c) && decide (c ≤ 'f')) || (decide ('A' ≤ c) && decide (c ≤ 'F'))

/-- The numeric value of a string: a numeric literal between white space, else `NaN`. -/
def ofString (text : String) : JsNumber :=
  let parsed : Option JsNumber := match trim text.toList with
    | [] => some (.finite 0)
    | '0' :: c :: digits =>
      if c = 'x' ∨ c = 'X' then radixLiteral 16 isHexDigit digits
      else if c = 'o' ∨ c = 'O' then radixLiteral 8 (fun d => d.isDigit && d ≤ '7') digits
      else if c = 'b' ∨ c = 'B' then radixLiteral 2 (fun d => d == '0' || d == '1') digits
      else unsignedDecimal ('0' :: c :: digits)
    | '-' :: digits => (unsignedDecimal digits).map negate
    | '+' :: digits => unsignedDecimal digits
    | digits => unsignedDecimal digits
  parsed.getD .nan

end JsNumber

/-- A value `JSON.parse` can return. -/
inductive Json
  | null
  | bool (b : Bool)
  | num (n : JsNumber)
  | str (s : String)
  | arr (items : List Json)
  | obj (members : List (String × Json))
  deriving Repr, Inhabited

/-- The exceptions of the language that the code does not itself throw. -/
inductive JsError
  | typeError
  deriving DecidableEq, Repr

namespace Json

/-! ## Decidable equality -/

mutual

def decEq : (a b : Json) → Decidable (a = b)
  | .null, .null => .isTrue rfl
  | .bool a, .bool b => decidable_of_iff (a = b) (by simp)
  | .num a, .num b => decidable_of_iff (a = b) (by simp)
  | .str a, .str b => decidable_of_iff (a = b) (by simp)
  | .arr a, .arr b => match decEqItems a b with
    | .isTrue h => .isTrue (by rw [h])
    | .isFalse h => .isFalse (by simpa using h)
  | .obj a, .obj b => match decEqMembers a b with
    | .isTrue h => .isTrue (by rw [h])
    | .isFalse h => .isFalse (by simpa using h)
  | .null, .bool _ | .null, .num _ | .null, .str _ | .null, .arr _ | .null, .obj _
  | .bool _, .null | .bool _, .num _ | .bool _, .str _ | .bool _, .arr _ | .bool _, .obj _
  | .num _, .null | .num _, .bool _ | .num _, .str _ | .num _, .arr _ | .num _, .obj _
  | .str _, .null | .str _, .bool _ | .str _, .num _ | .str _, .arr _ | .str _, .obj _
  | .arr _, .null | .arr _, .bool _ | .arr _, .num _ | .arr _, .str _ | .arr _, .obj _
  | .obj _, .null | .obj _, .bool _ | .obj _, .num _ | .obj _, .str _ | .obj _, .arr _ =>
    .isFalse (by simp)

def decEqItems : (a b : List Json) → Decidable (a = b)
  | [], [] => .isTrue rfl
  | [], _ :: _ | _ :: _, [] => .isFalse (by simp)
  | a :: as, b :: bs => match decEq a b, decEqItems as bs with
    | .isTrue h, .isTrue h' => .isTrue (by rw [h, h'])
    | .isFalse h, _ => .isFalse fun e => h (List.cons.inj e).1
    | _, .isFalse h => .isFalse fun e => h (List.cons.inj e).2

def decEqMembers : (a b : List (String × Json)) → Decidable (a = b)
  | [], [] => .isTrue rfl
  | [], _ :: _ | _ :: _, [] => .isFalse (by simp)
  | (k, a) :: as, (l, b) :: bs => match decEq a b, decEqMembers as bs with
    | .isTrue h, .isTrue h' =>
      if hk : k = l then .isTrue (by rw [h, h', hk])
      else .isFalse fun e => hk (Prod.mk.inj (List.cons.inj e).1).1
    | .isFalse h, _ => .isFalse fun e => h (Prod.mk.inj (List.cons.inj e).1).2
    | _, .isFalse h => .isFalse fun e => h (List.cons.inj e).2

end

instance : DecidableEq Json := decEq

/-! ## Operators -/

/-- `Boolean(value)`. -/
def truthy : Json → Bool
  | .null => false
  | .bool b => b
  | .num (.finite q) => decide (q ≠ 0)
  | .num .nan => false
  | .num (.infinity _) => true
  | .str s => decide (s ≠ "")
  | .arr _ => true
  | .obj _ => true

/-- `a === b`, and the equality of `includes` and `Set`: primitives by value.
Objects and arrays are compared by identity, and no value parsed from one text
is identical to a value parsed from another, nor to another member of its own. -/
def strictEquals : Option Json → Option Json → Bool
  | none, none => true
  | some .null, some .null => true
  | some (.bool a), some (.bool b) => a == b
  | some (.num .nan), some (.num .nan) => false
  | some (.num a), some (.num b) => decide (a = b)
  | some (.str a), some (.str b) => decide (a = b)
  | _, _ => false

/-- The member `key` of an object, if it has one. -/
def member (key : String) : Json → Option Json
  | .obj members => members.lookup key
  | _ => none

mutual

/-- `String(value)` throws: the `toString` of an object is a member of its own, which
is no function. The text of an array has the texts of its elements. -/
def lacksText : Json → Bool
  | .obj members => (members.lookup "toString").isSome
  | .arr items => lackText items
  | _ => false

def lackText : List Json → Bool
  | [] => false
  | item :: rest => lacksText item || lackText rest

end

mutual

/-- The number of a value that has a text. An array is first turned into a string: of
no element `""`, of one element that element's. -/
def numberOf : Json → JsNumber
  | .null => .finite 0
  | .bool b => .finite (if b then 1 else 0)
  | .num n => n
  | .str s => JsNumber.ofString s
  | .obj _ => .nan
  | .arr items => numberOfItems items

def numberOfItems : List Json → JsNumber
  | [] => .finite 0
  | [.null] => .finite 0
  | [.bool _] => .nan
  | [item] => numberOf item
  | _ :: _ :: _ => .nan

end

/-- The number that a comparison operator makes of a value. -/
def coerceNumber (value : Json) : Except JsError JsNumber :=
  if value.lacksText then .error .typeError else .ok value.numberOf

/-- `value.length > 0`, for a value that is not `null`. -/
def hasPositiveLength : Json → Except JsError Bool
  | .arr items => .ok !items.isEmpty
  | .str s => .ok (decide (s ≠ ""))
  | .obj members => match members.lookup "length" with
    | some n => n.coerceNumber.map (JsNumber.lt (.finite 0))
    | none => .ok false
  | _ => .ok false

/-- `values.includes(value)`. -/
def includes (values : List Json) (value : Json) : Bool :=
  values.any fun v => strictEquals (some v) (some value)

/-- The values of a `Set` built from `values`: each distinct one once, in order. -/
def distinct : List Json → List Json
  | [] => []
  | v :: rest => v :: (distinct rest).filter fun w => !strictEquals (some v) (some w)

/-- `new Set(value)`: arrays and strings are iterable, nothing else is. -/
def newSet : Json → Except JsError (List Json)
  | .arr items => .ok (distinct items)
  | .str s => .ok (distinct (s.toList.map fun c => .str (String.ofList [c])))
  | _ => .error .typeError

/-- `value ?? fallback`. -/
def nullish (value : Option Json) (fallback : Json) : Json :=
  match value with
  | none => fallback
  | some .null => fallback
  | some v => v

/-- `count >= value`. -/
def countReaches (count : Nat) (value : Option Json) : Except JsError Bool :=
  match value with
  | some v => v.coerceNumber.map fun n => n.le (.ofNat count)
  | none => .ok false

@[simp] theorem coerceNumber_num (n : JsNumber) : coerceNumber (.num n) = .ok n := by
  simp [coerceNumber, lacksText, numberOf]

@[simp] theorem countReaches_ofNat (count k : Nat) :
    countReaches count (some (.num (.ofNat k))) = .ok (decide (k ≤ count)) := by
  simp [countReaches, Except.map, JsNumber.le, JsNumber.ofNat]

/-! ## The strings among a list of values -/

def asString : Json → Option String
  | .str s => some s
  | _ => none

def strings (values : List Json) : List String := values.filterMap asString

theorem asString_eq_some {v : Json} {s : String} : asString v = some s ↔ v = .str s := by
  cases v <;> simp [asString]

theorem strictEquals_str (s : String) (v : Json) :
    strictEquals (some (.str s)) (some v) = decide (v = .str s) := by
  cases v <;> simp [strictEquals, eq_comm]

theorem strictEquals_of_str (v : Json) (s : String) :
    strictEquals (some v) (some (.str s)) = decide (v = .str s) := by
  cases v with
  | num n => cases n <;> simp [strictEquals]
  | _ => simp [strictEquals]

theorem strings_filter_ne (v : Json) (values : List Json) :
    strings (values.filter fun w => !strictEquals (some v) (some w)) =
      (strings values).filter fun s => decide (v ≠ .str s) := by
  induction values with
  | nil => rfl
  | cons w rest ih =>
    cases hw : asString w with
    | some s =>
      obtain rfl := asString_eq_some.mp hw
      by_cases hv : v = .str s
      · simpa [strings, strictEquals_of_str, hv, asString] using ih
      · simpa [strings, strictEquals_of_str, hv, asString] using ih
    | none =>
      cases hs : strictEquals (some v) (some w) <;>
        simpa [strings, List.filter_cons, hs, List.filterMap_cons, hw] using ih

theorem mem_strings {s : String} {values : List Json} :
    s ∈ strings values ↔ .str s ∈ values := by
  simp [strings, List.mem_filterMap, asString_eq_some]

theorem mem_strings_distinct {s : String} {values : List Json} :
    s ∈ strings (distinct values) ↔ s ∈ strings values := by
  induction values with
  | nil => rfl
  | cons v rest ih =>
    by_cases hv : v = .str s
    · subst hv; simp [distinct, mem_strings]
    · have hs : s ∈ strings (distinct (v :: rest)) ↔ s ∈ strings (distinct rest) := by
        simp only [distinct, mem_strings, List.mem_cons, Ne.symm hv, false_or]
        rw [← mem_strings, strings_filter_ne, List.mem_filter, ← mem_strings]
        simp [hv]
      rw [hs, ih, mem_strings, mem_strings, List.mem_cons, or_iff_right (Ne.symm hv)]

theorem strings_distinct_nodup (values : List Json) : (strings (distinct values)).Nodup := by
  induction values with
  | nil => simp [distinct, strings]
  | cons v rest ih =>
    have htail := strings_filter_ne v (distinct rest)
    cases hv : asString v with
    | none =>
      simp only [distinct, strings, List.filterMap_cons, hv] at htail ⊢
      rw [htail]
      exact ih.filter _
    | some s =>
      obtain rfl := asString_eq_some.mp hv
      simp only [distinct, strings, List.filterMap_cons, asString] at htail ⊢
      rw [htail, List.nodup_cons]
      exact ⟨by simp, ih.filter _⟩

theorem length_distinct_le (values : List Json) : (distinct values).length ≤ values.length := by
  induction values with
  | nil => simp [distinct]
  | cons v rest ih =>
    have hfilter : ((distinct rest).filter fun w => !strictEquals (some v) (some w)).length ≤
        (distinct rest).length := List.length_filter_le _ _
    simp only [distinct, List.length_cons]
    omega

theorem distinct_eq_self {values : List Json} (h : (distinct values).length = values.length) :
    distinct values = values := by
  induction values with
  | nil => rfl
  | cons v rest ih =>
    have hrest := length_distinct_le rest
    have hfilter : ((distinct rest).filter fun w => !strictEquals (some v) (some w)).length ≤
        (distinct rest).length := List.length_filter_le _ _
    simp only [distinct, List.length_cons] at h
    have hkept : ((distinct rest).filter fun w => !strictEquals (some v) (some w)).length =
        (distinct rest).length := by omega
    have hself := List.filter_eq_self.mpr (List.length_filter_eq_length_iff.mp hkept)
    rw [distinct, hself, ih (by omega)]

/-- `set.has(did)`. -/
theorem includes_str (values : List Json) (s : String) :
    includes values (.str s) = decide (s ∈ strings values) := by
  induction values with
  | nil => simp [includes, strings]
  | cons v rest ih =>
    simp only [includes, List.any_cons, strictEquals_of_str] at ih ⊢
    rw [ih]
    simp [mem_strings, eq_comm]

end Json

end Mpas
