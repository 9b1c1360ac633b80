import Mpas.Library.Pointers
import Mpas.PolicyEngine

/-!
# JSON Pointers in policy conditions

A condition names a value by a JSON Pointer, which the engine splits and
follows step by step. On pointers that are well formed it agrees with the
standard, except that an array has a member `length`; a text that is no pointer
is followed too.

* `getJsonPointerValue_iff`: what the engine finds;
* `getJsonPointerValue_encodePath`: the text of a path leads to the value at the path;
* `getJsonPointerValue_standard_iff`: when the engine finds what the standard says.
-/

namespace Mpas.PolicyEngine

open Pointers

/-! ## What a pointer denotes -/

/-- The value that a token leads to. -/
def referenced (token : Token) : Json → Option Json
  | .obj members => members.lookup (String.ofList token)
  | .arr items => (arrayIndex? token).bind fun index => items[index]?
  | _ => none

def resolve (tokens : List Token) (value : Json) : Option Json :=
  tokens.foldlM (fun current token => referenced token current) value

/-- The text is a pointer, and resolves to the value. -/
def Denotes (value : Json) (pointer : String) (found : Json) : Prop :=
  ∃ tokens, PointerText tokens pointer.toList ∧ resolve tokens value = some found

/-- A step from a value to one inside of it. -/
inductive PathStep
  | key (name : String)
  | index (n : Nat)
  deriving DecidableEq, Repr

def PathStep.token : PathStep → Token
  | .key name => name.toList
  | .index n => Nat.toDigits 10 n

def valueAt : List PathStep → Json → Option Json
  | [], value => some value
  | .key name :: path, .obj members => (members.lookup name).bind (valueAt path)
  | .index n :: path, .arr items => items[n]?.bind (valueAt path)
  | _ :: _, _ => none

def encodePath (path : List PathStep) : String :=
  String.ofList (encode (path.map PathStep.token))

/-! ## Tokens -/

theorem replaceEscape_plain {c : Char} (h : c ≠ '~') (code value : Char) (rest : List Char) :
    replaceEscape code value (c :: rest) = c :: replaceEscape code value rest := by
  rw [replaceEscape]
  intro d tail heq
  exact absurd heq h

theorem replaceEscape_escape (code value c : Char) (rest : List Char) :
    replaceEscape code value ('~' :: c :: rest) =
      if c = code then value :: replaceEscape code value rest
      else '~' :: replaceEscape code value (c :: rest) := by
  rw [replaceEscape]

/-- The slashes of a token are unescaped first, the tildes then. -/
theorem unescape_encodeToken (token : Token) :
    replaceEscape '0' '~' (replaceEscape '1' '/' (encodeToken token)) = token := by
  induction token with
  | nil => rfl
  | cons c token ih =>
    rw [encodeToken]
    split
    · rename_i htilde
      have hinner : replaceEscape '1' '/' ('~' :: '0' :: encodeToken token) =
          '~' :: '0' :: replaceEscape '1' '/' (encodeToken token) := by
        rw [replaceEscape_escape, if_neg (by decide), replaceEscape_plain (by decide)]
      rw [hinner, replaceEscape_escape, if_pos rfl, ih, htilde]
    · rename_i htilde
      split
      · rename_i hslash
        rw [replaceEscape_escape, if_pos rfl, replaceEscape_plain (by decide), ih, hslash]
      · rw [replaceEscape_plain htilde, replaceEscape_plain htilde, ih]

theorem pointerParts_encode (tokens : List Token) :
    pointerParts (encode tokens) = tokens.map String.ofList := by
  unfold pointerParts
  rw [splitOn_encode, List.tail_cons, List.map_map]
  apply List.map_congr_left
  intro token _
  simp only [Function.comp_apply, unescape_encodeToken]

/-- The tokens that the engine follows. -/
def pointerTokens (pointer : String) : List Token :=
  (pointerParts pointer.toList).map String.toList

theorem pointerTokens_of_text {pointer : String} {tokens : List Token}
    (h : PointerText tokens pointer.toList) : pointerTokens pointer = tokens := by
  rw [pointerTokens, (pointerText_iff _ _).mp h, pointerParts_encode, List.map_map]
  simp [Function.comp_def]

/-! ## Steps -/

def lengthToken : Token := "length".toList

theorem arrayIndex_lengthToken : arrayIndex? lengthToken = none := by
  simp [arrayIndex?, IsArrayIndex, lengthToken]

theorem zipIdx_find (items : List Json) (key : String) : ∀ start,
    ((items.zipIdx start).find? fun item => decide (toString item.2 = key)).map Prod.fst =
      (arrayIndex? key.toList).bind fun index =>
        if start ≤ index then items[index - start]? else none := by
  induction items with
  | nil =>
    intro start
    cases arrayIndex? key.toList <;> simp
  | cons item items ih =>
    intro start
    rw [List.zipIdx_cons, List.find?_cons]
    by_cases hkey : toString start = key
    · have hindex : arrayIndex? key.toList = some start := by
        rw [arrayIndex?_eq_some, ← hkey]
        exact Nat.toList_repr
      simp [hkey, hindex]
    · have hindex : arrayIndex? key.toList ≠ some start := by
        intro hindex
        rw [arrayIndex?_eq_some] at hindex
        refine hkey (String.toList_injective ?_)
        rw [hindex]
        exact Nat.toList_repr
      simp only [hkey, decide_false, ih]
      cases hfound : arrayIndex? key.toList with
      | none => rfl
      | some index =>
        have hne : index ≠ start := by
          rintro rfl
          exact hindex hfound
        simp only [Option.bind_some]
        by_cases hle : start + 1 ≤ index
        · have hsub : index - start = index - (start + 1) + 1 := by omega
          rw [if_pos hle, if_pos (by omega), hsub, List.getElem?_cons_succ]
        · rw [if_neg hle, if_neg (by omega)]

/-- An own property is what the token leads to, but for the length of an array. -/
theorem ownProperty_iff (token : Token) (value found : Json) :
    ownProperty (String.ofList token) value = some found ↔
      referenced token value = some found ∨
        token = lengthToken ∧ ∃ items, value = .arr items ∧
          found = .num (.ofNat items.length) := by
  cases value with
  | arr items =>
    have hlength : String.ofList token = "length" ↔ token = lengthToken := by
      constructor
      · intro h
        have hlist := congrArg String.toList h
        rwa [String.toList_ofList] at hlist
      · rintro rfl
        rfl
    by_cases h : token = lengthToken
    · rw [ownProperty, if_pos (hlength.mpr h)]
      simp only [referenced, h, arrayIndex_lengthToken, Option.bind_none, reduceCtorEq, false_or, true_and,
        Json.arr.injEq, exists_eq_left', Option.some.injEq]
      exact eq_comm
    · rw [ownProperty, if_neg fun heq => h (hlength.mp heq), zipIdx_find, String.toList_ofList]
      simp only [referenced, h, false_and, or_false, Nat.zero_le, ↓reduceIte, Nat.sub_zero]
  | obj members => simp [ownProperty, referenced]
  | _ => simp [ownProperty, referenced]

/-! ## Paths -/

/-- The tokens end at the length of an array. -/
def EndsAtLength (value : Json) (tokens : List Token) (items : List Json) : Prop :=
  ∃ front, tokens = front ++ [lengthToken] ∧ resolve front value = some (.arr items)

theorem resolve_cons (token : Token) (tokens : List Token) (value : Json) :
    resolve (token :: tokens) value = (referenced token value).bind (resolve tokens) := by
  rw [resolve, List.foldlM_cons]
  rfl

theorem resolve_append_singleton (front : List Token) (token : Token) (value : Json) :
    resolve (front ++ [token]) value = (resolve front value).bind (referenced token) := by
  simp only [resolve, List.foldlM_append, List.foldlM_cons, List.foldlM_nil]
  cases List.foldlM (fun current token => referenced token current) value front with
  | none => rfl
  | some current => simp

theorem not_resolve_of_endsAtLength {value : Json} {tokens : List Token} {items : List Json}
    (h : EndsAtLength value tokens items) : resolve tokens value = none := by
  obtain ⟨front, rfl, hfront⟩ := h
  rw [resolve_append_singleton, hfront, Option.bind_some, referenced, arrayIndex_lengthToken,
    Option.bind_none]

/-- The steps of the engine along tokens. -/
theorem follow_iff (tokens : List Token) : ∀ value found : Json,
    (tokens.map String.ofList).foldlM (fun current part => ownProperty part current) value =
        some found ↔
      resolve tokens value = some found ∨
        ∃ items, EndsAtLength value tokens items ∧ found = .num (.ofNat items.length) := by
  induction tokens with
  | nil =>
    intro value found
    have hnever : ∀ items, ¬ EndsAtLength value [] items := by
      rintro items ⟨front, hfront, -⟩
      simp at hfront
    simp [resolve, hnever]
  | cons token tokens ih =>
    intro value found
    rw [List.map_cons, List.foldlM_cons]
    change ((ownProperty (String.ofList token) value).bind _) = some found ↔ _
    rw [Option.bind_eq_some_iff]
    constructor
    · rintro ⟨next, hnext, hrest⟩
      rw [ih] at hrest
      rcases (ownProperty_iff token value next).mp hnext with href | ⟨rfl, items, rfl, rfl⟩
      · rcases hrest with hresolve | ⟨items, ⟨front, rfl, hfront⟩, hfound⟩
        · left
          rw [resolve_cons, href]
          exact hresolve
        · refine Or.inr ⟨items, ⟨token :: front, rfl, ?_⟩, hfound⟩
          rw [resolve_cons, href]
          exact hfront
      · -- a number has no properties, so the length is the last step
        cases tokens with
        | nil =>
          rcases hrest with hresolve | ⟨items', ⟨front, hfront, -⟩, -⟩
          · cases hresolve
            exact Or.inr ⟨items, ⟨[], rfl, rfl⟩, rfl⟩
          · simp at hfront
        | cons token tokens =>
          rcases hrest with hresolve | ⟨items', ⟨front, hfront, hitems⟩, -⟩
          · rw [resolve_cons] at hresolve
            cases hresolve
          · cases front with
            | nil => cases hitems
            | cons first front =>
              rw [resolve_cons] at hitems
              cases hitems
    · rintro (hresolve | ⟨items, ⟨front, hfront, hitems⟩, rfl⟩)
      · rw [resolve_cons, Option.bind_eq_some_iff] at hresolve
        obtain ⟨next, href, hrest⟩ := hresolve
        exact ⟨next, (ownProperty_iff _ _ _).mpr (.inl href), (ih _ _).mpr (.inl hrest)⟩
      · cases front with
        | nil =>
          cases hfront
          cases hitems
          exact ⟨_, (ownProperty_iff _ _ _).mpr (.inr ⟨rfl, items, rfl, rfl⟩), rfl⟩
        | cons first front =>
          cases hfront
          rw [resolve_cons, Option.bind_eq_some_iff] at hitems
          obtain ⟨next, href, hrest⟩ := hitems
          exact ⟨next, (ownProperty_iff _ _ _).mpr (.inl href),
            (ih _ _).mpr (.inr ⟨items, ⟨front, rfl, hrest⟩, rfl⟩)⟩

/-! ## Resolution -/

/-- The engine finds what its tokens lead to, or the length of an array. -/
theorem getJsonPointerValue_iff (value : Json) (pointer : String) (found : Json) :
    getJsonPointerValue value pointer = some found ↔
      resolve (pointerTokens pointer) value = some found ∨
        ∃ items, EndsAtLength value (pointerTokens pointer) items ∧
          found = .num (.ofNat items.length) := by
  have hparts : pointerParts pointer.toList = (pointerTokens pointer).map String.ofList := by
    simp [pointerTokens, List.map_map, Function.comp_def]
  rw [getJsonPointerValue, hparts]
  exact follow_iff _ _ _

theorem resolve_valueAt : ∀ (path : List PathStep) (value found : Json),
    valueAt path value = some found → resolve (path.map PathStep.token) value = some found
  | [], value, found, h => h
  | .key name :: path, .obj members, found, h => by
    rw [valueAt, Option.bind_eq_some_iff] at h
    obtain ⟨next, hnext, hrest⟩ := h
    rw [List.map_cons, resolve_cons, PathStep.token, referenced, String.ofList_toList, hnext]
    exact resolve_valueAt path next found hrest
  | .index n :: path, .arr items, found, h => by
    rw [valueAt, Option.bind_eq_some_iff] at h
    obtain ⟨next, hnext, hrest⟩ := h
    rw [List.map_cons, resolve_cons, PathStep.token, referenced,
      (arrayIndex?_eq_some _ n).mpr rfl, Option.bind_some, hnext]
    exact resolve_valueAt path next found hrest

/-- The text of a path leads to the value at the path. -/
theorem getJsonPointerValue_encodePath {path : List PathStep} {value found : Json}
    (h : valueAt path value = some found) :
    getJsonPointerValue value (encodePath path) = some found := by
  have htext : PointerText (path.map PathStep.token) (encodePath path).toList := by
    rw [pointerText_iff, encodePath, String.toList_ofList]
  rw [getJsonPointerValue_iff, pointerTokens_of_text htext]
  exact .inl (resolve_valueAt path value found h)

/-- The engine resolves a pointer as the standard does unless it ends at the
length of an array; a text that is no pointer must lead to nothing. Paths are
followed always. -/
theorem getJsonPointerValue_standard_iff (value : Json) (pointer : String) :
    ((∀ found, getJsonPointerValue value pointer = some found ↔ Denotes value pointer found) ↔
      (∀ items, ¬ EndsAtLength value (pointerTokens pointer) items) ∧
        ((∃ tokens, PointerText tokens pointer.toList) ∨
          resolve (pointerTokens pointer) value = none)) ∧
    ∀ path found, valueAt path value = some found →
      getJsonPointerValue value (encodePath path) = some found := by
  refine ⟨⟨fun hstandard => ⟨?_, ?_⟩, ?_⟩, fun path found => getJsonPointerValue_encodePath⟩
  · intro items hlength
    have hfound := (getJsonPointerValue_iff value pointer _).mpr (.inr ⟨items, hlength, rfl⟩)
    obtain ⟨tokens, htext, hresolve⟩ := (hstandard _).mp hfound
    rw [← pointerTokens_of_text htext, not_resolve_of_endsAtLength hlength] at hresolve
    cases hresolve
  · cases hresolve : resolve (pointerTokens pointer) value with
    | none => exact .inr rfl
    | some found =>
      have hfound := (getJsonPointerValue_iff value pointer found).mpr (.inl hresolve)
      obtain ⟨tokens, htext, -⟩ := (hstandard found).mp hfound
      exact .inl ⟨tokens, htext⟩
  · rintro ⟨hlength, htext⟩ found
    rw [getJsonPointerValue_iff]
    constructor
    · rintro (hresolve | ⟨items, hends, -⟩)
      · rcases htext with ⟨tokens, htext⟩ | hnone
        · rw [pointerTokens_of_text htext] at hresolve
          exact ⟨tokens, htext, hresolve⟩
        · rw [hnone] at hresolve
          cases hresolve
      · exact absurd hends (hlength items)
    · rintro ⟨tokens, htext, hresolve⟩
      rw [pointerTokens_of_text htext]
      exact .inl hresolve

/-- A text without a slash leads to the whole value. -/
theorem getJsonPointerValue_not_standard :
    ¬ ∀ (value : Json) (pointer : String) (found : Json),
      getJsonPointerValue value pointer = some found ↔ Denotes value pointer found := by
  intro h
  have hfound : getJsonPointerValue (.obj []) "amount" = some (.obj []) := by decide +kernel
  obtain ⟨tokens, htext, -⟩ := (h _ _ _).mp hfound
  cases htext

end Mpas.PolicyEngine
