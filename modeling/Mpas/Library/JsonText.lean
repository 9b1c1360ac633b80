import Mpas.Library.OrderedMap
import Mpas.Library.Patterns

/-!
# The grammar of JSON

JSON texts as lists of UTF-16 code units, by the grammar of the standard, with
the syntax tree that each text has and the value that the tree stands for.

* `DocumentText`: a tree and its texts;
* `Tree.evaluate`, `Parses`: the value; a name that comes twice keeps its place and its last value;
* `Tree.unique`: no object has a name twice, at any depth;
* `readString_iff`: a reader for string literals, sound and complete.
-/

namespace Mpas.JsonText

open Pattern (symbol symbols)

abbrev Text := List UInt16

def code (c : Char) : UInt16 := c.toNat.toUInt16

def codes (s : String) : Text := s.toList.map code

def quote : UInt16 := 34
def comma : UInt16 := 44
def colon : UInt16 := 58
def openBracket : UInt16 := 91
def backslash : UInt16 := 92
def closeBracket : UInt16 := 93
def openBrace : UInt16 := 123
def closeBrace : UInt16 := 125

/-! ## Trees and values -/

inductive Tree
  | null
  | bool (b : Bool)
  | number (lexeme : Text)
  | string (s : Text)
  | array (items : List Tree)
  | object (members : List (Text × Tree))

/-- `ν` are the numbers. -/
inductive Value (ν : Type)
  | null
  | bool (b : Bool)
  | number (n : ν)
  | string (s : Text)
  | array (items : List (Value ν))
  | object (members : List (Text × Value ν))

section Evaluation

variable {ν : Type} (number : Text → ν)

mutual

def Tree.evaluate : Tree → Value ν
  | .null => .null
  | .bool b => .bool b
  | .number lexeme => .number (number lexeme)
  | .string s => .string s
  | .array items => .array (evaluateItems items)
  | .object members => .object (evaluateMembers members [])

def evaluateItems : List Tree → List (Value ν)
  | [] => []
  | item :: rest => item.evaluate :: evaluateItems rest

/-- The members are defined one after the other. -/
def evaluateMembers : List (Text × Tree) → List (Text × Value ν) → List (Text × Value ν)
  | [], result => result
  | (name, item) :: rest, result =>
    evaluateMembers rest (OrderedMap.write name item.evaluate result)

end

end Evaluation

mutual

def Tree.unique : Tree → Bool
  | .array items => uniqueItems items
  | .object members => decide (members.map Prod.fst).Nodup && uniqueMembers members
  | _ => true

def uniqueItems : List Tree → Bool
  | [] => true
  | item :: rest => item.unique && uniqueItems rest

def uniqueMembers : List (Text × Tree) → Bool
  | [] => true
  | (_, item) :: rest => item.unique && uniqueMembers rest

end

/-! ## White space and numbers -/

def isWhitespace (c : UInt16) : Bool :=
  c == code ' ' || c == 9 || c == 10 || c == 13

def isDigit (c : UInt16) : Bool := code '0' ≤ c && c ≤ code '9'

def isDigitButZero (c : UInt16) : Bool := code '1' ≤ c && c ≤ code '9'

def isExponentMark (c : UInt16) : Bool := c == code 'e' || c == code 'E'

def isSign (c : UInt16) : Bool := c == code '+' || c == code '-'

def whitespace : Language UInt16 := symbols isWhitespace

def digits : Language UInt16 := symbol isDigit * symbols isDigit

def integerPart : Language UInt16 :=
  symbol (· == code '0') + symbol isDigitButZero * symbols isDigit

def fractionPart : Language UInt16 := symbol (· == code '.') * digits

def exponentPart : Language UInt16 := symbol isExponentMark * ((1 + symbol isSign) * digits)

def numberText : Language UInt16 :=
  (1 + symbol (· == code '-')) * (integerPart * ((1 + fractionPart) * (1 + exponentPart)))

/-! ## Strings -/

def hexDigit (c : UInt16) : Option UInt16 :=
  if isDigit c then some (c - code '0')
  else if code 'a' ≤ c && c ≤ code 'f' then some (c - code 'a' + 10)
  else if code 'A' ≤ c && c ≤ code 'F' then some (c - code 'A' + 10)
  else none

def hexUnit (a b c d : UInt16) : Option UInt16 := do
  let a ← hexDigit a
  let b ← hexDigit b
  let c ← hexDigit c
  let d ← hexDigit d
  return ((a * 16 + b) * 16 + c) * 16 + d

/-- What the one-letter escapes stand for. -/
def escaped (c : UInt16) : Option UInt16 :=
  if c = quote || c = backslash || c = code '/' then some c
  else if c = code 'b' then some 8
  else if c = code 'f' then some 12
  else if c = code 'n' then some 10
  else if c = code 'r' then some 13
  else if c = code 't' then some 9
  else none

inductive CharText : UInt16 → Text → Prop
  | plain {c : UInt16} (hcontrol : code ' ' ≤ c) (hquote : c ≠ quote) (hescape : c ≠ backslash) :
    CharText c [c]
  | escape {e c : UInt16} (h : escaped e = some c) : CharText c [backslash, e]
  | unicode {a b c d unit : UInt16} (h : hexUnit a b c d = some unit) :
    CharText unit [backslash, code 'u', a, b, c, d]

inductive CharsText : Text → Text → Prop
  | nil : CharsText [] []
  | cons {c : UInt16} {s word rest : Text} (hchar : CharText c word) (hrest : CharsText s rest) :
    CharsText (c :: s) (word ++ rest)

def StringText (s word : Text) : Prop := ∃ body, CharsText s body ∧ word = quote :: body ++ [quote]

/-! ## Values -/

mutual

inductive TreeText : Tree → Text → Prop
  | null : TreeText .null (codes "null")
  | true : TreeText (.bool true) (codes "true")
  | false : TreeText (.bool false) (codes "false")
  | number {word : Text} (h : word ∈ numberText) : TreeText (.number word) word
  | string {s word : Text} (h : StringText s word) : TreeText (.string s) word
  | emptyArray {ws : Text} (h : ws ∈ whitespace) :
    TreeText (.array []) (openBracket :: ws ++ [closeBracket])
  | array {items : List Tree} {word : Text} (h : ItemsText items word) :
    TreeText (.array items) (openBracket :: word ++ [closeBracket])
  | emptyObject {ws : Text} (h : ws ∈ whitespace) :
    TreeText (.object []) (openBrace :: ws ++ [closeBrace])
  | object {members : List (Text × Tree)} {word : Text} (h : MembersText members word) :
    TreeText (.object members) (openBrace :: word ++ [closeBrace])

inductive ItemsText : List Tree → Text → Prop
  | last {item : Tree} {before word after : Text} (hbefore : before ∈ whitespace)
    (hitem : TreeText item word) (hafter : after ∈ whitespace) :
    ItemsText [item] (before ++ word ++ after)
  | more {item : Tree} {items : List Tree} {before word after rest : Text}
    (hbefore : before ∈ whitespace) (hitem : TreeText item word) (hafter : after ∈ whitespace)
    (hrest : ItemsText items rest) :
    ItemsText (item :: items) (before ++ word ++ after ++ comma :: rest)

inductive MembersText : List (Text × Tree) → Text → Prop
  | last {member : Text × Tree} {word : Text} (h : MemberText member word) :
    MembersText [member] word
  | more {member : Text × Tree} {members : List (Text × Tree)} {word rest : Text}
    (hmember : MemberText member word) (hrest : MembersText members rest) :
    MembersText (member :: members) (word ++ comma :: rest)

inductive MemberText : Text × Tree → Text → Prop
  | mk {name : Text} {item : Tree} {a key b c word d : Text} (ha : a ∈ whitespace)
    (hkey : StringText name key) (hb : b ∈ whitespace) (hc : c ∈ whitespace)
    (hitem : TreeText item word) (hd : d ∈ whitespace) :
    MemberText (name, item) (a ++ key ++ b ++ colon :: (c ++ word ++ d))

end

def DocumentText (tree : Tree) (text : Text) : Prop :=
  ∃ before word after, before ∈ whitespace ∧ TreeText tree word ∧ after ∈ whitespace ∧
    text = before ++ word ++ after

/-- What a parser returns that keeps the last of two members of one name. -/
def Parses {ν : Type} (number : Text → ν) (text : Text) (value : Value ν) : Prop :=
  ∃ tree, DocumentText tree text ∧ tree.evaluate number = value

theorem whitespace_append {ws word : Text} (hws : ws ∈ whitespace) (hword : word ∈ whitespace) :
    ws ++ word ∈ whitespace := by
  intro c hc
  rcases List.mem_append.mp hc with hleft | hright
  · exact hws c hleft
  · exact hword c hright

theorem MemberText.of_whitespace {member : Text × Tree} {ws word : Text}
    (h : MemberText member word) (hws : ws ∈ whitespace) : MemberText member (ws ++ word) := by
  cases h with
  | @mk name item a key b c value d ha hkey hb hc hitem hd =>
    have hmember := MemberText.mk (whitespace_append hws ha) hkey hb hc hitem hd
    simpa only [List.append_assoc] using hmember

theorem MembersText.of_whitespace {members : List (Text × Tree)} {ws word : Text}
    (h : MembersText members word) (hws : ws ∈ whitespace) : MembersText members (ws ++ word) := by
  cases h with
  | last hmember => exact .last (hmember.of_whitespace hws)
  | more hmember hrest =>
    rw [← List.append_assoc]
    exact .more (hmember.of_whitespace hws) hrest

theorem ItemsText.of_whitespace {items : List Tree} {ws word : Text} (h : ItemsText items word)
    (hws : ws ∈ whitespace) : ItemsText items (ws ++ word) := by
  cases h with
  | last hbefore hitem hafter =>
    have hitems := ItemsText.last (whitespace_append hws hbefore) hitem hafter
    simpa only [List.append_assoc] using hitems
  | more hbefore hitem hafter hrest =>
    have hitems := ItemsText.more (whitespace_append hws hbefore) hitem hafter hrest
    simpa only [List.append_assoc] using hitems

/-! ## Reading a string literal -/

/-- Behind a backslash. -/
def readEscape : Text → Option (UInt16 × Text)
  | [] => none
  | e :: rest =>
    if e = code 'u' then
      match rest with
      | a :: b :: c :: d :: rest => (hexUnit a b c d).map fun unit => (unit, rest)
      | _ => none
    else (escaped e).map fun unit => (unit, rest)

def readChar : Text → Option (UInt16 × Text)
  | [] => none
  | c :: rest =>
    if c = backslash then readEscape rest
    else if c = quote || c < code ' ' then none
    else some (c, rest)

theorem escaped_ne_u {e c : UInt16} (h : escaped e = some c) : e ≠ code 'u' := by
  rintro rfl
  cases h

theorem readEscape_sound {text rest : Text} {c : UInt16} (h : readEscape text = some (c, rest)) :
    ∃ word, CharText c (backslash :: word) ∧ text = word ++ rest := by
  cases text with
  | nil => cases h
  | cons e text =>
    simp only [readEscape] at h
    split at h
    · rename_i hu
      split at h
      · obtain ⟨unit, hunit, heq⟩ := Option.map_eq_some_iff.mp h
        cases heq
        exact ⟨_, .unicode hunit, by rw [hu]; rfl⟩
      · cases h
    · obtain ⟨unit, hunit, heq⟩ := Option.map_eq_some_iff.mp h
      cases heq
      exact ⟨_, .escape hunit, rfl⟩

theorem readChar_sound {text rest : Text} {c : UInt16} (h : readChar text = some (c, rest)) :
    ∃ word, CharText c word ∧ text = word ++ rest := by
  cases text with
  | nil => cases h
  | cons first text =>
    simp only [readChar] at h
    split at h
    · rename_i hescape
      obtain ⟨word, hchar, rfl⟩ := readEscape_sound h
      exact ⟨_, hchar, by rw [hescape]; rfl⟩
    · rename_i hescape
      split at h
      · cases h
      · rename_i hplain
        cases h
        simp only [Bool.or_eq_true, decide_eq_true_eq, not_or] at hplain
        exact ⟨[c], .plain (UInt16.not_lt.mp hplain.2) hplain.1 hescape, rfl⟩

theorem readChar_complete {c : UInt16} {word : Text} (h : CharText c word) (rest : Text) :
    readChar (word ++ rest) = some (c, rest) := by
  cases h with
  | plain hcontrol hquote hescape =>
    have hlarge : ¬ c < code ' ' := UInt16.not_lt.mpr hcontrol
    simp [readChar, hquote, hescape, hlarge]
  | escape h => simp [readChar, readEscape, escaped_ne_u h, h]
  | unicode h => simp [readChar, readEscape, h]

theorem CharText.length_pos {c : UInt16} {word : Text} (h : CharText c word) : 0 < word.length := by
  cases h with
  | plain => exact Nat.one_pos
  | escape => exact Nat.two_pos
  | unicode => exact Nat.succ_pos 5

theorem readChar_length {text rest : Text} {c : UInt16} (h : readChar text = some (c, rest)) :
    rest.length < text.length := by
  obtain ⟨word, hchar, rfl⟩ := readChar_sound h
  have hpos := hchar.length_pos
  rw [List.length_append]
  omega

/-- Behind the opening quote: the string, and what comes after the closing quote. -/
def readChars (text : Text) : Option (Text × Text) :=
  if text.head? = some quote then some ([], text.tail)
  else
    match h : readChar text with
    | none => none
    | some (c, rest) =>
      have := readChar_length h
      (readChars rest).map fun result => (c :: result.1, result.2)
termination_by text.length

/-- All of the text is one string literal. -/
def readString : Text → Option Text
  | [] => none
  | c :: rest =>
    if c = quote then
      match readChars rest with
      | some (s, []) => some s
      | _ => none
    else none

theorem CharText.head_ne_quote {c : UInt16} {word : Text} (h : CharText c word) (rest : Text) :
    (word ++ rest).head? ≠ some quote := by
  cases h with
  | plain _ hquote _ => exact fun heq => hquote (Option.some.inj heq)
  | escape => exact fun heq => absurd (Option.some.inj heq) (by decide)
  | unicode => exact fun heq => absurd (Option.some.inj heq) (by decide)

theorem readChars_complete {s body : Text} (h : CharsText s body) (rest : Text) :
    readChars (body ++ quote :: rest) = some (s, rest) := by
  induction h with
  | nil => simp [readChars]
  | cons hchar _ ih =>
    rw [List.append_assoc, readChars, if_neg (hchar.head_ne_quote _)]
    split
    · rename_i hnone
      rw [readChar_complete hchar] at hnone
      cases hnone
    · rename_i c' rest' hsome
      rw [readChar_complete hchar] at hsome
      cases hsome
      rw [ih]
      rfl

theorem readChars_sound (text : Text) : ∀ s rest, readChars text = some (s, rest) →
    ∃ body, CharsText s body ∧ text = body ++ quote :: rest := by
  fun_induction readChars text with
  | case1 text hquote =>
    intro s rest h
    cases h
    cases text with
    | nil => cases hquote
    | cons c text =>
      cases hquote
      exact ⟨[], .nil, rfl⟩
  | case2 text hquote hnone =>
    intro s rest h
    cases h
  | case3 text hquote c next hchar _ ih =>
    intro s rest h
    obtain ⟨⟨tail, after⟩, hread, heq⟩ := Option.map_eq_some_iff.mp h
    cases heq
    obtain ⟨word, hword, rfl⟩ := readChar_sound hchar
    obtain ⟨body, hbody, hnext⟩ := ih tail after hread
    exact ⟨word ++ body, .cons hword hbody, by rw [hnext, List.append_assoc]⟩

theorem readString_iff (text s : Text) : readString text = some s ↔ StringText s text := by
  constructor
  · intro h
    cases text with
    | nil => cases h
    | cons c text =>
      simp only [readString] at h
      split at h
      · rename_i hquote
        split at h
        · rename_i s' hread
          cases h
          obtain ⟨body, hbody, rfl⟩ := readChars_sound text s [] hread
          exact ⟨body, hbody, by rw [hquote]; rfl⟩
        · cases h
      · cases h
  · rintro ⟨body, hbody, rfl⟩
    have hread : readChars (body ++ [quote]) = some (s, []) := readChars_complete hbody []
    simp [readString, hread]

end Mpas.JsonText
