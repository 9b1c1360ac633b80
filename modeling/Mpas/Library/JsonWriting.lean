import Mpas.Library.JsonText

/-!
# Writing JSON

The text that a JSON writer makes of a value, without white space, with the
escapes of the standard writer of scripting languages: control characters,
quotes, backslashes and surrogates that stand alone.

* `stringify_text`: what is written is in the grammar;
* `tree_evaluate`: and it stands for the value it was written from, when no
  object has a name twice;
* `stringify_printable`: there is no control character in it, so no line end.
-/

namespace Mpas.JsonText

open Pattern (symbol symbols)

/-! ## String literals -/

def isHighSurrogate (c : UInt16) : Bool := 0xD800 ≤ c && c ≤ 0xDBFF

def isLowSurrogate (c : UInt16) : Bool := 0xDC00 ≤ c && c ≤ 0xDFFF

def hexCode (n : UInt16) : UInt16 := if n < 10 then code '0' + n else code 'a' + (n - 10)

def unicodeEscape (c : UInt16) : Text :=
  [backslash, code 'u', hexCode (c / 4096 % 16), hexCode (c / 256 % 16), hexCode (c / 16 % 16),
    hexCode (c % 16)]

/-- A code unit that is no half of a pair. -/
def writeUnit (c : UInt16) : Text :=
  if c = quote ∨ c = backslash then [backslash, c]
  else if c = 8 then [backslash, code 'b']
  else if c = 9 then [backslash, code 't']
  else if c = 10 then [backslash, code 'n']
  else if c = 12 then [backslash, code 'f']
  else if c = 13 then [backslash, code 'r']
  else if c < code ' ' ∨ isHighSurrogate c ∨ isLowSurrogate c then unicodeEscape c
  else [c]

def writeUnits : Text → Text
  | [] => []
  | [c] => writeUnit c
  | c :: d :: rest =>
    if isHighSurrogate c && isLowSurrogate d then c :: d :: writeUnits rest
    else writeUnit c ++ writeUnits (d :: rest)

def writeString (s : Text) : Text := quote :: writeUnits s ++ [quote]

theorem exists_fin_of_lt {n : UInt16} (h : n < 16) : ∃ k : Fin 16, n = UInt16.ofNat k :=
  ⟨⟨n.toNat, h⟩, UInt16.ofNat_toNat.symm⟩

theorem hexDigit_hexCode {n : UInt16} (h : n < 16) : hexDigit (hexCode n) = some n := by
  obtain ⟨k, rfl⟩ := exists_fin_of_lt h
  revert k
  decide

theorem hexUnit_digits_of (c : UInt16) :
    hexUnit (hexCode (c / 4096 % 16)) (hexCode (c / 256 % 16)) (hexCode (c / 16 % 16))
      (hexCode (c % 16)) = some c := by
  have hlt : ∀ n : UInt16, n % 16 < 16 := fun n => UInt16.mod_lt n (by decide)
  simp only [hexUnit, hexDigit_hexCode (hlt _), Option.bind_eq_bind, Option.bind_some,
    Option.pure_def, Option.some.injEq]
  have hc : c.toNat < 65536 := c.toNat_lt
  apply UInt16.toNat_inj.mp
  simp only [UInt16.toNat_add, UInt16.toNat_mul, UInt16.toNat_mod, UInt16.toNat_div]
  simp only [show UInt16.toNat 16 = 16 from rfl, show UInt16.toNat 4096 = 4096 from rfl,
    show UInt16.toNat 256 = 256 from rfl]
  omega

theorem writeUnit_text (c : UInt16) : CharText c (writeUnit c) := by
  unfold writeUnit
  split_ifs with hmark hb ht hn hf hr hescape
  · rcases hmark with rfl | rfl
    · exact .escape rfl
    · exact .escape rfl
  · subst hb; exact .escape rfl
  · subst ht; exact .escape rfl
  · subst hn; exact .escape rfl
  · subst hf; exact .escape rfl
  · subst hr; exact .escape rfl
  · exact .unicode (hexUnit_digits_of c)
  · simp only [not_or] at hmark hescape
    exact .plain (UInt16.not_lt.mp hescape.1) hmark.1 hmark.2

theorem surrogate_text {c : UInt16} (h : isHighSurrogate c = true ∨ isLowSurrogate c = true) :
    CharText c [c] := by
  have hlow : code ' ' ≤ c ∧ c ≠ quote ∧ c ≠ backslash := by
    have hnat : 0xD800 ≤ c.toNat := by
      unfold isHighSurrogate isLowSurrogate at h
      simp only [Bool.and_eq_true, decide_eq_true_eq, UInt16.le_iff_toNat_le] at h
      have h0 : UInt16.toNat 0xD800 = 0xD800 := rfl
      have h1 : UInt16.toNat 0xDC00 = 0xDC00 := rfl
      omega
    refine ⟨UInt16.le_iff_toNat_le.mpr (Nat.le_trans (by decide) hnat), ?_, ?_⟩
    · rintro rfl
      exact absurd hnat (by decide)
    · rintro rfl
      exact absurd hnat (by decide)
  exact .plain hlow.1 hlow.2.1 hlow.2.2

theorem writeUnits_text (s : Text) : CharsText s (writeUnits s) := by
  fun_induction writeUnits s with
  | case1 => exact .nil
  | case2 c => simpa using CharsText.cons (writeUnit_text c) .nil
  | case3 c d rest hpair ih =>
    obtain ⟨hhigh, hlow⟩ := Bool.and_eq_true_iff.mp hpair
    exact .cons (surrogate_text (Or.inl hhigh)) (.cons (surrogate_text (Or.inr hlow)) ih)
  | case4 c d rest hpair ih => exact .cons (writeUnit_text c) ih

theorem writeString_text (s : Text) : StringText s (writeString s) :=
  ⟨writeUnits s, writeUnits_text s, rfl⟩

/-! ## Values -/

section Writing

variable {ν : Type} (written : ν → Text)

mutual

/-- `written` is how a number is written. -/
def Value.stringify : Value ν → Text
  | .null => codes "null"
  | .bool true => codes "true"
  | .bool false => codes "false"
  | .number n => written n
  | .string s => writeString s
  | .array items => openBracket :: stringifyItems items ++ [closeBracket]
  | .object members => openBrace :: stringifyMembers members ++ [closeBrace]

def stringifyItems : List (Value ν) → Text
  | [] => []
  | [item] => item.stringify
  | item :: next :: rest => item.stringify ++ comma :: stringifyItems (next :: rest)

def stringifyMembers : List (Text × Value ν) → Text
  | [] => []
  | [(name, item)] => writeString name ++ colon :: item.stringify
  | (name, item) :: next :: rest =>
    writeString name ++ colon :: item.stringify ++ comma :: stringifyMembers (next :: rest)

end

mutual

/-- The tree of the text that is written. -/
def Value.tree : Value ν → Tree
  | .null => .null
  | .bool b => .bool b
  | .number n => .number (written n)
  | .string s => .string s
  | .array items => .array (treeItems items)
  | .object members => .object (treeMembers members)

def treeItems : List (Value ν) → List Tree
  | [] => []
  | item :: rest => item.tree :: treeItems rest

def treeMembers : List (Text × Value ν) → List (Text × Tree)
  | [] => []
  | (name, item) :: rest => (name, item.tree) :: treeMembers rest

end

variable {written}

theorem none_whitespace : ([] : Text) ∈ whitespace := fun _ hc => absurd hc List.not_mem_nil

theorem member_text {name : Text} {tree : Tree} {word : Text} (h : TreeText tree word) :
    MemberText (name, tree) (writeString name ++ colon :: word) := by
  simpa using MemberText.mk none_whitespace (writeString_text name) none_whitespace
    none_whitespace h none_whitespace

theorem item_text {tree : Tree} {word : Text} (h : TreeText tree word) :
    ItemsText [tree] word := by
  simpa using ItemsText.last none_whitespace h none_whitespace

theorem items_text {tree : Tree} {items : List Tree} {word rest : Text} (h : TreeText tree word)
    (hrest : ItemsText items rest) : ItemsText (tree :: items) (word ++ comma :: rest) := by
  simpa using ItemsText.more none_whitespace h none_whitespace hrest

mutual

theorem stringify_text (h : ∀ n, written n ∈ numberText) : ∀ value : Value ν,
    TreeText (value.tree written) (value.stringify written)
  | .null => .null
  | .bool true => .true
  | .bool false => .false
  | .number n => .number (h n)
  | .string s => .string (writeString_text s)
  | .array [] => .emptyArray none_whitespace
  | .array (item :: rest) => .array (stringifyItems_text h (item :: rest) (List.cons_ne_nil _ _))
  | .object [] => .emptyObject none_whitespace
  | .object (member :: rest) =>
    .object (stringifyMembers_text h (member :: rest) (List.cons_ne_nil _ _))

theorem stringifyItems_text (h : ∀ n, written n ∈ numberText) : ∀ items : List (Value ν),
    items ≠ [] → ItemsText (treeItems written items) (stringifyItems written items)
  | [], hne => absurd rfl hne
  | [item], _ => item_text (stringify_text h item)
  | item :: next :: rest, _ =>
    items_text (stringify_text h item)
      (stringifyItems_text h (next :: rest) (List.cons_ne_nil _ _))

theorem stringifyMembers_text (h : ∀ n, written n ∈ numberText) :
    ∀ members : List (Text × Value ν), members ≠ [] →
      MembersText (treeMembers written members) (stringifyMembers written members)
  | [], hne => absurd rfl hne
  | [(_, item)], _ => .last (member_text (stringify_text h item))
  | (_, item) :: next :: rest, _ =>
    .more (member_text (stringify_text h item))
      (stringifyMembers_text h (next :: rest) (List.cons_ne_nil _ _))

end

/-! ## What is read back -/

theorem treeMembers_names : ∀ members : List (Text × Value ν),
    (treeMembers written members).map Prod.fst = members.map Prod.fst
  | [] => rfl
  | (name, _) :: rest => congrArg (name :: ·) (treeMembers_names rest)

variable {number : Text → ν}

mutual

theorem tree_evaluate (h : ∀ n, number (written n) = n) : ∀ value : Value ν,
    (value.tree written).unique = true → (value.tree written).evaluate number = value
  | .null, _ => rfl
  | .bool _, _ => rfl
  | .number n, _ => congrArg Value.number (h n)
  | .string _, _ => rfl
  | .array items, hunique => congrArg Value.array (treeItems_evaluate h items hunique)
  | .object members, hunique => by
    obtain ⟨hnames, hmembers⟩ := Bool.and_eq_true_iff.mp hunique
    rw [decide_eq_true_eq, treeMembers_names] at hnames
    exact congrArg Value.object
      (treeMembers_evaluate h members [] hmembers (by simpa using hnames))

theorem treeItems_evaluate (h : ∀ n, number (written n) = n) : ∀ items : List (Value ν),
    uniqueItems (treeItems written items) = true →
      evaluateItems number (treeItems written items) = items
  | [], _ => rfl
  | item :: rest, hunique => by
    obtain ⟨hitem, hrest⟩ := Bool.and_eq_true_iff.mp hunique
    exact congrArg₂ List.cons (tree_evaluate h item hitem) (treeItems_evaluate h rest hrest)

/-- New names go to the end of what is defined already. -/
theorem treeMembers_evaluate (h : ∀ n, number (written n) = n) :
    ∀ (members : List (Text × Value ν)) (result : List (Text × Value ν)),
      uniqueMembers (treeMembers written members) = true →
        ((result ++ members).map Prod.fst).Nodup →
          evaluateMembers number (treeMembers written members) result = result ++ members
  | [], result, _, _ => (List.append_nil result).symm
  | (name, item) :: rest, result, hunique, hnames => by
    obtain ⟨hitem, hrest⟩ := Bool.and_eq_true_iff.mp hunique
    have hfresh : name ∉ result.map Prod.fst := by
      rw [List.map_append, List.map_cons] at hnames
      intro hmem
      exact (List.nodup_append.mp hnames).2.2 name hmem name List.mem_cons_self rfl
    rw [treeMembers, evaluateMembers, tree_evaluate h item hitem,
      OrderedMap.write_absent hfresh item,
      treeMembers_evaluate h rest _ hrest (by simpa using hnames), List.append_assoc,
      List.singleton_append]

end

/-! ## No control characters -/

/-- Every symbol of every word has `p`. -/
def Over {γ : Type} (p : γ → Prop) (L : Language γ) : Prop := ∀ word ∈ L, ∀ c ∈ word, p c

section Over

variable {γ : Type} {p : γ → Prop} {q : γ → Bool} {L M : Language γ}

theorem Over.mul (h : Over p L) (h' : Over p M) : Over p (L * M) := by
  rintro word hword c hc
  obtain ⟨a, ha, b, hb, rfl⟩ := Language.mem_mul.mp hword
  rcases List.mem_append.mp hc with hleft | hright
  · exact h a ha c hleft
  · exact h' b hb c hright

theorem Over.add (h : Over p L) (h' : Over p M) : Over p (L + M) := by
  intro word hword c hc
  rcases (Language.mem_add L M word).mp hword with hleft | hright
  · exact h word hleft c hc
  · exact h' word hright c hc

theorem over_one : Over p (1 : Language γ) := by
  intro word hword c hc
  rw [(Language.mem_one word).mp hword] at hc
  cases hc

theorem over_symbol (h : ∀ c, q c = true → p c) : Over p (symbol q) := by
  rintro word ⟨c, hq, rfl⟩ c' hc'
  rw [List.mem_singleton.mp hc']
  exact h c hq

theorem over_symbols (h : ∀ c, q c = true → p c) : Over p (symbols q) :=
  fun _ hword c hc => h c (hword c hc)

end Over

def Printable (c : UInt16) : Prop := code ' ' ≤ c

instance (c : UInt16) : Decidable (Printable c) := inferInstanceAs (Decidable (code ' ' ≤ c))

theorem printable_of_all {word : Text} (h : (word.all fun c => decide (Printable c)) = true) :
    ∀ c ∈ word, Printable c := fun c hc => of_decide_eq_true (List.all_eq_true.mp h c hc)

theorem digit_printable (c : UInt16) (h : isDigit c = true) : Printable c := by
  simp only [isDigit, Bool.and_eq_true, decide_eq_true_eq] at h
  exact UInt16.le_trans (by decide) h.1

theorem equal_printable {d : UInt16} (h : Printable d) (c : UInt16) (hc : (c == d) = true) :
    Printable c := by
  rw [eq_of_beq hc]
  exact h

theorem either_printable {d e : UInt16} (h : Printable d) (h' : Printable e) (c : UInt16)
    (hc : (c == d || c == e) = true) : Printable c := by
  rcases Bool.or_eq_true_iff.mp hc with hd | he
  · exact equal_printable h c hd
  · exact equal_printable h' c he

theorem numberText_printable : Over Printable numberText := by
  have hdigits : Over Printable (symbols isDigit) := over_symbols digit_printable
  have hsome : Over Printable digits := (over_symbol digit_printable).mul hdigits
  have hfirst : ∀ c, isDigitButZero c = true → Printable c := by
    intro c hc
    simp only [isDigitButZero, Bool.and_eq_true, decide_eq_true_eq] at hc
    exact UInt16.le_trans (by decide) hc.1
  have hinteger : Over Printable integerPart :=
    (over_symbol (equal_printable (by decide))).add ((over_symbol hfirst).mul hdigits)
  have hfraction : Over Printable fractionPart :=
    (over_symbol (equal_printable (by decide))).mul hsome
  have hexponent : Over Printable exponentPart :=
    (over_symbol (either_printable (by decide) (by decide))).mul
      ((over_one.add (over_symbol (either_printable (by decide) (by decide)))).mul hsome)
  exact (over_one.add (over_symbol (equal_printable (by decide)))).mul
    (hinteger.mul ((over_one.add hfraction).mul (over_one.add hexponent)))

theorem hexCode_printable {n : UInt16} (h : n < 16) : Printable (hexCode n) := by
  obtain ⟨k, rfl⟩ := exists_fin_of_lt h
  revert k
  decide

theorem unicodeEscape_printable (c : UInt16) : ∀ d ∈ unicodeEscape c, Printable d := by
  have hlt : ∀ n : UInt16, n % 16 < 16 := fun n => UInt16.mod_lt n (by decide)
  unfold unicodeEscape
  simp only [List.mem_cons, List.not_mem_nil, or_false]
  rintro d (rfl | rfl | rfl | rfl | rfl | rfl)
  · decide
  · decide
  all_goals exact hexCode_printable (hlt _)

theorem writeUnit_printable (c : UInt16) : ∀ d ∈ writeUnit c, Printable d := by
  unfold writeUnit
  split_ifs with hmark _ _ _ _ _ hescape
  · rcases hmark with rfl | rfl <;> exact printable_of_all rfl
  · exact printable_of_all rfl
  · exact printable_of_all rfl
  · exact printable_of_all rfl
  · exact printable_of_all rfl
  · exact printable_of_all rfl
  · exact unicodeEscape_printable c
  · intro d hd
    rw [List.mem_singleton.mp hd]
    simp only [not_or] at hescape
    exact UInt16.not_lt.mp hescape.1

theorem surrogate_printable {c : UInt16} (h : isHighSurrogate c = true ∨ isLowSurrogate c = true) :
    Printable c := by
  cases surrogate_text h with
  | plain hcontrol => exact hcontrol

theorem writeUnits_printable (s : Text) : ∀ d ∈ writeUnits s, Printable d := by
  fun_induction writeUnits s with
  | case1 => exact fun d hd => absurd hd List.not_mem_nil
  | case2 c => exact writeUnit_printable c
  | case3 c d rest hpair ih =>
    obtain ⟨hhigh, hlow⟩ := Bool.and_eq_true_iff.mp hpair
    exact List.forall_mem_cons.mpr ⟨surrogate_printable (Or.inl hhigh),
      List.forall_mem_cons.mpr ⟨surrogate_printable (Or.inr hlow), ih⟩⟩
  | case4 c d rest hpair ih => exact List.forall_mem_append.mpr ⟨writeUnit_printable c, ih⟩

/-- Between two marks. -/
theorem enclosed_printable {a b : UInt16} {word : Text} (ha : Printable a) (hb : Printable b)
    (h : ∀ c ∈ word, Printable c) : ∀ c ∈ a :: word ++ [b], Printable c :=
  List.forall_mem_append.mpr ⟨List.forall_mem_cons.mpr ⟨ha, h⟩, List.forall_mem_singleton.mpr hb⟩

theorem writeString_printable (s : Text) : ∀ c ∈ writeString s, Printable c :=
  enclosed_printable (by decide) (by decide) (writeUnits_printable s)

/-- Two parts with a mark between them. -/
theorem joined_printable {mark : UInt16} {word word' : Text} (hmark : Printable mark)
    (h : ∀ c ∈ word, Printable c) (h' : ∀ c ∈ word', Printable c) :
    ∀ c ∈ word ++ mark :: word', Printable c :=
  List.forall_mem_append.mpr ⟨h, List.forall_mem_cons.mpr ⟨hmark, h'⟩⟩

mutual

theorem stringify_printable (h : ∀ n, written n ∈ numberText) : ∀ value : Value ν,
    ∀ c ∈ value.stringify written, Printable c
  | .null => printable_of_all rfl
  | .bool true => printable_of_all rfl
  | .bool false => printable_of_all rfl
  | .number n => numberText_printable _ (h n)
  | .string s => writeString_printable s
  | .array items =>
    enclosed_printable (by decide) (by decide) (stringifyItems_printable h items)
  | .object members =>
    enclosed_printable (by decide) (by decide) (stringifyMembers_printable h members)

theorem stringifyItems_printable (h : ∀ n, written n ∈ numberText) : ∀ items : List (Value ν),
    ∀ c ∈ stringifyItems written items, Printable c
  | [] => fun _ hc => absurd hc List.not_mem_nil
  | [item] => stringify_printable h item
  | item :: next :: rest =>
    joined_printable (by decide) (stringify_printable h item)
      (stringifyItems_printable h (next :: rest))

theorem stringifyMembers_printable (h : ∀ n, written n ∈ numberText) :
    ∀ members : List (Text × Value ν), ∀ c ∈ stringifyMembers written members, Printable c
  | [] => fun _ hc => absurd hc List.not_mem_nil
  | [(name, item)] =>
    joined_printable (by decide) (writeString_printable name) (stringify_printable h item)
  | (name, item) :: next :: rest =>
    joined_printable (by decide)
      (joined_printable (by decide) (writeString_printable name) (stringify_printable h item))
      (stringifyMembers_printable h (next :: rest))

end

end Writing

end Mpas.JsonText
