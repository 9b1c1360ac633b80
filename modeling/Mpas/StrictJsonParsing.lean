import Mpas.StrictJsonTokens

/-!
# The strict parser accepts exactly JSON without repeated names

* `sound`: what is parsed has a tree in the grammar;
* `complete`: what has a tree is parsed, or a repeated name is reported;
* `enough`: the fuel does not run out;
* `strictJsonParse_correct`: the three together, for a whole text.
-/

namespace Mpas.StrictJson

open JsonText Pattern

/-! ## What is parsed is in the grammar -/

section Soundness

variable {ν : Type} (number : Text → ν) (text : Text)

/-- The text of a tree without a repeated name, with its value. -/
def ParsedTree (i : Nat) (value : Value ν) (j : Nat) : Prop :=
  ∃ tree word, TreeText tree word ∧ tree.unique = true ∧ tree.evaluate number = value ∧
    Segment text i word j

def ParsedValue (i : Nat) (value : Value ν) (j : Nat) : Prop :=
  ∃ ws start, ws ∈ whitespace ∧ Segment text i ws start ∧ ParsedTree number text start value j

def ParsedMembers (i : Nat) (seen : List Text) (result : List (Text × Value ν)) (value : Value ν)
    (j : Nat) : Prop :=
  ∃ members word, MembersText members word ∧ uniqueMembers members = true ∧
    (members.map Prod.fst).Nodup ∧ (∀ name ∈ members.map Prod.fst, name ∉ seen) ∧
    value = .object (evaluateMembers number members result) ∧
    Segment text i (word ++ [closeBrace]) j

def ParsedItems (i : Nat) (result : List (Value ν)) (value : Value ν) (j : Nat) : Prop :=
  ∃ items word, ItemsText items word ∧ uniqueItems items = true ∧
    value = .array (result ++ evaluateItems number items) ∧
    Segment text i (word ++ [closeBracket]) j

structure Sound (fuel : Nat) : Prop where
  value : ∀ path i value j, parseValue number text fuel path i = .ok (value, j) →
    ParsedValue number text i value j
  object : ∀ path i value j, text[i]? = some openBrace →
    parseObject number text fuel path i = .ok (value, j) → ParsedTree number text i value j
  members : ∀ path i seen result value j,
    parseMembers number text fuel path i seen result = .ok (value, j) →
    ParsedMembers number text i seen result value j
  array : ∀ path i value j, text[i]? = some openBracket →
    parseArray number text fuel path i = .ok (value, j) → ParsedTree number text i value j
  items : ∀ path i result value j, parseItems number text fuel path i result = .ok (value, j) →
    ParsedItems number text i result value j

variable {number text} {fuel : Nat}

theorem startsWith_segment {word : String} {i : Nat} (h : startsWith text word i = true) :
    Segment text i (codes word) (i + (codes word).length) := by
  obtain ⟨rest, hrest⟩ := List.isPrefixOf_iff_prefix.mp h
  exact segment_of_drop hrest.symm

theorem value_sound (h : Sound number text fuel) (path : Text) (i : Nat) (value : Value ν) (j : Nat)
    (heq : parseValue number text (fuel + 1) path i = .ok (value, j)) :
    ParsedValue number text i value j := by
  obtain ⟨ws, hws, hskip⟩ := skipWhitespace_segment text i
  refine ⟨ws, skipWhitespace text i, hws, hskip, ?_⟩
  simp only [parseValue] at heq
  split at heq
  · cases heq
  · rename_i char hchar
    split at heq
    · rename_i hbrace
      exact h.object _ _ _ _ (by rw [hchar, hbrace]) heq
    split at heq
    · rename_i hbracket
      exact h.array _ _ _ _ (by rw [hchar, hbracket]) heq
    split at heq
    · split at heq
      · cases heq
      · rename_i s next hstring
        cases heq
        obtain ⟨word, hword, hsegment⟩ := parseString_sound hstring
        exact ⟨_, word, .string hword, rfl, rfl, hsegment⟩
    split at heq
    · rename_i hstart
      cases heq
      exact ⟨_, _, .true, rfl, rfl, startsWith_segment hstart⟩
    split at heq
    · rename_i hstart
      cases heq
      exact ⟨_, _, .false, rfl, rfl, startsWith_segment hstart⟩
    split at heq
    · rename_i hstart
      cases heq
      exact ⟨_, _, .null, rfl, rfl, startsWith_segment hstart⟩
    split at heq
    · rename_i lexeme rest hmatch
      cases heq
      obtain ⟨hdrop, hnumber⟩ := numberPattern_reads.sound _ _ _ hmatch
      exact ⟨_, lexeme, .number hnumber, rfl, rfl, segment_of_drop hdrop⟩
    · cases heq

theorem object_sound (h : Sound number text fuel) (path : Text) (i : Nat) (value : Value ν)
    (j : Nat) (hbrace : text[i]? = some openBrace)
    (heq : parseObject number text (fuel + 1) path i = .ok (value, j)) :
    ParsedTree number text i value j := by
  obtain ⟨ws, hws, hskip⟩ := skipWhitespace_segment text (i + 1)
  simp only [parseObject] at heq
  split at heq
  · rename_i hclose
    cases heq
    exact ⟨.object [], _, .emptyObject hws, rfl, rfl,
      Segment.cons hbrace (hskip.append (segment_one hclose))⟩
  · obtain ⟨members, word, hmembers, hunique, hnodup, -, rfl, hsegment⟩ :=
      h.members _ _ _ _ _ _ heq
    refine ⟨.object members, _, .object (hmembers.of_whitespace hws), ?_, rfl, ?_⟩
    · simp [Tree.unique, hunique, hnodup]
    · have hinner := hskip.append hsegment
      rw [← List.append_assoc] at hinner
      exact Segment.cons hbrace hinner

theorem array_sound (h : Sound number text fuel) (path : Text) (i : Nat) (value : Value ν)
    (j : Nat) (hbracket : text[i]? = some openBracket)
    (heq : parseArray number text (fuel + 1) path i = .ok (value, j)) :
    ParsedTree number text i value j := by
  obtain ⟨ws, hws, hskip⟩ := skipWhitespace_segment text (i + 1)
  simp only [parseArray] at heq
  split at heq
  · rename_i hclose
    cases heq
    exact ⟨.array [], _, .emptyArray hws, rfl, rfl,
      Segment.cons hbracket (hskip.append (segment_one hclose))⟩
  · obtain ⟨items, word, hitems, hunique, rfl, hsegment⟩ := h.items _ _ _ _ _ heq
    refine ⟨.array items, _, .array (hitems.of_whitespace hws), hunique, rfl, ?_⟩
    have hinner := hskip.append hsegment
    rw [← List.append_assoc] at hinner
    exact Segment.cons hbracket hinner

theorem members_sound (h : Sound number text fuel) (path : Text) (i : Nat) (seen : List Text)
    (result : List (Text × Value ν)) (value : Value ν) (j : Nat)
    (heq : parseMembers number text (fuel + 1) path i seen result = .ok (value, j)) :
    ParsedMembers number text i seen result value j := by
  obtain ⟨a, ha, hskip⟩ := skipWhitespace_segment text i
  simp only [parseMembers] at heq
  split at heq
  · cases heq
  rename_i name next hstring
  obtain ⟨key, hkey, hname⟩ := parseString_sound hstring
  split at heq
  · cases heq
  rename_i hnew
  have hfresh : name ∉ seen := fun hmem => hnew (List.contains_iff_mem.mpr hmem)
  obtain ⟨b, hb, hbehind⟩ := skipWhitespace_segment text next
  split at heq
  case isFalse => cases heq
  rename_i hcolon
  split at heq
  · cases heq
  rename_i item stop hvalue
  obtain ⟨c, start, hc, hbefore, tree, word, htree, hunique, rfl, hword⟩ :=
    h.value _ _ _ _ hvalue
  obtain ⟨d, hd, hafter⟩ := skipWhitespace_segment text stop
  have hmember : Segment text i (a ++ key ++ b ++ colon :: (c ++ word ++ d))
      (skipWhitespace text stop) := by
    have hinner := Segment.cons hcolon ((hbefore.append hword).append hafter)
    exact (((hskip.append hname).append hbehind).append hinner)
  split at heq
  · rename_i hcomma
    obtain ⟨members, rest, hmembers, hothers, hnodup, hseen, rfl, hrest⟩ :=
      h.members _ _ _ _ _ _ heq
    have hnot : name ∉ members.map Prod.fst :=
      fun hmem => hseen name hmem List.mem_cons_self
    refine ⟨(name, tree) :: members, _, .more (.mk ha hkey hb hc htree hd) hmembers, ?_, ?_, ?_, rfl,
      ?_⟩
    · simp [uniqueMembers, hunique, hothers]
    · exact List.nodup_cons.mpr ⟨hnot, hnodup⟩
    · intro other hother
      rcases List.mem_cons.mp hother with rfl | hmem
      · exact hfresh
      · exact fun hin => hseen other hmem (List.mem_cons_of_mem name hin)
    · have hinner := hmember.append (Segment.cons hcomma hrest)
      rw [List.append_assoc]
      exact hinner
  split at heq
  · rename_i hclose
    cases heq
    refine ⟨[(name, tree)], _, .last (.mk ha hkey hb hc htree hd), ?_, ?_, ?_, rfl,
      hmember.append (segment_one hclose)⟩
    · simp [uniqueMembers, hunique]
    · exact List.nodup_singleton name
    · intro other hother
      rw [List.mem_singleton.mp hother]
      exact hfresh
  · cases heq

theorem items_sound (h : Sound number text fuel) (path : Text) (i : Nat)
    (result : List (Value ν)) (value : Value ν) (j : Nat)
    (heq : parseItems number text (fuel + 1) path i result = .ok (value, j)) :
    ParsedItems number text i result value j := by
  simp only [parseItems] at heq
  split at heq
  · cases heq
  rename_i item stop hvalue
  obtain ⟨a, start, ha, hbefore, tree, word, htree, hunique, rfl, hword⟩ := h.value _ _ _ _ hvalue
  obtain ⟨b, hb, hafter⟩ := skipWhitespace_segment text stop
  have hitem : Segment text i (a ++ word ++ b) (skipWhitespace text stop) :=
    (hbefore.append hword).append hafter
  split at heq
  · rename_i hcomma
    obtain ⟨items, rest, hitems, hothers, rfl, hrest⟩ := h.items _ _ _ _ _ heq
    refine ⟨tree :: items, _, .more ha htree hb hitems, ?_, ?_, ?_⟩
    · simp [uniqueItems, hunique, hothers]
    · simp [evaluateItems]
    · have hinner := hitem.append (Segment.cons hcomma hrest)
      rw [List.append_assoc]
      exact hinner
  split at heq
  · rename_i hclose
    cases heq
    refine ⟨[tree], _, .last ha htree hb, ?_, rfl, hitem.append (segment_one hclose)⟩
    simp [uniqueItems, hunique]
  · cases heq

theorem sound (fuel : Nat) : Sound number text fuel := by
  induction fuel with
  | zero =>
    constructor
    · intro path i value j heq
      simp [parseValue] at heq
    · intro path i value j _ heq
      simp [parseObject] at heq
    · intro path i seen result value j heq
      simp [parseMembers] at heq
    · intro path i value j _ heq
      simp [parseArray] at heq
    · intro path i result value j heq
      simp [parseItems] at heq
  | succ fuel ih =>
    exact ⟨value_sound ih, object_sound ih, members_sound ih, array_sound ih, items_sound ih⟩

end Soundness

/-! ## What is in the grammar is parsed -/

/-- A value, or an error about a repeated name. -/
def Outcome {α : Type} (unique : Bool) (result : Except ParseError α) (a : α) : Prop :=
  match unique with
  | true => result = .ok a
  | false => ∃ key path, result = .error (.duplicateJsonKey key path)

section Completeness

variable {ν : Type} (number : Text → ν) (text : Text)

structure Complete (fuel : Nat) : Prop where
  value : ∀ path i start j ws word tree, ws ∈ whitespace → Segment text i ws start →
    TreeText tree word → Segment text start word j → Before continuesNumber (text.drop j) →
    2 * word.length + 1 ≤ fuel →
    Outcome tree.unique (parseValue number text fuel path i) (tree.evaluate number, j)
  object : ∀ path i j members word, MembersText members word →
    Segment text i (openBrace :: word ++ [closeBrace]) j → 2 * word.length + 3 ≤ fuel →
    Outcome (Tree.object members).unique (parseObject number text fuel path i)
      ((Tree.object members).evaluate number, j)
  members : ∀ path i j members word seen result, MembersText members word →
    Segment text i (word ++ [closeBrace]) j → 2 * word.length + 2 ≤ fuel →
    Outcome (decide ((members.map Prod.fst).Nodup ∧ ∀ name ∈ members.map Prod.fst, name ∉ seen) &&
        uniqueMembers members)
      (parseMembers number text fuel path i seen result)
      (.object (evaluateMembers number members result), j)
  array : ∀ path i j items word, ItemsText items word →
    Segment text i (openBracket :: word ++ [closeBracket]) j → 2 * word.length + 3 ≤ fuel →
    Outcome (Tree.array items).unique (parseArray number text fuel path i)
      ((Tree.array items).evaluate number, j)
  items : ∀ path i j items word result, ItemsText items word →
    Segment text i (word ++ [closeBracket]) j → 2 * word.length + 2 ≤ fuel →
    Outcome (uniqueItems items) (parseItems number text fuel path i result)
      (.array (result ++ evaluateItems number items), j)

variable {number text} {fuel i j k start : Nat} {ws word : Text} {c : UInt16}

theorem startsWith_self {s : String} (h : Segment text i (codes s) j) :
    startsWith text s i = true := by
  unfold startsWith
  rw [h.1, List.isPrefixOf_iff_prefix]
  exact List.prefix_append _ _

theorem startsWith_false {s : String} {first : UInt16} {rest : Text} (hs : codes s = first :: rest)
    (hc : text[i]? = some c) (hne : c ≠ first) : startsWith text s i = false := by
  obtain ⟨hlt, hget⟩ := List.getElem?_eq_some_iff.mp hc
  unfold startsWith
  rw [hs, List.drop_eq_getElem_cons hlt, hget, List.isPrefixOf_cons_cons,
    beq_eq_false_iff_ne.mpr (Ne.symm hne), Bool.false_and]

theorem startsNumber_not_space (h : c = code '-' ∨ isDigit c = true) : isWhitespace c = false := by
  rw [Bool.eq_false_iff]
  intro hspace
  simp only [isWhitespace, Bool.or_eq_true, beq_iff_eq] at hspace
  rcases h with rfl | hdigit
  · revert hspace
    decide
  · rcases hspace with ((rfl | rfl) | rfl) | rfl <;> cases hdigit

/-- No value starts with white space, or with the end of an array. -/
theorem tree_starts {tree : Tree} (h : TreeText tree word) :
    ∃ c rest, word = c :: rest ∧ isWhitespace c = false ∧ c ≠ closeBracket := by
  cases h with
  | null => exact ⟨code 'n', codes "ull", rfl, rfl, by decide⟩
  | true => exact ⟨code 't', codes "rue", rfl, rfl, by decide⟩
  | false => exact ⟨code 'f', codes "alse", rfl, rfl, by decide⟩
  | number h =>
    obtain ⟨c, rest, rfl, hc⟩ := numberText_starts h
    refine ⟨c, rest, rfl, startsNumber_not_space hc, ?_⟩
    rintro rfl
    revert hc
    decide
  | string h =>
    obtain ⟨body, -, rfl⟩ := h
    exact ⟨quote, _, rfl, rfl, by decide⟩
  | emptyArray => exact ⟨openBracket, _, rfl, rfl, by decide⟩
  | array => exact ⟨openBracket, _, rfl, rfl, by decide⟩
  | emptyObject => exact ⟨openBrace, _, rfl, rfl, by decide⟩
  | object => exact ⟨openBrace, _, rfl, rfl, by decide⟩

theorem items_start {items : List Tree} (h : ItemsText items word) :
    ∃ ws rest c tail, ws ∈ whitespace ∧ ItemsText items rest ∧ word = ws ++ rest ∧
      rest = c :: tail ∧ isWhitespace c = false ∧ c ≠ closeBracket := by
  have hnone : ([] : Text) ∈ whitespace := fun c hc => absurd hc List.not_mem_nil
  cases h with
  | @last item before w after hbefore hitem hafter =>
    obtain ⟨c, tail, hstarts, hc⟩ := tree_starts hitem
    refine ⟨before, w ++ after, c, tail ++ after, hbefore, .last hnone hitem hafter,
      List.append_assoc _ _ _, ?_, hc⟩
    rw [hstarts]
    rfl
  | @more item items before w after rest hbefore hitem hafter hrest =>
    obtain ⟨c, tail, hstarts, hc⟩ := tree_starts hitem
    refine ⟨before, w ++ after ++ comma :: rest, c, tail ++ after ++ comma :: rest, hbefore,
      .more hnone hitem hafter hrest, by simp only [List.append_assoc], ?_, hc⟩
    rw [hstarts]
    rfl

theorem member_start {member : Text × Tree} (h : MemberText member word) :
    ∃ ws rest tail, ws ∈ whitespace ∧ MemberText member rest ∧ word = ws ++ rest ∧
      rest = quote :: tail := by
  have hnone : ([] : Text) ∈ whitespace := fun c hc => absurd hc List.not_mem_nil
  cases h with
  | @mk name item a key b c w d ha hkey hb hc hitem hd =>
    have hmember := MemberText.mk hnone hkey hb hc hitem hd
    obtain ⟨body, -, rfl⟩ := hkey
    exact ⟨a, _, _, ha, hmember, by simp only [List.append_assoc, List.nil_append], rfl⟩

theorem members_start {members : List (Text × Tree)} (h : MembersText members word) :
    ∃ ws rest tail, ws ∈ whitespace ∧ MembersText members rest ∧ word = ws ++ rest ∧
      rest = quote :: tail := by
  cases h with
  | last hmember =>
    obtain ⟨ws, rest, tail, hws, hrest, hsplit, hquote⟩ := member_start hmember
    exact ⟨ws, rest, tail, hws, .last hrest, hsplit, hquote⟩
  | @more member members w others hmember hothers =>
    obtain ⟨ws, rest, tail, hws, hrest, rfl, rfl⟩ := member_start hmember
    exact ⟨ws, _, tail ++ comma :: others, hws, .more hrest hothers, List.append_assoc _ _ _, rfl⟩

theorem skipWhitespace_at (hws : ws ∈ whitespace) (hskip : Segment text i ws k)
    (hc : text[k]? = some c) (hnot : isWhitespace c = false) : skipWhitespace text i = k := by
  refine skipWhitespace_eq hws hskip fun d hd => ?_
  rw [hc] at hd
  cases hd
  exact hnot

theorem space_not_continues (h : isWhitespace c = true) : continuesNumber c = false := by
  simp only [isWhitespace, Bool.or_eq_true, beq_iff_eq] at h
  rcases h with ((rfl | rfl) | rfl) | rfl <;> rfl

/-- Behind a value come white space and a mark, neither of which continues a number. -/
theorem before_mark (hws : ws ∈ whitespace) (hskip : Segment text i ws k)
    (hc : text[k]? = some c) (hmark : continuesNumber c = false) :
    Before continuesNumber (text.drop i) := by
  intro d hd
  rw [List.head?_drop] at hd
  cases ws with
  | nil =>
    have heq : k = i := hskip.2
    rw [heq, hd] at hc
    cases hc
    exact hmark
  | cons first rest =>
    rw [hskip.head.1] at hd
    cases hd
    exact space_not_continues (hws _ List.mem_cons_self)

theorem parseObject_empty {path : Text} (hws : ws ∈ whitespace)
    (h : Segment text i (openBrace :: ws ++ [closeBrace]) j) :
    parseObject number text (fuel + 1) path i = .ok (.object [], j) := by
  rw [List.cons_append] at h
  obtain ⟨k, hskip, hclose⟩ := h.head.2.split
  have hend : j = k + 1 := hclose.2
  simp only [parseObject, skipWhitespace_at hws hskip hclose.head.1 rfl]
  rw [if_pos hclose.head.1, hend]

theorem parseArray_empty {path : Text} (hws : ws ∈ whitespace)
    (h : Segment text i (openBracket :: ws ++ [closeBracket]) j) :
    parseArray number text (fuel + 1) path i = .ok (.array [], j) := by
  rw [List.cons_append] at h
  obtain ⟨k, hskip, hclose⟩ := h.head.2.split
  have hend : j = k + 1 := hclose.2
  simp only [parseArray, skipWhitespace_at hws hskip hclose.head.1 rfl]
  rw [if_pos hclose.head.1, hend]

theorem parseValue_number {path : Text} (hskip : skipWhitespace text i = start)
    (hnumber : word ∈ numberText) (hword : Segment text start word j)
    (hfollow : Before continuesNumber (text.drop j)) :
    parseValue number text (fuel + 1) path i = .ok (.number (number word), j) := by
  obtain ⟨c, rest, hstarts, hc⟩ := numberText_starts hnumber
  have hfirst : text[start]? = some c := by
    rw [hstarts] at hword
    exact hword.head.1
  have hother : ∀ d, d ≠ code '-' → isDigit d = false → c ≠ d := by
    rintro d hminus hdigit rfl
    rcases hc with rfl | hd
    · exact hminus rfl
    · rw [hdigit] at hd
      cases hd
  have hmatch : numberPattern (text.drop start) = some (word, text.drop j) := by
    rw [hword.1]
    exact numberPattern_reads.complete word _ hnumber hfollow
  simp only [parseValue, hskip, hfirst]
  rw [if_neg (hother _ (by decide) (by decide)), if_neg (hother _ (by decide) (by decide)),
    if_neg (hother _ (by decide) (by decide)),
    startsWith_false (s := "true") rfl hfirst (hother _ (by decide) (by decide)),
    startsWith_false (s := "false") rfl hfirst (hother _ (by decide) (by decide)),
    startsWith_false (s := "null") rfl hfirst (hother _ (by decide) (by decide)), hmatch]
  simp [hword.2]

theorem value_complete (h : Complete number text fuel) (path : Text) (i start j : Nat)
    (ws word : Text) (tree : Tree) (hws : ws ∈ whitespace) (hbefore : Segment text i ws start)
    (htree : TreeText tree word) (hword : Segment text start word j)
    (hfollow : Before continuesNumber (text.drop j)) (hfuel : 2 * word.length + 1 ≤ fuel + 1) :
    Outcome tree.unique (parseValue number text (fuel + 1) path i) (tree.evaluate number, j) := by
  have hskip : skipWhitespace text i = start := by
    obtain ⟨c, rest, hstarts, hc, -⟩ := tree_starts htree
    rw [hstarts] at hword
    exact skipWhitespace_at hws hbefore hword.head.1 hc
  cases htree with
  | null =>
    have hfirst : text[start]? = some (code 'n') := hword.head.1
    show parseValue number text (fuel + 1) path i = .ok (.null, j)
    simp only [parseValue, hskip, hfirst]
    rw [if_neg (by decide), if_neg (by decide), if_neg (by decide),
      startsWith_false (s := "true") rfl hfirst (by decide),
      startsWith_false (s := "false") rfl hfirst (by decide), startsWith_self hword]
    simp [hword.2, codes]
  | true =>
    have hfirst : text[start]? = some (code 't') := hword.head.1
    show parseValue number text (fuel + 1) path i = .ok (.bool true, j)
    simp only [parseValue, hskip, hfirst]
    rw [if_neg (by decide), if_neg (by decide), if_neg (by decide), startsWith_self hword]
    simp [hword.2, codes]
  | false =>
    have hfirst : text[start]? = some (code 'f') := hword.head.1
    show parseValue number text (fuel + 1) path i = .ok (.bool false, j)
    simp only [parseValue, hskip, hfirst]
    rw [if_neg (by decide), if_neg (by decide), if_neg (by decide),
      startsWith_false (s := "true") rfl hfirst (by decide), startsWith_self hword]
    simp [hword.2, codes]
  | number hnumber => exact parseValue_number hskip hnumber hword hfollow
  | string hstring =>
    have hparse := parseString_complete hstring hword
    obtain ⟨body, -, rfl⟩ := hstring
    have hfirst : text[start]? = some quote := hword.head.1
    simp only [Tree.unique, Tree.evaluate, Outcome, parseValue, hskip, hfirst, hparse]
    rw [if_neg (by decide), if_neg (by decide), if_pos trivial]
  | emptyArray hspace =>
    have hfirst : text[start]? = some openBracket := hword.head.1
    show parseValue number text (fuel + 1) path i = .ok (.array [], j)
    obtain ⟨fuel, rfl⟩ : ∃ less, fuel = less + 1 := Nat.exists_eq_succ_of_ne_zero (by
      rw [List.length_append, List.length_cons] at hfuel
      omega)
    simp only [parseValue, hskip, hfirst]
    rw [if_neg (by decide), if_pos trivial, parseArray_empty hspace hword]
  | array hitems =>
    have hfirst : text[start]? = some openBracket := hword.head.1
    rw [List.length_append, List.length_cons, List.length_singleton] at hfuel
    have hparse := h.array path start j _ _ hitems hword (by omega)
    simp only [parseValue, hskip, hfirst]
    rw [if_neg (by decide), if_pos trivial]
    exact hparse
  | emptyObject hspace =>
    have hfirst : text[start]? = some openBrace := hword.head.1
    show parseValue number text (fuel + 1) path i = .ok (.object [], j)
    obtain ⟨fuel, rfl⟩ : ∃ less, fuel = less + 1 := Nat.exists_eq_succ_of_ne_zero (by
      rw [List.length_append, List.length_cons] at hfuel
      omega)
    simp only [parseValue, hskip, hfirst]
    rw [if_pos trivial, parseObject_empty hspace hword]
  | object hmembers =>
    have hfirst : text[start]? = some openBrace := hword.head.1
    rw [List.length_append, List.length_cons, List.length_singleton] at hfuel
    have hparse := h.object path start j _ _ hmembers hword (by omega)
    simp only [parseValue, hskip, hfirst]
    rw [if_pos trivial]
    exact hparse

theorem object_complete (h : Complete number text fuel) (path : Text) (i j : Nat)
    (members : List (Text × Tree)) (word : Text) (hmembers : MembersText members word)
    (hword : Segment text i (openBrace :: word ++ [closeBrace]) j)
    (hfuel : 2 * word.length + 3 ≤ fuel + 1) :
    Outcome (Tree.object members).unique (parseObject number text (fuel + 1) path i)
      ((Tree.object members).evaluate number, j) := by
  obtain ⟨ws, rest, tail, hws, hrest, rfl, hquote⟩ := members_start hmembers
  rw [List.cons_append, List.append_assoc] at hword
  obtain ⟨k, hskip, hinner⟩ := hword.head.2.split
  have hfirst : text[k]? = some quote := by
    rw [hquote, List.cons_append] at hinner
    exact hinner.head.1
  rw [List.length_append] at hfuel
  have hparse := h.members path k j members rest [] [] hrest hinner (by omega)
  simp only [parseObject, skipWhitespace_at hws hskip hfirst rfl, hfirst]
  rw [if_neg (by decide)]
  simpa [Tree.unique, Tree.evaluate] using hparse

theorem array_complete (h : Complete number text fuel) (path : Text) (i j : Nat)
    (items : List Tree) (word : Text) (hitems : ItemsText items word)
    (hword : Segment text i (openBracket :: word ++ [closeBracket]) j)
    (hfuel : 2 * word.length + 3 ≤ fuel + 1) :
    Outcome (Tree.array items).unique (parseArray number text (fuel + 1) path i)
      ((Tree.array items).evaluate number, j) := by
  obtain ⟨ws, rest, c, tail, hws, hrest, rfl, hstarts, hspace, hclose⟩ := items_start hitems
  rw [List.cons_append, List.append_assoc] at hword
  obtain ⟨k, hskip, hinner⟩ := hword.head.2.split
  have hfirst : text[k]? = some c := by
    rw [hstarts, List.cons_append] at hinner
    exact hinner.head.1
  rw [List.length_append] at hfuel
  have hparse := h.items path k j items rest [] hrest hinner (by omega)
  simp only [parseArray, skipWhitespace_at hws hskip hfirst hspace, hfirst]
  rw [if_neg fun heq => hclose (Option.some.inj heq)]
  simpa [Tree.unique, Tree.evaluate] using hparse

theorem items_complete (h : Complete number text fuel) (path : Text) (i j : Nat)
    (items : List Tree) (word : Text) (result : List (Value ν)) (hitems : ItemsText items word)
    (hword : Segment text i (word ++ [closeBracket]) j) (hfuel : 2 * word.length + 2 ≤ fuel + 1) :
    Outcome (uniqueItems items) (parseItems number text (fuel + 1) path i result)
      (.array (result ++ evaluateItems number items), j) := by
  cases hitems with
  | @last item before w after hbefore hitem hafter =>
    obtain ⟨k, hleft, hclose⟩ := hword.split
    obtain ⟨stop, hleft, hbehind⟩ := hleft.split
    obtain ⟨start, hspace, hvalue⟩ := hleft.split
    simp only [List.length_append] at hfuel
    have hparse := h.value (path ++ codes ("[" ++ toString result.length ++ "]")) i start stop
      before w item hbefore hspace hitem hvalue (before_mark hafter hbehind hclose.head.1 rfl)
      (by omega)
    have hend : j = k + 1 := hclose.2
    cases hunique : item.unique with
    | false =>
      rw [hunique] at hparse
      obtain ⟨key, place, herror⟩ := hparse
      simp only [uniqueItems, hunique, Bool.false_and, Outcome, parseItems, herror]
      exact ⟨key, place, rfl⟩
    | true =>
      rw [hunique] at hparse
      have hok : parseValue number text fuel _ i = .ok (item.evaluate number, stop) := hparse
      simp only [uniqueItems, hunique, Bool.true_and, Outcome, parseItems, hok,
        skipWhitespace_at hafter hbehind hclose.head.1 rfl, hclose.head.1]
      rw [if_neg (by decide), if_pos trivial, hend]
      rfl
  | @more item items before w after rest hbefore hitem hafter hrest =>
    rw [List.append_assoc] at hword
    obtain ⟨k, hleft, hcomma⟩ := hword.split
    obtain ⟨stop, hleft, hbehind⟩ := hleft.split
    obtain ⟨start, hspace, hvalue⟩ := hleft.split
    rw [List.cons_append] at hcomma
    simp only [List.length_append, List.length_cons] at hfuel
    have hparse := h.value (path ++ codes ("[" ++ toString result.length ++ "]")) i start stop
      before w item hbefore hspace hitem hvalue (before_mark hafter hbehind hcomma.head.1 rfl)
      (by omega)
    cases hunique : item.unique with
    | false =>
      rw [hunique] at hparse
      obtain ⟨key, place, herror⟩ := hparse
      simp only [uniqueItems, hunique, Bool.false_and, Outcome, parseItems, herror]
      exact ⟨key, place, rfl⟩
    | true =>
      rw [hunique] at hparse
      have hok : parseValue number text fuel _ i = .ok (item.evaluate number, stop) := hparse
      have hothers := h.items path (k + 1) j items rest (result ++ [item.evaluate number]) hrest
        hcomma.head.2 (by omega)
      simp only [uniqueItems, hunique, Bool.true_and, parseItems, hok,
        skipWhitespace_at hafter hbehind hcomma.head.1 rfl, hcomma.head.1]
      rw [if_pos trivial]
      simpa [evaluateItems] using hothers

/-- The loop at a member that is followed by a mark. -/
theorem member_complete (h : Complete number text fuel) (path : Text) {name : Text} {item : Tree}
    {mark : UInt16} (seen : List Text) (result : List (Text × Value ν))
    (hmember : MemberText (name, item) word) (hword : Segment text i word k)
    (hmark : text[k]? = some mark) (hspace : isWhitespace mark = false)
    (hcontinues : continuesNumber mark = false) (hfuel : 2 * word.length ≤ fuel) :
    (name ∈ seen → parseMembers number text (fuel + 1) path i seen result =
        .error (.duplicateJsonKey name path)) ∧
      (name ∉ seen → item.unique = false → ∃ key place,
        parseMembers number text (fuel + 1) path i seen result =
          .error (.duplicateJsonKey key place)) ∧
      (name ∉ seen → item.unique = true →
        parseMembers number text (fuel + 1) path i seen result =
          if some mark = some comma then
            parseMembers number text fuel path (k + 1) (name :: seen)
              (OrderedMap.write name (item.evaluate number) result)
          else if some mark = some closeBrace then
            .ok (.object (OrderedMap.write name (item.evaluate number) result), k + 1)
          else .error (.syntaxError "Expected \",\" or \"\x7d\"" k)) := by
  cases hmember with
  | @mk name item a key b c w d ha hkey hb hc hitem hd =>
    obtain ⟨colonAt, hleft, hright⟩ := hword.split
    obtain ⟨behind, hleft, hbehind⟩ := hleft.split
    obtain ⟨first, hbefore, hname⟩ := hleft.split
    obtain ⟨hcolon, hright⟩ := hright.head
    obtain ⟨stop, hleft, hafter⟩ := hright.split
    obtain ⟨start, hvalueSpace, hvalue⟩ := hleft.split
    have hquote : text[first]? = some quote := by
      obtain ⟨body, -, hbody⟩ := hkey
      rw [hbody] at hname
      exact hname.head.1
    have hstring := parseString_complete hkey hname
    simp only [List.length_append, List.length_cons] at hfuel
    have hparse := h.value (path ++ code '.' :: name) (colonAt + 1) start stop c w item hc
      hvalueSpace hitem hvalue (before_mark hd hafter hmark hcontinues) (by omega)
    simp only [parseMembers, skipWhitespace_at ha hbefore hquote rfl, hstring,
      skipWhitespace_at hb hbehind hcolon rfl, hcolon, List.contains_iff_mem]
    refine ⟨fun hseen => if_pos hseen, fun hfresh hunique => ?_, fun hfresh hunique => ?_⟩
    · rw [hunique] at hparse
      obtain ⟨found, place, herror⟩ := hparse
      simp only [if_neg hfresh, herror]
      exact ⟨found, place, rfl⟩
    · rw [hunique] at hparse
      have hok : parseValue number text fuel (path ++ code '.' :: name) (colonAt + 1) =
          .ok (item.evaluate number, stop) := hparse
      simp only [if_neg hfresh, hok, skipWhitespace_at hd hafter hmark hspace, hmark]
      rfl

theorem members_complete (h : Complete number text fuel) (path : Text) (i j : Nat)
    (members : List (Text × Tree)) (word : Text) (seen : List Text)
    (result : List (Text × Value ν)) (hmembers : MembersText members word)
    (hword : Segment text i (word ++ [closeBrace]) j) (hfuel : 2 * word.length + 2 ≤ fuel + 1) :
    Outcome (decide ((members.map Prod.fst).Nodup ∧ ∀ name ∈ members.map Prod.fst, name ∉ seen) &&
        uniqueMembers members)
      (parseMembers number text (fuel + 1) path i seen result)
      (.object (evaluateMembers number members result), j) := by
  cases hmembers with
  | @last member word hmember =>
    obtain ⟨name, item⟩ := member
    obtain ⟨k, hinner, hclose⟩ := hword.split
    have hend : j = k + 1 := hclose.2
    obtain ⟨hrepeated, hinside, hread⟩ := member_complete h path seen result hmember hinner
      hclose.head.1 rfl rfl (by omega)
    by_cases hseen : name ∈ seen
    · have hfalse : decide (([(name, item)].map Prod.fst).Nodup ∧
          ∀ other ∈ [(name, item)].map Prod.fst, other ∉ seen) = false := by simp [hseen]
      rw [hfalse, hrepeated hseen]
      exact ⟨name, path, rfl⟩
    · have htrue : decide (([(name, item)].map Prod.fst).Nodup ∧
          ∀ other ∈ [(name, item)].map Prod.fst, other ∉ seen) = true := by simp [hseen]
      rw [htrue, Bool.true_and]
      cases hunique : item.unique with
      | false =>
        simp only [uniqueMembers, hunique, Bool.false_and]
        exact hinside hseen hunique
      | true =>
        simp only [uniqueMembers, hunique, Bool.true_and]
        rw [hread hseen hunique, if_neg (by decide), if_pos rfl, hend]
        rfl
  | @more member members word rest hmember hrest =>
    obtain ⟨name, item⟩ := member
    rw [List.append_assoc] at hword
    obtain ⟨k, hinner, hcomma⟩ := hword.split
    rw [List.cons_append] at hcomma
    rw [List.length_append, List.length_cons] at hfuel
    obtain ⟨hrepeated, hinside, hread⟩ := member_complete h path seen result hmember hinner
      hcomma.head.1 rfl rfl (by omega)
    by_cases hseen : name ∈ seen
    · have hfalse : decide ((((name, item) :: members).map Prod.fst).Nodup ∧
          ∀ other ∈ ((name, item) :: members).map Prod.fst, other ∉ seen) = false := by
        simp [hseen]
      rw [hfalse, hrepeated hseen]
      exact ⟨name, path, rfl⟩
    · cases hunique : item.unique with
      | false =>
        simp only [uniqueMembers, hunique, Bool.false_and, Bool.and_false]
        exact hinside hseen hunique
      | true =>
        have hothers := h.members path (k + 1) j members rest (name :: seen)
          (OrderedMap.write name (item.evaluate number) result) hrest hcomma.head.2 (by omega)
        have hsame : decide ((((name, item) :: members).map Prod.fst).Nodup ∧
            ∀ other ∈ ((name, item) :: members).map Prod.fst, other ∉ seen) =
            decide ((members.map Prod.fst).Nodup ∧
              ∀ other ∈ members.map Prod.fst, other ∉ name :: seen) := by
          rw [decide_eq_decide, List.map_cons, List.nodup_cons]
          constructor
          · rintro ⟨⟨hnot, hnodup⟩, hall⟩
            refine ⟨hnodup, fun other hother hin => ?_⟩
            rcases List.mem_cons.mp hin with rfl | hin
            · exact hnot hother
            · exact hall other (List.mem_cons_of_mem _ hother) hin
          · rintro ⟨hnodup, hall⟩
            refine ⟨⟨fun hin => hall name hin List.mem_cons_self, hnodup⟩, fun other hother => ?_⟩
            rcases List.mem_cons.mp hother with rfl | hother
            · exact hseen
            · exact fun hin => hall other hother (List.mem_cons_of_mem _ hin)
        rw [hread hseen hunique, if_pos rfl, hsame]
        simpa only [uniqueMembers, hunique, Bool.true_and, evaluateMembers] using hothers

theorem complete (fuel : Nat) : Complete number text fuel := by
  induction fuel with
  | zero =>
    constructor
    · intro path i start j ws word tree _ _ _ _ _ hfuel
      omega
    · intro path i j members word _ _ hfuel
      omega
    · intro path i j members word seen result _ _ hfuel
      omega
    · intro path i j items word _ _ hfuel
      omega
    · intro path i j items word result _ _ hfuel
      omega
  | succ fuel ih =>
    exact ⟨value_complete ih, object_complete ih, members_complete ih, array_complete ih,
      items_complete ih⟩

end Completeness

/-! ## The fuel is enough -/

section Termination

variable {ν : Type} (number : Text → ν) (text : Text)

structure Enough (fuel : Nat) : Prop where
  value : ∀ path i, 3 * (text.length - i) + 3 ≤ fuel →
    parseValue number text fuel path i ≠ .error .exhausted
  object : ∀ path i, i < text.length → 3 * (text.length - i) + 2 ≤ fuel →
    parseObject number text fuel path i ≠ .error .exhausted
  members : ∀ path i seen result, 3 * (text.length - i) + 4 ≤ fuel →
    parseMembers number text fuel path i seen result ≠ .error .exhausted
  array : ∀ path i, i < text.length → 3 * (text.length - i) + 2 ≤ fuel →
    parseArray number text fuel path i ≠ .error .exhausted
  items : ∀ path i result, 3 * (text.length - i) + 4 ≤ fuel →
    parseItems number text fuel path i result ≠ .error .exhausted

variable {number text} {fuel : Nat}

theorem skipWhitespace_le (text : Text) (i : Nat) : i ≤ skipWhitespace text i := by
  obtain ⟨ws, -, hskip⟩ := skipWhitespace_segment text i
  exact hskip.le

theorem lt_of_getElem? {c : UInt16} {i : Nat} (h : text[i]? = some c) : i < text.length :=
  (List.getElem?_eq_some_iff.mp h).1

theorem parseString_enough {i : Nat} {e : ParseError} (h : parseString text i = .error e) :
    e ≠ .exhausted := by
  unfold parseString at h
  split at h
  · split at h
    · cases h
      exact fun heq => by cases heq
    · split at h
      · cases h
      · cases h
        exact fun heq => by cases heq
  · cases h
    exact fun heq => by cases heq

theorem parseString_le {i j : Nat} {s : Text} (h : parseString text i = .ok (s, j)) : i ≤ j := by
  obtain ⟨word, -, hsegment⟩ := parseString_sound h
  exact hsegment.le

theorem parseValue_le {path : Text} {i j : Nat} {value : Value ν}
    (h : parseValue number text fuel path i = .ok (value, j)) : i ≤ j := by
  obtain ⟨ws, start, -, hskip, tree, word, -, -, -, hword⟩ := (sound fuel).value _ _ _ _ h
  exact hskip.le.trans hword.le

theorem value_enough (h : Enough number text fuel) (path : Text) (i : Nat)
    (hfuel : 3 * (text.length - i) + 3 ≤ fuel + 1) :
    parseValue number text (fuel + 1) path i ≠ .error .exhausted := by
  intro heq
  have hle := skipWhitespace_le text i
  simp only [parseValue] at heq
  split at heq
  · cases heq
  · rename_i char hchar
    have hlt := lt_of_getElem? hchar
    split at heq
    · exact h.object path _ hlt (by omega) heq
    split at heq
    · exact h.array path _ hlt (by omega) heq
    split at heq
    · split at heq
      · rename_i e herror
        cases heq
        exact parseString_enough herror rfl
      · cases heq
    split at heq
    · cases heq
    split at heq
    · cases heq
    split at heq
    · cases heq
    split at heq
    · cases heq
    · cases heq

theorem object_enough (h : Enough number text fuel) (path : Text) (i : Nat)
    (hlt : i < text.length) (hfuel : 3 * (text.length - i) + 2 ≤ fuel + 1) :
    parseObject number text (fuel + 1) path i ≠ .error .exhausted := by
  intro heq
  have hle := skipWhitespace_le text (i + 1)
  simp only [parseObject] at heq
  split at heq
  · cases heq
  · exact h.members path _ _ _ (by omega) heq

theorem array_enough (h : Enough number text fuel) (path : Text) (i : Nat)
    (hlt : i < text.length) (hfuel : 3 * (text.length - i) + 2 ≤ fuel + 1) :
    parseArray number text (fuel + 1) path i ≠ .error .exhausted := by
  intro heq
  have hle := skipWhitespace_le text (i + 1)
  simp only [parseArray] at heq
  split at heq
  · cases heq
  · exact h.items path _ _ (by omega) heq

theorem members_enough (h : Enough number text fuel) (path : Text) (i : Nat) (seen : List Text)
    (result : List (Text × Value ν)) (hfuel : 3 * (text.length - i) + 4 ≤ fuel + 1) :
    parseMembers number text (fuel + 1) path i seen result ≠ .error .exhausted := by
  intro heq
  have hfirst := skipWhitespace_le text i
  simp only [parseMembers] at heq
  split at heq
  · rename_i e herror
    cases heq
    exact parseString_enough herror rfl
  rename_i name next hstring
  have hname := parseString_le hstring
  have hsecond := skipWhitespace_le text next
  split at heq
  · cases heq
  split at heq
  case isFalse => cases heq
  rename_i hcolon
  have hcolonAt := lt_of_getElem? hcolon
  split at heq
  · rename_i e herror
    cases heq
    exact h.value _ _ (by omega) herror
  rename_i item stop hvalue
  have hitem := parseValue_le hvalue
  have hthird := skipWhitespace_le text stop
  split at heq
  · exact h.members _ _ _ _ (by omega) heq
  split at heq
  · cases heq
  · cases heq

theorem items_enough (h : Enough number text fuel) (path : Text) (i : Nat)
    (result : List (Value ν)) (hfuel : 3 * (text.length - i) + 4 ≤ fuel + 1) :
    parseItems number text (fuel + 1) path i result ≠ .error .exhausted := by
  intro heq
  simp only [parseItems] at heq
  split at heq
  · rename_i e herror
    cases heq
    exact h.value _ _ (by omega) herror
  rename_i item stop hvalue
  have hitem := parseValue_le hvalue
  have hafter := skipWhitespace_le text stop
  split at heq
  · rename_i hcomma
    have hcommaAt := lt_of_getElem? hcomma
    exact h.items _ _ _ (by omega) heq
  split at heq
  · cases heq
  · cases heq

theorem enough (fuel : Nat) : Enough number text fuel := by
  induction fuel with
  | zero =>
    constructor
    · intro path i hfuel
      omega
    · intro path i _ hfuel
      omega
    · intro path i seen result hfuel
      omega
    · intro path i _ hfuel
      omega
    · intro path i result hfuel
      omega
  | succ fuel ih =>
    exact ⟨value_enough ih, object_enough ih, members_enough ih, array_enough ih, items_enough ih⟩

end Termination

/-! ## The parser -/

section Documents

variable {ν : Type} (number : Text → ν) (text : Text)

theorem never_exhausted : strictJsonParse number text ≠ .error .exhausted := by
  intro heq
  unfold strictJsonParse at heq
  split at heq
  · rename_i e herror
    cases heq
    exact (enough _).value _ _ (by omega) herror
  · dsimp only at heq
    split at heq
    · cases heq
    · cases heq

theorem strictJsonParse_sound {value : Value ν} (h : strictJsonParse number text = .ok value) :
    ∃ tree, DocumentText tree text ∧ tree.unique = true ∧ tree.evaluate number = value := by
  unfold strictJsonParse at h
  split at h
  · cases h
  rename_i found next hparse
  dsimp only at h
  split at h
  · cases h
  rename_i hend
  cases h
  obtain ⟨before, start, hbefore, hskip, tree, word, htree, hunique, heval, hword⟩ :=
    (sound _).value _ _ _ _ hparse
  obtain ⟨after, hafter, hrest⟩ := skipWhitespace_segment text next
  refine ⟨tree, ⟨before, word, after, hbefore, htree, hafter, ?_⟩, hunique, heval⟩
  have hall := (hskip.append hword).append hrest
  rw [not_not.mp hend] at hall
  have htext := hall.1
  rw [List.drop_zero, List.drop_length, List.append_nil] at htext
  exact htext

theorem strictJsonParse_complete {tree : Tree} (h : DocumentText tree text) :
    Outcome tree.unique (strictJsonParse number text) (tree.evaluate number) := by
  obtain ⟨before, word, after, hbefore, htree, hafter, htext⟩ := h
  have hall : Segment text 0 (before ++ word ++ after) text.length := by
    refine ⟨?_, ?_⟩
    · rw [List.drop_zero, List.drop_length, List.append_nil]
      exact htext
    · rw [Nat.zero_add, ← htext]
  obtain ⟨stop, hleft, hrest⟩ := hall.split
  obtain ⟨start, hskip, hword⟩ := hleft.split
  have hfollow : Before continuesNumber (text.drop stop) := by
    rw [hrest.1, List.drop_length, List.append_nil]
    intro c hc
    exact space_not_continues (hafter c (List.mem_of_mem_head? hc))
  have hlength : text.length = before.length + word.length + after.length := by
    rw [htext, List.length_append, List.length_append]
  have hcomplete : Complete number text (3 * text.length + 3) := complete _
  have hparse := hcomplete.value (codes "$") 0 start stop before word tree hbefore hskip htree hword
    hfollow (by omega)
  have hend : skipWhitespace text stop = text.length := by
    refine skipWhitespace_eq hafter hrest fun c hc => ?_
    rw [List.getElem?_eq_none (Nat.le_refl _)] at hc
    cases hc
  unfold strictJsonParse
  cases hunique : tree.unique with
  | false =>
    rw [hunique] at hparse
    obtain ⟨key, place, herror⟩ := hparse
    rw [herror]
    exact ⟨key, place, rfl⟩
  | true =>
    rw [hunique] at hparse
    have hok : parseValue number text (3 * text.length + 3) (codes "$") 0 =
        .ok (tree.evaluate number, stop) := hparse
    simp only [hok, hend, Outcome, ne_eq, not_true_eq_false, ↓reduceIte]

/-- The parser accepts the JSON texts in which no object has a name twice, with the value of
`JSON.parse`, and it ends on every text. -/
theorem strictJsonParse_correct :
    ((∃ value, strictJsonParse number text = .ok value) ↔
        ∃ tree, DocumentText tree text ∧ tree.unique = true) ∧
      (∀ value, strictJsonParse number text = .ok value →
        ∀ other, Parses number text other ↔ other = value) ∧
      strictJsonParse number text ≠ .error .exhausted := by
  refine ⟨⟨?_, ?_⟩, ?_, never_exhausted number text⟩
  · rintro ⟨value, hparse⟩
    obtain ⟨tree, htext, hunique, -⟩ := strictJsonParse_sound number text hparse
    exact ⟨tree, htext, hunique⟩
  · rintro ⟨tree, htext, hunique⟩
    have hparse := strictJsonParse_complete number text htext
    rw [hunique] at hparse
    exact ⟨_, hparse⟩
  · intro value hparse other
    constructor
    · rintro ⟨tree, htext, rfl⟩
      have houtcome := strictJsonParse_complete number text htext
      cases hunique : tree.unique with
      | false =>
        rw [hunique, hparse] at houtcome
        obtain ⟨key, place, herror⟩ := houtcome
        cases herror
      | true =>
        rw [hunique, hparse] at houtcome
        exact (Except.ok.inj houtcome).symm
    · rintro rfl
      obtain ⟨tree, htext, -, heval⟩ := strictJsonParse_sound number text hparse
      exact ⟨tree, htext, heval⟩

end Documents

end Mpas.StrictJson
