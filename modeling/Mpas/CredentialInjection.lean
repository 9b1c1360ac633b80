import Mpas.Library.JsonText
import Mpas.Library.Replacing

/-!
# The injection of a credential

The dispatchers put the credential in place of each `{{credential:…}}` in the
environment of a server and in the headers of a request, by `replaceAll` with a
pattern. The text of a replacement is not taken as it is: a dollar sign and the
character after it can stand for the match, or for the text around it.

* `getSubstitution`: what `replaceAll` makes of the text of a replacement;
* `McpStdio.injectCredential`, `McpHttp.injectCredential`: the two copies;
* `injectCredential_verbatim_iff`: the credentials that are injected as they are.
-/

namespace Mpas.CredentialInjection

open JsonText Pattern

/-! ## The pattern -/

def opening : Text := codes "\x7b\x7bcredential:"

def closing : Text := codes "\x7d\x7d"

/-- `/{{credential:[^}]+}}/` -/
def placeholder : Pattern UInt16 :=
  seq (literal opening) (seq (plus (· != closeBrace)) (literal closing))

/-- The words of the pattern. -/
def placeholders : Language UInt16 :=
  {word | ∃ name, name ≠ [] ∧ closeBrace ∉ name ∧ word = opening ++ (name ++ closing)}

/-- Words of one symbol and more, none of them a brace. -/
theorem names_eq : (symbol (· != closeBrace) * symbols (· != closeBrace) : Language UInt16) =
    {name | name ≠ [] ∧ closeBrace ∉ name} := by
  ext name
  constructor
  · rintro ⟨first, ⟨c, hc, rfl⟩, rest, hrest, rfl⟩
    refine ⟨by simp, ?_⟩
    simp only [List.singleton_append, List.mem_cons, not_or]
    refine ⟨fun heq => ?_, fun hmem => ?_⟩
    · simp [heq] at hc
    · have hne := hrest closeBrace hmem
      simp at hne
  · rintro ⟨hne, hfree⟩
    cases name with
    | nil => exact absurd rfl hne
    | cons c rest =>
      rw [List.mem_cons, not_or] at hfree
      refine ⟨[c], ⟨c, by simpa using Ne.symm hfree.1, rfl⟩, rest, fun d hd => ?_, rfl⟩
      have hdiff : d ≠ closeBrace := fun heq => hfree.2 (heq ▸ hd)
      simpa using hdiff

theorem placeholders_eq : placeholders = ({opening} : Language UInt16) *
    (symbol (· != closeBrace) * symbols (· != closeBrace) * ({closing} : Language UInt16)) := by
  rw [names_eq]
  ext word
  constructor
  · rintro ⟨name, hne, hfree, rfl⟩
    exact ⟨opening, rfl, name ++ closing, ⟨name, ⟨hne, hfree⟩, closing, rfl, rfl⟩, rfl⟩
  · rintro ⟨first, rfl, rest, ⟨name, ⟨hne, hfree⟩, last, rfl, rfl⟩, rfl⟩
    exact ⟨name, hne, hfree, rfl⟩

/-- What follows a name starts with a brace, so no name could be read shorter. -/
theorem placeholder_reads : Reads placeholder placeholders fun _ => True := by
  rw [placeholders_eq]
  refine (literal_reads opening).seq ((plus_reads).seq (literal_reads closing) ?_) fun _ _ _ _ =>
    trivial
  rintro word rest rfl - c hc
  have hfirst : c = closeBrace := by
    have hhead : (closing ++ rest).head? = some closeBrace := rfl
    rw [hhead] at hc
    exact (Option.some.inj hc).symm
  simp [hfirst]

theorem placeholders_nonempty : [] ∉ placeholders := by
  rintro ⟨name, _, _, heq⟩
  have hopening : opening ≠ [] := by decide
  exact hopening (List.append_eq_nil_iff.mp heq.symm).1

/-! ## The text of a replacement -/

def dollar : UInt16 := code '$'

def ampersand : UInt16 := code '&'

def backtick : UInt16 := 96

def apostrophe : UInt16 := 39

/-- `GetSubstitution` of the language, for a pattern without groups: `$1` and `$<` are kept. -/
def getSubstitution (matched before after : Text) : Text → Text
  | [] => []
  | [c] => [c]
  | c :: d :: rest =>
    if c = dollar ∧ d = dollar then dollar :: getSubstitution matched before after rest
    else if c = dollar ∧ d = ampersand then matched ++ getSubstitution matched before after rest
    else if c = dollar ∧ d = backtick then before ++ getSubstitution matched before after rest
    else if c = dollar ∧ d = apostrophe then after ++ getSubstitution matched before after rest
    else c :: getSubstitution matched before after (d :: rest)

/-- `value.replaceAll(/{{credential:[^}]+}}/g, credential)` -/
def replacePlaceholders (credential value : Text) : Text :=
  replaceAll (fun matched before after => getSubstitution matched before after credential)
    placeholder value

/-- `Object.fromEntries(Object.entries(record).map(…))` -/
def mapValues (f : Text → Text) (record : OrderedMap Text Text) : OrderedMap Text Text :=
  record.mapValues f

namespace McpStdio

def injectCredential (env : OrderedMap Text Text) (credential : Text) : OrderedMap Text Text :=
  mapValues (replacePlaceholders credential) env

end McpStdio

namespace McpHttp

def injectCredential (headers : OrderedMap Text Text) (credential : Text) : OrderedMap Text Text :=
  mapValues (replacePlaceholders credential) headers

end McpHttp

/-! ## Verbatim injection -/

/-- The same keys, and values in which each placeholder is the credential's characters. -/
def Verbatim (credential : Text) (record injected : OrderedMap Text Text) : Prop :=
  List.Forall₂ (fun entry entry' => entry.1 = entry'.1 ∧
    Replaced placeholders credential entry.2 entry'.2) record.entries injected.entries

def isDollarPattern (c d : UInt16) : Bool :=
  c == dollar && (d == dollar || d == ampersand || d == backtick || d == apostrophe)

/-- The text has `$$`, `$&`, a dollar sign before a backtick, or one before an apostrophe. -/
def hasDollarPattern : Text → Bool
  | [] | [_] => false
  | c :: d :: rest => isDollarPattern c d || hasDollarPattern (d :: rest)

theorem getSubstitution_plain (matched before after : Text) {credential : Text}
    (h : hasDollarPattern credential = false) :
    getSubstitution matched before after credential = credential := by
  fun_induction getSubstitution matched before after credential with
  | case1 => rfl
  | case2 c => rfl
  | case3 c d rest hpattern _ => simp [hasDollarPattern, isDollarPattern, hpattern] at h
  | case4 c d rest _ hpattern _ => simp [hasDollarPattern, isDollarPattern, hpattern] at h
  | case5 c d rest _ _ hpattern _ => simp [hasDollarPattern, isDollarPattern, hpattern] at h
  | case6 c d rest _ _ _ hpattern _ => simp [hasDollarPattern, isDollarPattern, hpattern] at h
  | case7 c d rest _ _ _ _ ih =>
    simp only [hasDollarPattern, Bool.or_eq_false_iff] at h
    rw [ih h.2]

/-- Without a dollar sign around it a substitution has no more of them, and fewer for a pattern. -/
theorem dollars_getSubstitution {matched before after : Text} (hmatched : dollar ∉ matched)
    (hbefore : dollar ∉ before) (hafter : dollar ∉ after) (credential : Text) :
    (getSubstitution matched before after credential).count dollar ≤ credential.count dollar ∧
      (hasDollarPattern credential = true →
        (getSubstitution matched before after credential).count dollar <
          credential.count dollar) := by
  have hm := List.count_eq_zero.mpr hmatched
  have hb := List.count_eq_zero.mpr hbefore
  have ha := List.count_eq_zero.mpr hafter
  fun_induction getSubstitution matched before after credential with
  | case1 => simp [hasDollarPattern]
  | case2 c => simp [hasDollarPattern]
  | case3 c d rest hpattern ih =>
    obtain ⟨rfl, rfl⟩ := hpattern
    simp only [List.count_cons, beq_self_eq_true, ↓reduceIte]
    omega
  | case4 c d rest _ hpattern ih =>
    obtain ⟨rfl, rfl⟩ := hpattern
    simp only [List.count_append, List.count_cons, beq_self_eq_true, ↓reduceIte]
    omega
  | case5 c d rest _ _ hpattern ih =>
    obtain ⟨rfl, rfl⟩ := hpattern
    simp only [List.count_append, List.count_cons, beq_self_eq_true, ↓reduceIte]
    omega
  | case6 c d rest _ _ _ hpattern ih =>
    obtain ⟨rfl, rfl⟩ := hpattern
    simp only [List.count_append, List.count_cons, beq_self_eq_true, ↓reduceIte]
    omega
  | case7 c d rest h₁ h₂ h₃ h₄ ih =>
    have hpattern : isDollarPattern c d = false := by
      simp only [isDollarPattern]
      by_cases hc : c = dollar <;> simp_all
    rw [List.count_cons, List.count_cons (b := c)]
    simp only [hasDollarPattern, hpattern, Bool.false_or]
    refine ⟨by omega, fun h => ?_⟩
    have hless := ih.2 h
    omega

/-! ## One value -/

theorem replaced_plain {credential : Text} (h : hasDollarPattern credential = false)
    (value : Text) :
    Replaced placeholders credential value (replacePlaceholders credential value) := by
  have hsame : (fun matched before after => getSubstitution matched before after credential) =
      fun _ _ _ => credential := by
    funext matched before after
    exact getSubstitution_plain matched before after h
  rw [replacePlaceholders, hsame]
  exact replaceAll_replaced placeholder_reads placeholders_nonempty

theorem replaced_nowhere (credential : Text) {value : Text} (h : ¬ HasWord placeholders value) :
    Replaced placeholders credential value (replacePlaceholders credential value) := by
  have hnone : ∀ word, Piece.found word ∉ pieces placeholder value := fun word hmem =>
    h ((hasWord_iff placeholder_reads placeholders_nonempty).mpr ⟨word, hmem⟩)
  have hplain : Replaced placeholders credential value
      (replaceAll (fun _ _ _ => credential) placeholder value) :=
    replaceAll_replaced placeholder_reads placeholders_nonempty
  rw [replaceAll, replaceFrom_of_none _ hnone] at hplain
  rw [replacePlaceholders, replaceAll, replaceFrom_of_none _ hnone]
  exact hplain

/-- In a text without a dollar sign, each piece brings the dollar signs of a substitution. -/
theorem dollars_replaceFrom (credential : Text) (found : List (Piece UInt16)) {before : Text}
    (hbefore : dollar ∉ before) (h : dollar ∉ textOf found) :
    (replaceFrom (fun matched before after => getSubstitution matched before after credential)
        before found).count dollar ≤
      (replaceFrom (fun _ _ _ => credential) before found).count dollar ∧
    (hasDollarPattern credential = true → (∃ word, Piece.found word ∈ found) →
      (replaceFrom (fun matched before after => getSubstitution matched before after credential)
          before found).count dollar <
        (replaceFrom (fun _ _ _ => credential) before found).count dollar) := by
  induction found generalizing before with
  | nil => simp [replaceFrom]
  | cons piece found ih =>
    simp only [textOf, List.flatMap_cons, List.mem_append, not_or] at h
    have hmore : dollar ∉ before ++ piece.text := by
      rw [List.mem_append, not_or]
      exact ⟨hbefore, h.1⟩
    obtain ⟨hle, hless⟩ := ih hmore h.2
    cases piece with
    | kept c =>
      simp only [replaceFrom, Piece.text, List.count_cons] at hle hless ⊢
      refine ⟨by omega, fun hpattern hfound => ?_⟩
      obtain ⟨word, heq | hmem⟩ := hfound.imp fun _ hmem => List.mem_cons.mp hmem
      · cases heq
      · have hrest := hless hpattern ⟨word, hmem⟩
        omega
    | found word =>
      obtain ⟨hword, hpattern⟩ := dollars_getSubstitution h.1 hbefore h.2 credential
      simp only [replaceFrom, Piece.text, List.count_append] at hword hpattern hle ⊢
      refine ⟨Nat.add_le_add hword hle, fun hfound _ => ?_⟩
      exact Nat.add_lt_add_of_lt_of_le (hpattern hfound) hle

theorem not_replaced {credential value : Text} (hpattern : hasDollarPattern credential = true)
    (hword : HasWord placeholders value) (hfree : dollar ∉ value) :
    ¬ Replaced placeholders credential value (replacePlaceholders credential value) := by
  intro hreplaced
  have hverbatim := hreplaced.unique placeholder_reads placeholders_nonempty
    (replaceAll_replaced placeholder_reads placeholders_nonempty)
  have hfound := (hasWord_iff placeholder_reads placeholders_nonempty).mp hword
  have htext : textOf (pieces placeholder value) = value :=
    textOf_piecesTo placeholder_reads placeholders_nonempty (Nat.le_refl _)
  have hless := (dollars_replaceFrom credential (pieces placeholder value) List.not_mem_nil
    (by rwa [htext])).2 hpattern hfound
  rw [replacePlaceholders, replaceAll, replaceAll] at hverbatim
  rw [hverbatim] at hless
  exact Nat.lt_irrefl _ hless

/-! ## Records -/

/-- A dollar sign that is not taken as it is has no placeholder to stand in for. -/
def Harmless (credential : Text) (record : OrderedMap Text Text) : Prop :=
  hasDollarPattern credential = true → ∀ value ∈ record.values, ¬ HasWord placeholders value

theorem verbatim_iff (credential : Text) (record : OrderedMap Text Text) :
    Verbatim credential record (mapValues (replacePlaceholders credential) record) ↔
      ∀ value ∈ record.values,
        Replaced placeholders credential value (replacePlaceholders credential value) := by
  unfold Verbatim mapValues OrderedMap.mapValues OrderedMap.values
  simp only [List.forall₂_map_right_iff, List.forall₂_same, true_and, List.forall_mem_map]

/-- When an injection is verbatim: for a credential without a dollar pattern into every record, and
for any other into no record that has a placeholder in a value without a dollar sign. -/
structure ExactlyVerbatim (inject : OrderedMap Text Text → Text → OrderedMap Text Text)
    (credential : Text) : Prop where
  always_iff : (∀ record, Verbatim credential record (inject record credential)) ↔
    hasDollarPattern credential = false
  enough : ∀ record, Harmless credential record →
    Verbatim credential record (inject record credential)
  needed : ∀ record : OrderedMap Text Text,
    (∀ value ∈ record.values, HasWord placeholders value → dollar ∉ value) →
    Verbatim credential record (inject record credential) → Harmless credential record

theorem harmless_verbatim {credential : Text} {record : OrderedMap Text Text}
    (h : Harmless credential record) :
    Verbatim credential record (mapValues (replacePlaceholders credential) record) := by
  rw [verbatim_iff]
  intro value hvalue
  cases hpattern : hasDollarPattern credential with
  | false => exact replaced_plain hpattern value
  | true => exact replaced_nowhere credential (h hpattern value hvalue)

theorem verbatim_harmless {credential : Text} {record : OrderedMap Text Text}
    (hfree : ∀ value ∈ record.values, HasWord placeholders value → dollar ∉ value)
    (h : Verbatim credential record (mapValues (replacePlaceholders credential) record)) :
    Harmless credential record := by
  rw [verbatim_iff] at h
  intro hpattern value hvalue hword
  exact not_replaced hpattern hword (hfree value hvalue hword) (h value hvalue)

/-- `{ API_KEY: "{{credential:key}}" }` -/
def sample : OrderedMap Text Text :=
  ⟨[(codes "API_KEY", opening ++ (codes "key" ++ closing))], by decide⟩

theorem sample_word : HasWord placeholders (opening ++ (codes "key" ++ closing)) :=
  ⟨[], _, [], ⟨codes "key", by decide, by decide, rfl⟩, by simp⟩

theorem sample_free : ∀ value ∈ sample.values, HasWord placeholders value → dollar ∉ value := by
  intro value hvalue _
  obtain rfl : value = opening ++ (codes "key" ++ closing) := by
    simpa [sample, OrderedMap.values] using hvalue
  decide

theorem sample_harmful {credential : Text} (h : hasDollarPattern credential = true) :
    ¬ Harmless credential sample :=
  fun hharmless => hharmless h _ (by simp [sample, OrderedMap.values]) sample_word

theorem exactlyVerbatim (credential : Text) : ExactlyVerbatim
    (fun record credential => mapValues (replacePlaceholders credential) record) credential where
  always_iff := by
    constructor
    · intro halways
      cases hpattern : hasDollarPattern credential with
      | false => rfl
      | true =>
        exact absurd (verbatim_harmless sample_free (halways sample)) (sample_harmful hpattern)
    · intro hpattern record
      exact harmless_verbatim fun hsome => by simp [hpattern] at hsome
  enough _ h := harmless_verbatim h
  needed _ hfree h := verbatim_harmless hfree h

/-- **What is injected verbatim**, by both of the dispatchers. -/
theorem injectCredential_verbatim_iff (credential : Text) :
    ExactlyVerbatim McpStdio.injectCredential credential ∧
      ExactlyVerbatim McpHttp.injectCredential credential :=
  ⟨exactlyVerbatim credential, exactlyVerbatim credential⟩

/-- A value that has a dollar sign itself can make up for a pattern. -/
example : replacePlaceholders [dollar, backtick]
    ([dollar, backtick] ++ (opening ++ (codes "key" ++ closing))) =
    [dollar, backtick, dollar, backtick] := by decide

/-- Of `pa$$word` the server gets `pa$word`. -/
theorem injection_alters :
    (McpStdio.injectCredential sample (codes "pa$$word")).values = [codes "pa$word"] ∧
      ¬ Verbatim (codes "pa$$word") sample (McpStdio.injectCredential sample (codes "pa$$word")) :=
  ⟨by decide, fun h => sample_harmful (by decide) (verbatim_harmless sample_free h)⟩

end Mpas.CredentialInjection
