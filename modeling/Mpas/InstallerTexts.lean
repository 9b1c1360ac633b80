import Mathlib.Tactic.IntervalCases
import Mpas.InstallerHome

/-!
# The texts of a home's files

`JSON.stringify(value, null, 2)` and a newline, in UTF-8, and a reader for such
texts. No file of a home has a number, so none is read.

* `readValue_valueText`, `decodeUtf8_encodeUtf8`: what is written is read back;
* `jsonTexts`: the two, as texts of a home.
-/

namespace Mpas.Installer

/-! ## UTF-8 -/

def encodeUtf8 (text : List Char) : List UInt8 := text.flatMap String.utf8EncodeChar

def decodeUtf8 : Nat → List UInt8 → Option (List Char)
  | _, [] => some []
  | 0, _ :: _ => none
  | fuel + 1, byte :: rest =>
    match ((byte :: rest).take 4).toByteArray.utf8DecodeChar? 0 with
    | some c => (decodeUtf8 fuel ((byte :: rest).drop c.utf8Size)).map (c :: ·)
    | none => none

theorem take_encoded (c : Char) (rest : List UInt8) :
    (String.utf8EncodeChar c ++ rest).take 4 =
      String.utf8EncodeChar c ++ rest.take (4 - c.utf8Size) := by
  have hsize : (String.utf8EncodeChar c).length = c.utf8Size := String.length_utf8EncodeChar c
  have hle := c.utf8Size_le_four
  rw [List.take_append, hsize, List.take_of_length_le (by omega)]

theorem decodeUtf8_encodeUtf8 (text : List Char) :
    ∀ fuel, text.length ≤ fuel → decodeUtf8 fuel (encodeUtf8 text) = some text := by
  induction text with
  | nil =>
    intro fuel _
    cases fuel <;> rfl
  | cons c text ih =>
    intro fuel hfuel
    cases fuel with
    | zero => cases hfuel
    | succ fuel =>
      have hsize : (String.utf8EncodeChar c).length = c.utf8Size := String.length_utf8EncodeChar c
      have hread : ByteArray.utf8DecodeChar?
          ((String.utf8EncodeChar c ++ encodeUtf8 text).take 4).toByteArray 0 = some c := by
        rw [take_encoded, List.toByteArray_append]
        exact ByteArray.utf8DecodeChar?_utf8EncodeChar_append
      have hrest := ih fuel (Nat.le_of_succ_le_succ hfuel)
      have hencoded : encodeUtf8 (c :: text) = String.utf8EncodeChar c ++ encodeUtf8 text := rfl
      rw [hencoded]
      cases hbytes : String.utf8EncodeChar c ++ encodeUtf8 text with
      | nil => exact absurd (List.append_eq_nil_iff.mp hbytes).1 String.utf8EncodeChar_ne_nil
      | cons byte rest =>
        rw [hbytes] at hread
        simp only [decodeUtf8, hread]
        rw [← hbytes, ← hsize, List.drop_left, hrest]
        rfl

/-! ## Strings -/

def quote : Char := Char.ofNat 0x22

def backslash : Char := Char.ofNat 0x5C

def openBrace : Char := Char.ofNat 0x7B

def closeBrace : Char := Char.ofNat 0x7D

/-- The escapes of one letter. -/
def escapes : List (Char × Char) :=
  [('b', Char.ofNat 8), ('t', Char.ofNat 9), ('n', Char.ofNat 10), ('f', Char.ofNat 12),
    ('r', Char.ofNat 13), (quote, quote), (backslash, backslash), ('/', '/')]

def controlText (c : Char) : List Char :=
  match escapes.find? fun escape => escape.2 = c with
  | some escape => [backslash, escape.1]
  | none => [backslash, 'u', '0', '0', Nat.digitChar (c.toNat / 16), Nat.digitChar (c.toNat % 16)]

def charText (c : Char) : List Char :=
  if c = quote ∨ c = backslash then [backslash, c]
  else if c.toNat < 0x20 then controlText c
  else [c]

def stringText (s : String) : List Char := quote :: (s.toList.flatMap charText ++ [quote])

def hexValue (c : Char) : Option Nat :=
  if c.isDigit then some (c.toNat - 48)
  else if 'a' ≤ c ∧ c ≤ 'f' then some (c.toNat - 87)
  else if 'A' ≤ c ∧ c ≤ 'F' then some (c.toNat - 55)
  else none

/-- Behind a backslash. -/
def readEscape : List Char → Option (Char × List Char)
  | [] => none
  | e :: rest =>
    if e = 'u' then
      match rest with
      | a :: b :: c :: d :: rest => do
        let a ← hexValue a
        let b ← hexValue b
        let c ← hexValue c
        let d ← hexValue d
        return (Char.ofNat (((a * 16 + b) * 16 + c) * 16 + d), rest)
      | _ => none
    else (escapes.lookup e).map fun c => (c, rest)

def readChar : List Char → Option (Char × List Char)
  | [] => none
  | c :: rest =>
    if c = backslash then readEscape rest
    else if c.toNat < 0x20 then none
    else some (c, rest)

/-- Behind the opening quote. -/
def readChars : Nat → List Char → Option (List Char × List Char)
  | 0, _ => none
  | fuel + 1, text =>
    if text.head? = some quote then some ([], text.tail)
    else
      match readChar text with
      | none => none
      | some (c, rest) => (readChars fuel rest).map fun read => (c :: read.1, read.2)

theorem readChar_controlText {c : Char} (h : c.toNat < 0x20) (rest : List Char) :
    readChar (controlText c ++ rest) = some (c, rest) := by
  have hcontrol : ∀ n, n < 0x20 →
      readChar (controlText (Char.ofNat n) ++ rest) = some (Char.ofNat n, rest) := by
    intro n hn
    interval_cases n <;> rfl
  have hc := hcontrol c.toNat h
  rw [Char.ofNat_toNat] at hc
  exact hc

theorem readChar_charText (c : Char) (rest : List Char) :
    readChar (charText c ++ rest) = some (c, rest) := by
  unfold charText
  split
  · rename_i hspecial
    rcases hspecial with rfl | rfl <;> rfl
  · rename_i hplain
    rw [not_or] at hplain
    split
    · rename_i hcontrol
      exact readChar_controlText hcontrol rest
    · rename_i hcontrol
      simp [readChar, hplain.2, hcontrol]

theorem charText_head (c : Char) (rest : List Char) : (charText c ++ rest).head? ≠ some quote := by
  unfold charText controlText
  split
  · exact fun h => absurd (Option.some.inj h) (by decide)
  · rename_i hplain
    split
    · split <;> exact fun h => absurd (Option.some.inj h) (by decide)
    · exact fun h => hplain (Or.inl (Option.some.inj h))

theorem charText_length (c : Char) : 0 < (charText c).length := by
  unfold charText controlText
  split
  · simp
  · split
    · split <;> simp
    · simp

theorem readChars_flatMap (s rest : List Char) : ∀ fuel, (s.flatMap charText).length ≤ fuel →
    readChars (fuel + 1) (s.flatMap charText ++ quote :: rest) = some (s, rest) := by
  induction s with
  | nil =>
    intro fuel _
    rfl
  | cons c s ih =>
    intro fuel hfuel
    rw [List.flatMap_cons, List.length_append] at hfuel
    have hpos := charText_length c
    obtain ⟨fuel, rfl⟩ : ∃ n, fuel = n + 1 := ⟨fuel - 1, by omega⟩
    rw [List.flatMap_cons, List.append_assoc]
    have hread := ih fuel (by omega)
    rw [readChars, if_neg (charText_head c _), readChar_charText]
    simp only [hread, Option.map_some]

/-! ## Values -/

/-- A line break, and the indentation of the line. -/
def newline (depth : Nat) : List Char := Char.ofNat 10 :: List.replicate (2 * depth) ' '

mutual

def valueText (depth : Nat) : Json → List Char
  | .null => "null".toList
  | .bool true => "true".toList
  | .bool false => "false".toList
  | .num _ => "0".toList
  | .str s => stringText s
  | .arr items =>
    if items.isEmpty then ['[', ']']
    else '[' :: (itemsText (depth + 1) items ++ (newline depth ++ [']']))
  | .obj members =>
    if members.isEmpty then [openBrace, closeBrace]
    else openBrace :: (membersText (depth + 1) members ++ (newline depth ++ [closeBrace]))

def itemsText (depth : Nat) : List Json → List Char
  | [] => []
  | item :: rest =>
    newline depth ++ (valueText depth item ++ ((if rest.isEmpty then [] else [',']) ++
      itemsText depth rest))

def membersText (depth : Nat) : List (String × Json) → List Char
  | [] => []
  | (name, value) :: rest =>
    newline depth ++ (stringText name ++ (':' :: ' ' :: (valueText depth value ++
      ((if rest.isEmpty then [] else [',']) ++ membersText depth rest))))

end

def isSpace (c : Char) : Bool := c = ' ' || c.toNat = 9 || c.toNat = 10 || c.toNat = 13

def skip (text : List Char) : List Char := text.dropWhile isSpace

/-- What comes behind the mark, if it is the next. -/
def readMark (mark : Char) (text : List Char) : Option (List Char) :=
  match skip text with
  | [] => none
  | c :: rest => if c = mark then some rest else none

def readWord (word : String) (value : Json) (text : List Char) : Option (Json × List Char) :=
  if word.toList.isPrefixOf text then some (value, text.drop word.toList.length) else none

mutual

def readValue : Nat → List Char → Option (Json × List Char)
  | 0, _ => none
  | fuel + 1, text =>
    match skip text with
    | [] => none
    | c :: rest =>
      if c = quote then (readChars fuel rest).map fun read => (.str (String.ofList read.1), read.2)
      else if c = '[' then
        match readMark ']' rest with
        | some rest => some (.arr [], rest)
        | none => (readItems fuel rest).map fun read => (.arr read.1, read.2)
      else if c = openBrace then
        match readMark closeBrace rest with
        | some rest => some (.obj [], rest)
        | none => (readMembers fuel rest).map fun read =>
          (.obj (read.1.foldl (fun object member => OrderedMap.write member.1 member.2 object) []),
            read.2)
      else readWord "null" .null (c :: rest) <|> readWord "true" (.bool true) (c :: rest) <|>
        readWord "false" (.bool false) (c :: rest)

def readItems : Nat → List Char → Option (List Json × List Char)
  | 0, _ => none
  | fuel + 1, text =>
    match readValue fuel text with
    | none => none
    | some (item, rest) =>
      match readMark ',' rest with
      | some rest => (readItems fuel rest).map fun read => (item :: read.1, read.2)
      | none => (readMark ']' rest).map fun rest => ([item], rest)

def readMembers : Nat → List Char → Option (List (String × Json) × List Char)
  | 0, _ => none
  | fuel + 1, text =>
    match (readMark quote text).bind (readChars fuel) with
    | none => none
    | some (name, rest) =>
      match (readMark ':' rest).bind (readValue fuel) with
      | none => none
      | some (value, rest) =>
        match readMark ',' rest with
        | some rest => (readMembers fuel rest).map fun read =>
          ((String.ofList name, value) :: read.1, read.2)
        | none => (readMark closeBrace rest).map fun rest => ([(String.ofList name, value)], rest)

end

/-! ## What is written is read back -/

theorem skip_newline (depth : Nat) (text : List Char) :
    skip (newline depth ++ text) = skip text := by
  have hspace : ∀ c ∈ newline depth, isSpace c = true := by
    intro c hc
    rcases List.mem_cons.mp hc with rfl | hc
    · rfl
    · rw [List.eq_of_mem_replicate hc]
      rfl
  unfold skip
  rw [List.dropWhile_append_of_pos hspace]

theorem readMark_newline (mark : Char) (depth : Nat) (text : List Char) :
    readMark mark (newline depth ++ text) = readMark mark text := by
  unfold readMark
  rw [skip_newline]

theorem readMark_cons {mark c : Char} (hspace : isSpace c = false) (text : List Char) :
    readMark mark (c :: text) = if c = mark then some text else none := by
  unfold readMark skip
  rw [List.dropWhile_cons_of_neg (by simp [hspace])]

theorem readValue_newline (fuel depth : Nat) (text : List Char) :
    readValue fuel (newline depth ++ text) = readValue fuel text := by
  cases fuel with
  | zero => rfl
  | succ fuel => simp only [readValue, skip_newline]

theorem readValue_space (fuel : Nat) (text : List Char) :
    readValue fuel (' ' :: text) = readValue fuel text := by
  cases fuel with
  | zero => rfl
  | succ fuel => rfl

theorem write_fresh {name : String} {value : Json} {members : List (String × Json)}
    (h : ∀ member ∈ members, member.1 ≠ name) :
    OrderedMap.write name value members = members ++ [(name, value)] := by
  induction members with
  | nil => rfl
  | cons first rest ih =>
    obtain ⟨other, found⟩ := first
    rw [OrderedMap.write, if_neg (h _ List.mem_cons_self),
      ih fun member hmem => h member (List.mem_cons_of_mem _ hmem)]
    rfl

/-- Members of different names are defined as they are read. -/
theorem foldl_write (members : List (String × Json)) : ∀ object : List (String × Json),
    membersWritten members = true →
    (∀ member ∈ members, ∀ old ∈ object, old.1 ≠ member.1) →
    members.foldl (fun object member => OrderedMap.write member.1 member.2 object) object =
      object ++ members := by
  induction members with
  | nil =>
    intro object _ _
    exact (List.append_nil object).symm
  | cons first rest ih =>
    obtain ⟨name, value⟩ := first
    intro object hwritten hfresh
    simp only [membersWritten, Bool.and_eq_true, List.all_eq_true, decide_eq_true_eq] at hwritten
    obtain ⟨⟨⟨hdistinct, -⟩, -⟩, hrest⟩ := hwritten
    rw [List.foldl_cons, write_fresh (hfresh _ List.mem_cons_self), ih _ hrest, List.append_assoc]
    · rfl
    · intro member hmem old hold
      rcases List.mem_append.mp hold with hold | hold
      · exact hfresh member (List.mem_cons_of_mem _ hmem) old hold
      · rw [List.mem_singleton.mp hold]
        exact (hdistinct member hmem).symm

theorem valueText_starts (depth : Nat) (value : Json) :
    ∃ c text, valueText depth value = c :: text ∧ isSpace c = false ∧ c ≠ ']' := by
  cases value with
  | null => exact ⟨_, _, rfl, by decide, by decide⟩
  | bool b => cases b <;> exact ⟨_, _, rfl, by decide, by decide⟩
  | num n => exact ⟨_, _, rfl, by decide, by decide⟩
  | str s => exact ⟨_, _, rfl, by decide, by decide⟩
  | arr items =>
    rw [valueText]
    split <;> exact ⟨_, _, rfl, by decide, by decide⟩
  | obj members =>
    rw [valueText]
    split <;> exact ⟨_, _, rfl, by decide, by decide⟩

/-- What has items is not closed at once. -/
theorem readMark_itemsText (depth : Nat) (item : Json) (rest : List Json) (text : List Char) :
    readMark ']' (itemsText depth (item :: rest) ++ text) = none := by
  obtain ⟨c, tail, hvalue, hspace, hne⟩ := valueText_starts depth item
  rw [itemsText, List.append_assoc, readMark_newline, hvalue]
  simp only [List.cons_append]
  rw [readMark_cons hspace, if_neg hne]

theorem readMark_membersText (depth : Nat) (member : String × Json) (rest : List (String × Json))
    (text : List Char) :
    readMark closeBrace (membersText depth (member :: rest) ++ text) = none := by
  obtain ⟨name, value⟩ := member
  rw [membersText, List.append_assoc, readMark_newline, stringText]
  simp only [List.cons_append]
  rw [readMark_cons (by decide), if_neg (by decide)]

theorem readName_stringText {fuel : Nat} (depth : Nat) (name : String) (text : List Char)
    (hfuel : (stringText name).length ≤ fuel) :
    (readMark quote (newline depth ++ (stringText name ++ text))).bind (readChars fuel) =
      some (name.toList, text) := by
  rw [stringText, List.length_cons, List.length_append] at hfuel
  obtain ⟨fuel, rfl⟩ : ∃ n, fuel = n + 1 := ⟨fuel - 1, by omega⟩
  rw [readMark_newline, stringText]
  simp only [List.cons_append, List.append_assoc, List.nil_append]
  rw [readMark_cons (by decide), if_pos rfl, Option.bind_some,
    readChars_flatMap _ _ fuel (by omega)]

mutual

theorem readValue_valueText (value : Json) (hwritten : isWritten value = true) (depth fuel : Nat)
    (rest : List Char) (hfuel : (valueText depth value).length ≤ fuel) :
    readValue (fuel + 1) (valueText depth value ++ rest) = some (value, rest) := by
  match value with
  | .null => rfl
  | .bool true => rfl
  | .bool false => rfl
  | .num _ => cases hwritten
  | .str s =>
    have hread := @readName_stringText fuel 0 s rest hfuel
    rw [readMark_newline, stringText, List.cons_append, readMark_cons (by decide), if_pos rfl,
      Option.bind_some] at hread
    rw [valueText, stringText, List.cons_append]
    show (readChars fuel _).map _ = _
    rw [hread, Option.map_some, String.ofList_toList]
  | .arr [] => rfl
  | .arr (item :: items) =>
    rw [isWritten] at hwritten
    rw [valueText, if_neg (by simp)] at hfuel ⊢
    simp only [List.length_cons, List.length_append] at hfuel
    obtain ⟨fuel, rfl⟩ : ∃ n, fuel = n + 1 := ⟨fuel - 1, by omega⟩
    have hread := readItems_itemsText (item :: items) hwritten (List.cons_ne_nil _ _) (depth + 1)
      depth fuel rest (by omega)
    simp only [List.cons_append, List.append_assoc, List.nil_append]
    show (match readMark ']' _ with
      | some rest => some (Json.arr [], rest)
      | none => (readItems (fuel + 1) _).map _) = _
    rw [readMark_itemsText, hread]
    rfl
  | .obj [] => rfl
  | .obj (member :: members) =>
    rw [isWritten] at hwritten
    rw [valueText, if_neg (by simp)] at hfuel ⊢
    simp only [List.length_cons, List.length_append] at hfuel
    obtain ⟨fuel, rfl⟩ : ∃ n, fuel = n + 1 := ⟨fuel - 1, by omega⟩
    have hread := readMembers_membersText (member :: members) hwritten (List.cons_ne_nil _ _)
      (depth + 1) depth fuel rest (by omega)
    have hdefined := foldl_write (member :: members) [] hwritten
      fun _ _ _ hold => absurd hold List.not_mem_nil
    simp only [List.cons_append, List.append_assoc, List.nil_append]
    show (match readMark closeBrace _ with
      | some rest => some (Json.obj [], rest)
      | none => (readMembers (fuel + 1) _).map _) = _
    rw [readMark_membersText, hread]
    simp only [Option.map_some, hdefined, List.nil_append]

theorem readItems_itemsText (items : List Json) (hwritten : itemsWritten items = true)
    (hne : items ≠ []) (depth outer fuel : Nat) (rest : List Char)
    (hfuel : (itemsText depth items).length ≤ fuel) :
    readItems (fuel + 1) (itemsText depth items ++ (newline outer ++ (']' :: rest))) =
      some (items, rest) := by
  match items with
  | [] => exact absurd rfl hne
  | item :: items =>
    rw [itemsWritten, Bool.and_eq_true] at hwritten
    rw [itemsText, newline, List.length_append, List.length_cons, List.length_append,
      List.length_append] at hfuel
    obtain ⟨fuel, rfl⟩ : ∃ n, fuel = n + 1 := ⟨fuel - 1, by omega⟩
    rw [itemsText, List.append_assoc, readItems, readValue_newline, List.append_assoc,
      readValue_valueText item hwritten.1 depth fuel _ (by omega)]
    cases items with
    | nil =>
      simp only [List.isEmpty_nil, ↓reduceIte, List.nil_append, itemsText]
      rw [readMark_newline, readMark_cons (by decide), if_neg (by decide), readMark_newline,
        readMark_cons (by decide), if_pos rfl]
      rfl
    | cons next more =>
      simp only [List.isEmpty_cons, Bool.false_eq_true, ↓reduceIte, List.length_cons,
        List.length_nil] at hfuel
      have hread := readItems_itemsText (next :: more) hwritten.2 (List.cons_ne_nil _ _) depth
        outer fuel rest (by omega)
      simp only [List.isEmpty_cons, Bool.false_eq_true, ↓reduceIte, List.cons_append,
        List.nil_append]
      rw [readMark_cons (by decide), if_pos rfl]
      simp only [hread, Option.map_some]

theorem readMembers_membersText (members : List (String × Json))
    (hwritten : membersWritten members = true) (hne : members ≠ []) (depth outer fuel : Nat)
    (rest : List Char) (hfuel : (membersText depth members).length ≤ fuel) :
    readMembers (fuel + 1) (membersText depth members ++ (newline outer ++ (closeBrace :: rest))) =
      some (members, rest) := by
  match members with
  | [] => exact absurd rfl hne
  | (name, value) :: members =>
    simp only [membersWritten, Bool.and_eq_true] at hwritten
    simp only [membersText, newline, List.length_append, List.length_cons] at hfuel
    obtain ⟨fuel, rfl⟩ : ∃ n, fuel = n + 1 := ⟨fuel - 1, by omega⟩
    rw [membersText, List.append_assoc, readMembers, List.append_assoc,
      readName_stringText depth name _ (by omega)]
    simp only [List.cons_append, List.append_assoc]
    rw [readMark_cons (by decide), if_pos rfl, Option.bind_some, readValue_space,
      readValue_valueText value hwritten.1.2 depth fuel _ (by omega)]
    cases members with
    | nil =>
      simp only [List.isEmpty_nil, ↓reduceIte, List.nil_append, membersText]
      rw [readMark_newline, readMark_cons (by decide), if_neg (by decide), readMark_newline,
        readMark_cons (by decide), if_pos rfl]
      simp only [Option.map_some, String.ofList_toList]
    | cons next more =>
      simp only [List.isEmpty_cons, Bool.false_eq_true, ↓reduceIte, List.length_cons,
        List.length_nil] at hfuel
      have hread := readMembers_membersText (next :: more) hwritten.2 (List.cons_ne_nil _ _) depth
        outer fuel rest (by omega)
      simp only [List.isEmpty_cons, Bool.false_eq_true, ↓reduceIte, List.cons_append,
        List.nil_append]
      rw [readMark_cons (by decide), if_pos rfl]
      simp only [hread, Option.map_some, String.ofList_toList]

end

/-! ## The texts -/

def jsonBytes (value : Json) : List UInt8 := encodeUtf8 (valueText 0 value ++ [Char.ofNat 10])

/-- Nothing but white space may follow the value. -/
def parseJson (bytes : List UInt8) : Option Json :=
  match decodeUtf8 bytes.length bytes with
  | none => none
  | some text =>
    match readValue (text.length + 1) text with
    | some (value, rest) => if skip rest = [] then some value else none
    | none => none

theorem length_encodeUtf8 (text : List Char) : text.length ≤ (encodeUtf8 text).length := by
  induction text with
  | nil => exact Nat.zero_le _
  | cons c text ih =>
    have hpos := List.length_pos_of_ne_nil (String.utf8EncodeChar_ne_nil (c := c))
    rw [encodeUtf8, List.flatMap_cons, List.length_append, List.length_cons]
    rw [encodeUtf8] at ih
    omega

theorem parseJson_jsonBytes (value : Json) (h : isWritten value = true) :
    parseJson (jsonBytes value) = some value := by
  unfold parseJson jsonBytes
  rw [decodeUtf8_encodeUtf8 _ _ (length_encodeUtf8 _)]
  have hread := readValue_valueText value h 0 (valueText 0 value ++ [Char.ofNat 10]).length
    [Char.ofNat 10] (by simp)
  simp only [hread]
  rfl

def jsonTexts : Texts := ⟨jsonBytes, parseJson, parseJson_jsonBytes⟩

end Mpas.Installer
