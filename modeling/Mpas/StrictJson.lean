import Mpas.Library.JsonText

/-!
# Strict JSON parsing

The parser for the boundaries where raw text comes in. It rejects an object
with two members of one name, where `JSON.parse` would keep the last. The text
is walked by an index, and string literals are given to `JSON.parse`.

* `strictJsonParse`: the parser; `number` is what `Number` makes of a number's text.
-/

namespace Mpas.StrictJson

open JsonText Pattern

inductive ParseError
  /-- its text says the position too -/
  | syntaxError (message : String) (position : Nat)
  | duplicateJsonKey (key jsonPath : Text)
  /-- of `JSON.parse` -/
  | badString
  /-- not of the source: the model's fuel has run out -/
  | exhausted
  deriving DecidableEq

/-- `NUMBER_PATTERN` -/
def numberPattern : Pattern UInt16 :=
  seq (opt (one (· == code '-')))
    (seq (orElse (one (· == code '0')) (seq (one isDigitButZero) (many isDigit)))
      (seq (opt (seq (one (· == code '.')) (plus isDigit)))
        (opt (seq (one isExponentMark) (seq (opt (one isSign)) (plus isDigit))))))

section Parser

variable {ν : Type} (number : Text → ν) (text : Text)

def skipWhitespace (index : Nat) : Nat :=
  if h : index < text.length then
    if isWhitespace text[index] then skipWhitespace (index + 1) else index
  else index
termination_by text.length - index

/-- The loop of `parseString`: the index behind the closing quote, or where the text ended. -/
def scanString (index : Nat) : Except Nat Nat :=
  if h : index < text.length then
    if text[index] = backslash then scanString (index + 2)
    else if text[index] = quote then .ok (index + 1)
    else scanString (index + 1)
  else .error index
termination_by text.length - index

/-- `text.slice(start, end)` -/
def slice (start stop : Nat) : Text := (text.drop start).take (stop - start)

def parseString (index : Nat) : Except ParseError (Text × Nat) :=
  if text[index]? = some quote then
    match scanString text (index + 1) with
    | .error stop => .error (.syntaxError "Unterminated string" stop)
    | .ok next =>
      match readString (slice text index next) with
      | some s => .ok (s, next)
      | none => .error .badString
  else .error (.syntaxError "Expected string" index)

/-- `text.startsWith(word, index)` -/
def startsWith (word : String) (index : Nat) : Bool := (codes word).isPrefixOf (text.drop index)

mutual

def parseValue : Nat → Text → Nat → Except ParseError (Value ν × Nat)
  | 0, _, _ => .error .exhausted
  | fuel + 1, path, start =>
    let index := skipWhitespace text start
    match text[index]? with
    | none => .error (.syntaxError "Unexpected end of input" index)
    | some char =>
      if char = openBrace then parseObject fuel path index
      else if char = openBracket then parseArray fuel path index
      else if char = quote then
        match parseString text index with
        | .error e => .error e
        | .ok (s, index) => .ok (.string s, index)
      else if startsWith text "true" index then .ok (.bool true, index + 4)
      else if startsWith text "false" index then .ok (.bool false, index + 5)
      else if startsWith text "null" index then .ok (.null, index + 4)
      else
        match numberPattern (text.drop index) with
        | some (lexeme, _) => .ok (.number (number lexeme), index + lexeme.length)
        | none => .error (.syntaxError "Unexpected token" index)

def parseObject : Nat → Text → Nat → Except ParseError (Value ν × Nat)
  | 0, _, _ => .error .exhausted
  | fuel + 1, path, start =>
    let index := skipWhitespace text (start + 1)
    if text[index]? = some closeBrace then .ok (.object [], index + 1)
    else parseMembers fuel path index [] []

/-- The loop of `parseObject`. -/
def parseMembers : Nat → Text → Nat → List Text → List (Text × Value ν) →
    Except ParseError (Value ν × Nat)
  | 0, _, _, _, _ => .error .exhausted
  | fuel + 1, path, start, seen, result =>
    match parseString text (skipWhitespace text start) with
    | .error e => .error e
    | .ok (key, next) =>
      if seen.contains key then .error (.duplicateJsonKey key path)
      else
        let index := skipWhitespace text next
        if text[index]? = some colon then
          match parseValue fuel (path ++ code '.' :: key) (index + 1) with
          | .error e => .error e
          | .ok (value, next) =>
            let index := skipWhitespace text next
            if text[index]? = some comma then
              parseMembers fuel path (index + 1) (key :: seen) (OrderedMap.write key value result)
            else if text[index]? = some closeBrace then
              .ok (.object (OrderedMap.write key value result), index + 1)
            else .error (.syntaxError "Expected \",\" or \"\x7d\"" index)
        else .error (.syntaxError "Expected \":\"" index)

def parseArray : Nat → Text → Nat → Except ParseError (Value ν × Nat)
  | 0, _, _ => .error .exhausted
  | fuel + 1, path, start =>
    let index := skipWhitespace text (start + 1)
    if text[index]? = some closeBracket then .ok (.array [], index + 1)
    else parseItems fuel path index []

/-- The loop of `parseArray`. -/
def parseItems : Nat → Text → Nat → List (Value ν) → Except ParseError (Value ν × Nat)
  | 0, _, _, _ => .error .exhausted
  | fuel + 1, path, start, result =>
    match parseValue fuel (path ++ codes ("[" ++ toString result.length ++ "]")) start with
    | .error e => .error e
    | .ok (value, next) =>
      let index := skipWhitespace text next
      if text[index]? = some comma then parseItems fuel path (index + 1) (result ++ [value])
      else if text[index]? = some closeBracket then .ok (.array (result ++ [value]), index + 1)
      else .error (.syntaxError "Expected \",\" or \"]\"" index)

end

/-- `never_exhausted` says that the fuel is enough. -/
def strictJsonParse : Except ParseError (Value ν) :=
  match parseValue number text (3 * text.length + 3) (codes "$") 0 with
  | .error e => .error e
  | .ok (value, next) =>
    let index := skipWhitespace text next
    if index ≠ text.length then .error (.syntaxError "Unexpected trailing characters" index)
    else .ok value

end Parser

end Mpas.StrictJson
