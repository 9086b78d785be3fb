import TileLua.Json.Number

/-! Reading JSON texts.
A lexer cuts the text into tokens, one character at a time; a machine with a stack of open
arrays and objects then assembles the value, one token at a time.
-/

namespace TileLua.Json

/-- A lexical unit of a JSON text. -/
inductive Token
  | openArray
  | closeArray
  | openObject
  | closeObject
  | comma
  | colon
  | text (value : String)
  | scalar (value : Json)

/-- Where the lexer stands. Characters already read of an open unit are kept in reverse. -/
inductive Lexer
  | between
  /-- Inside a string; `high` is the first half of a surrogate pair still to be completed. -/
  | inString (done : List Char) (high : Option Nat)
  | afterBackslash (done : List Char) (high : Option Nat)
  | inUnicode (done : List Char) (high : Option Nat) (digits : List Char)
  /-- Inside a number or a word. -/
  | inScalar (done : List Char)

/-- Whether a character can be part of a number or of one of the words. -/
def isScalarChar (c : Char) : Bool :=
  c.isAlphanum || c == '-' || c == '+' || c == '.'

/-- The value of a number or a word. -/
def scalarOf? (chars : List Char) : Option Json :=
  if chars = "null".toList then some null
  else if chars = "true".toList then some (bool true)
  else if chars = "false".toList then some (bool false)
  else readNumber? chars

/-- The value of a hexadecimal digit. -/
def hexValue? (c : Char) : Option Nat :=
  if c.isDigit then some (c.toNat - '0'.toNat)
  else if 'a' ≤ c ∧ c ≤ 'f' then some (c.toNat - 'a'.toNat + 10)
  else if 'A' ≤ c ∧ c ≤ 'F' then some (c.toNat - 'A'.toNat + 10)
  else none

/-- The character of an escape of one letter. -/
def escapeOf? (c : Char) : Option Char :=
  [('"', '"'), ('\\', '\\'), ('/', '/'), ('b', '\x08'), ('f', '\x0c'), ('n', '\n'), ('r', '\r'),
    ('t', '\t')].lookup c

/-- What a code unit adds to a string, given the first half of a pair before it. -/
def addUnit? (done : List Char) (high : Option Nat) (unit : Nat) : Option Lexer :=
  match high with
  | some first =>
      if 0xdc00 ≤ unit ∧ unit < 0xe000 then
        let code := 0x10000 + (first - 0xd800) * 0x400 + (unit - 0xdc00)
        some (.inString (Char.ofNat code :: done) none)
      else none
  | none =>
      if 0xd800 ≤ unit ∧ unit < 0xdc00 then some (.inString done (some unit))
      else if 0xdc00 ≤ unit ∧ unit < 0xe000 then none
      else some (.inString (Char.ofNat unit :: done) none)

/-- The token that a single character makes outside strings, numbers and words. -/
def punctuation? (c : Char) : Option Token :=
  match c with
  | '[' => some .openArray
  | ']' => some .closeArray
  | '\x7b' => some .openObject
  | '\x7d' => some .closeObject
  | ',' => some .comma
  | ':' => some .colon
  | _ => none

/-- Reads one character outside strings, numbers and words. -/
def beginToken? (c : Char) : Option (Lexer × List Token) :=
  if c = ' ' ∨ c = '\t' ∨ c = '\n' ∨ c = '\r' then some (.between, [])
  else if c = '"' then some (.inString [] none, [])
  else if isScalarChar c then some (.inScalar [c], [])
  else (punctuation? c).map fun token => (.between, [token])

/-- Reads one character; the tokens are those it completes. -/
def Lexer.step? (lexer : Lexer) (c : Char) : Option (Lexer × List Token) :=
  match lexer with
  | .between => beginToken? c
  | .inString done high =>
      if c = '\\' then some (.afterBackslash done high, [])
      else if high.isSome ∨ c.toNat < 0x20 then none
      else if c = '"' then some (.between, [.text (String.ofList done.reverse)])
      else some (.inString (c :: done) none, [])
  | .afterBackslash done high =>
      if c = 'u' then some (.inUnicode done high [], [])
      else if high.isSome then none
      else (escapeOf? c).map fun plain => (.inString (plain :: done) none, [])
  | .inUnicode done high digits =>
      if digits.length < 3 then some (.inUnicode done high (digits ++ [c]), [])
      else do
        let values ← (digits ++ [c]).mapM hexValue?
        let next ← addUnit? done high (values.foldl (fun unit value => unit * 16 + value) 0)
        return (next, [])
  | .inScalar done =>
      if isScalarChar c then some (.inScalar (c :: done), [])
      else do
        let value ← scalarOf? done.reverse
        let (next, tokens) ← beginToken? c
        return (next, .scalar value :: tokens)

/-- The tokens of a text, after those already found, which are kept in reverse. -/
def tokensFrom? (found : List Token) : Lexer → List Char → Option (List Token)
  | .between, [] => some found.reverse
  | .inScalar done, [] =>
      (scalarOf? done.reverse).map fun value => (.scalar value :: found).reverse
  | _, [] => none
  | lexer, c :: rest =>
      match lexer.step? c with
      | some (next, tokens) => tokensFrom? (tokens.reverse ++ found) next rest
      | none => none

/-- An array or object that is still open, with its finished parts in reverse. -/
inductive Frame
  | array (done : List Json)
  | object (done : List (String × Json)) (name : String)

/-- What the assembling machine can read next. -/
inductive Expecting
  | value
  | firstItem
  | firstName (done : List (String × Json))
  | name (done : List (String × Json))
  | nameEnd (done : List (String × Json)) (name : String)
  | next (value : Json)

/-- Assembles the value of a token sequence. -/
def assemble? : Expecting → List Frame → List Token → Option Json
  | .next value, [], [] => some value
  | _, _, [] => none
  | .next value, .array done :: frames, .comma :: rest =>
      assemble? .value (.array (value :: done) :: frames) rest
  | .next value, .array done :: frames, .closeArray :: rest =>
      assemble? (.next (arr (value :: done).reverse)) frames rest
  | .next value, .object done name :: frames, .comma :: rest =>
      assemble? (.name ((name, value) :: done)) frames rest
  | .next value, .object done name :: frames, .closeObject :: rest =>
      assemble? (.next (obj ((name, value) :: done).reverse)) frames rest
  | .firstName [], frames, .closeObject :: rest => assemble? (.next (obj [])) frames rest
  | .firstName done, frames, .text name :: rest => assemble? (.nameEnd done name) frames rest
  | .name done, frames, .text name :: rest => assemble? (.nameEnd done name) frames rest
  | .nameEnd done name, frames, .colon :: rest =>
      assemble? .value (.object done name :: frames) rest
  | .firstItem, .array _ :: frames, .closeArray :: rest =>
      assemble? (.next (arr [])) frames rest
  | .firstItem, frames, token :: rest
  | .value, frames, token :: rest =>
      match token with
      | .scalar value => assemble? (.next value) frames rest
      | .text text => assemble? (.next (str text)) frames rest
      | .openArray => assemble? .firstItem (.array [] :: frames) rest
      | .openObject => assemble? (.firstName []) frames rest
      | _ => none
  | _, _, _ => none

/-- Reads a JSON text. -/
def parse? (text : String) : Option Json := do
  assemble? .value [] (← tokensFrom? [] .between text.toList)

end TileLua.Json
