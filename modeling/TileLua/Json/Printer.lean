import TileLua.Decimal.Layout
import TileLua.Json.Basic

/-! Writing JSON texts.
The compact text is canonical: no blanks, members in key order. The pretty text indents by two
spaces and lists members as they stand.
-/

namespace TileLua.Json

/-- Doubles in JSON texts are plain from `0.00001` and below ten to the sixteenth, keep `.0`, and
mark a positive exponent with a plus sign.
-/
def numberLayout : Decimal.Layout :=
  { plainFrom := -5, plainBelow := 16, positiveMark := "+", tie := .even,
    infinity := "null", notANumber := "null" }

/-- The characters that stand for `c` inside a JSON string. -/
def escapeChar (c : Char) : List Char :=
  if c = '"' then ['\\', '"']
  else if c = '\\' then ['\\', '\\']
  else if c = '\x08' then ['\\', 'b']
  else if c = '\t' then ['\\', 't']
  else if c = '\n' then ['\\', 'n']
  else if c = '\x0c' then ['\\', 'f']
  else if c = '\r' then ['\\', 'r']
  else if c.toNat < 0x20 then
    ['\\', 'u', '0', '0', Nat.digitChar (c.toNat / 16), Nat.digitChar (c.toNat % 16)]
  else [c]

/-- A text as a JSON string. -/
def quote (text : String) : String :=
  "\"" ++ String.ofList (text.toList.flatMap escapeChar) ++ "\""

mutual

/-- The canonical text of a value. -/
def compact : Json → String
  | null => "null"
  | bool value => if value then "true" else "false"
  | int value => toString value
  | float value => numberLayout.render value
  | str text => quote text
  | arr items => "[" ++ ",".intercalate (compactItems items) ++ "]"
  | obj members =>
      let texts := (tableOf (compactMembers members)).toList.map fun (name, text) =>
        quote name ++ ":" ++ text
      "\x7b" ++ ",".intercalate texts ++ "\x7d"

/-- The canonical texts of the items of an array. -/
def compactItems : List Json → List String
  | [] => []
  | item :: rest => compact item :: compactItems rest

/-- The names of members with the canonical texts of their values. -/
def compactMembers : List (String × Json) → List (String × String)
  | [] => []
  | (name, value) :: rest => (name, compact value) :: compactMembers rest

end

/-- A bracketed list of texts, each on a line of its own one step inside `margin`. -/
def bracketed (opener closer margin : String) (texts : List String) : String :=
  if texts.isEmpty then opener ++ closer
  else
    let inner := margin ++ "  "
    opener ++ "\n" ++ inner ++ (",\n" ++ inner).intercalate texts ++ "\n" ++ margin ++ closer

mutual

/-- The indented text of a value that starts on a line indented by `margin`. -/
def prettyFrom (margin : String) : Json → String
  | arr items => bracketed "[" "]" margin (prettyItems (margin ++ "  ") items)
  | obj members => bracketed "\x7b" "\x7d" margin (prettyMembers (margin ++ "  ") members)
  | value => compact value

/-- The indented texts of the items of an array. -/
def prettyItems (margin : String) : List Json → List String
  | [] => []
  | item :: rest => prettyFrom margin item :: prettyItems margin rest

/-- The indented texts of the members of an object. -/
def prettyMembers (margin : String) : List (String × Json) → List String
  | [] => []
  | (name, value) :: rest =>
      (quote name ++ ": " ++ prettyFrom margin value) :: prettyMembers margin rest

end

/-- The indented text of a value. -/
def pretty (value : Json) : String :=
  prettyFrom "" value

end TileLua.Json
