import TileLua.Search
import TileLua.Text

/-! Pieces of Lua text.
In a quoted literal a backslash, a line feed, a form feed and a double quote are written as escapes;
every other character stands for itself. A line comment runs to the end of its line; a long comment
runs to the first bracket that closes it, so its level is chosen to be one that the text itself does
not close.
-/

namespace TileLua.Lua

-----------------------------------------------------------------------------------------
-- Names
-----------------------------------------------------------------------------------------

/-- The words that Lua reserves. -/
def keywords : List String :=
  ["and", "break", "do", "else", "elseif", "end", "false", "for", "function", "goto", "if", "in",
    "local", "nil", "not", "or", "repeat", "return", "then", "true", "until", "while"]

/-- An ASCII letter or an underscore. -/
def isNameStart (c : Char) : Bool :=
  c.isAlpha || c == '_'

/-- An ASCII letter, an ASCII digit or an underscore. -/
def isNameChar (c : Char) : Bool :=
  c.isAlphanum || c == '_'

/-- Whether a text has the letters of an identifier, keyword or not. -/
def isNameShaped : List Char → Bool
  | [] => false
  | c :: rest => isNameStart c && rest.all isNameChar

/-- Whether a text is an identifier: shaped like a name and not reserved. -/
def isIdentifier (name : String) : Bool :=
  isNameShaped name.toList && !keywords.contains name

/-- Whether a text is a single token: not empty, not led by a digit, free of spaces and dashes.
Dots are allowed, so `event.x` is a token.
-/
def isToken (text : String) : Bool :=
  match text.toList with
  | [] => false
  | c :: rest => !c.isDigit && (c :: rest).all fun d => d != ' ' && d != '-'

-----------------------------------------------------------------------------------------
-- Quoted literals
-----------------------------------------------------------------------------------------

/-- The characters that stand for `c` inside a literal. -/
def escapeChar (c : Char) : List Char :=
  if c = '\\' then ['\\', '\\']
  else if c = '\n' then ['\\', 'n']
  else if c = '\x0c' then ['\\', 'f']
  else if c = '"' then ['\\', '"']
  else [c]

/-- The text of a literal between its quotes. -/
def escape (text : String) : String :=
  String.ofList (text.toList.flatMap escapeChar)

/-- A text as a double-quoted literal. -/
def quote (text : String) : String :=
  "\"" ++ escape text ++ "\""

-----------------------------------------------------------------------------------------
-- Comments
-----------------------------------------------------------------------------------------

/-- The bracket that opens a long comment of the given level. -/
def openBracket (level : Nat) : List Char :=
  '[' :: (List.replicate level '=' ++ ['['])

/-- The bracket that closes a long comment of the given level. -/
def closeBracket (level : Nat) : List Char :=
  ']' :: (List.replicate level '=' ++ [']'])

/-- Whether a text followed by the closing bracket is closed exactly there, and not earlier. -/
def closesAtEnd (text : List Char) (level : Nat) : Bool :=
  Text.firstIndex? (closeBracket level) (text ++ closeBracket level) == some text.length

/-- The smallest level whose closing bracket does not end the text early. No closing bracket
of a level as large as the text is long fits into the text, so the search needs no more.
-/
def bracketLevel (text : List Char) : Nat :=
  Search.least (closesAtEnd text) text.length

/-- Whether a text would open a long comment right after two dashes: `[[`, `[=[` and so on. -/
def opensLongBracket : List Char → Bool
  | '[' :: rest => (rest.dropWhile (· == '=')).head? == some '['
  | _ => false

/-- A text as a comment of its own line, or of the line it is appended to (`inline`), which a
caret marks.
-/
def comment (text : String) (inline : Bool) : String :=
  let chars := text.toList
  let marker := if inline then "^" else ""
  if chars.contains '\n' || (!inline && opensLongBracket chars) then
    let level := bracketLevel chars
    "--" ++ String.ofList (openBracket level) ++ marker ++ text
      ++ String.ofList (closeBracket level)
  else
    "--" ++ marker ++ text

/-- Breaks up double closing brackets, left to right, for a text inside a long comment of
level zero.
-/
def loosenBrackets : List Char → List Char
  | ']' :: ']' :: rest => ']' :: ' ' :: ']' :: loosenBrackets rest
  | c :: rest => c :: loosenBrackets rest
  | [] => []

/-- A text with its double closing brackets broken up. -/
def loosen (text : String) : String :=
  String.ofList (loosenBrackets text.toList)

end TileLua.Lua

-----------------------------------------------------------------------------------------
-- Expressions of the game engine
-----------------------------------------------------------------------------------------

namespace TileLua.Engine

/-- The table of the script of that name. -/
def scriptTable (name : String) : String :=
  "__pulp:getScript(" ++ Lua.quote name ++ ")"

/-- The object on which a handler finds the other handlers of its own script. -/
def ownObject : String :=
  "__self"

/-- The object on which code inside a `tell` finds the handlers of the one it tells. -/
def actorObject : String :=
  "__actor.script"

end TileLua.Engine
