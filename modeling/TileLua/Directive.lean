import TileLua.Text

/-! Directives in comments.
A comment that starts with a square bracket can carry Lua code, a setting, or a tag for the call
before it. The rules below are tried in order on the whole text; the first that reads it decides.
-/

namespace TileLua

/-- The two groups of settings: metadata for the launcher, and switches of the engine. -/
inductive SettingGroup
  | pdxInfo
  | ptl
  deriving DecidableEq, Inhabited, Repr

/-- The bracketed word that introduces a setting of the group. -/
def SettingGroup.mark : SettingGroup → String
  | pdxInfo => "[PDXINFO]"
  | ptl => "[PTL]"

/-- The group as log lines name it. -/
def SettingGroup.name : SettingGroup → String
  | pdxInfo => "PdxInfo"
  | ptl => "Ptl"

/-- What a comment means. -/
inductive Directive
  /-- Lua code, emitted as it is. -/
  | lua (code : String)
  /-- A setting; the value is missing when there is no equals sign. -/
  | setting (group : SettingGroup) (key : String) (value : Option String)
  /-- Makes the call before it go straight to its target. -/
  | direct
  /-- Routes the call before it to the script of that name. -/
  | script (name : String)
  /-- Any other bracketed remark. -/
  | tag (text : String)
  /-- An ordinary comment. -/
  | text
  deriving DecidableEq, Inhabited, Repr

namespace Directive

open Text (after?)

/-- Call tags are used up by the call before them and never printed. -/
def isCallTag : Directive → Bool
  | direct => true
  | script _ => true
  | _ => false

/-- `[LUA]`, a space if any, and code. -/
def lua? (text : List Char) : Option Directive :=
  (after? "[LUA]" text).map fun
    | ' ' :: code => lua (String.ofList code)
    | code => lua (String.ofList code)

/-- The mark of the group, spaces and tabs, a key up to the first equals sign, and after that sign a
value. Key and value are trimmed.
-/
def setting? (group : SettingGroup) (text : List Char) : Option Directive :=
  (after? group.mark text).map fun rest =>
    let rest := rest.dropWhile fun c => c == ' ' || c == '\t'
    let key := String.ofList (rest.takeWhile (· != '='))
    let value := match rest.dropWhile (· != '=') with
      | [] => none
      | _ :: value => some (Text.trim (String.ofList value))
    setting group (Text.trim key) value

/-- `[DIRECT]` and nothing else. -/
def direct? (text : List Char) : Option Directive :=
  (after? "[DIRECT]" text).bind fun rest => if rest = [] then some direct else none

/-- `[SCRIPT:`, a name without closing brackets, and a closing bracket at the end. -/
def script? (text : List Char) : Option Directive :=
  (after? "[SCRIPT:" text).bind fun rest =>
    let name := rest.takeWhile (· != ']')
    if name ≠ [] ∧ rest.dropWhile (· != ']') = [']'] then some (script (String.ofList name))
    else none

/-- An opening bracket and anything. -/
def tag? (text : List Char) : Option Directive :=
  (after? "[" text).map fun _ => tag (String.ofList text)

/-- What a comment text means. -/
def parse (text : String) : Directive :=
  let chars := text.toList
  (lua? chars <|> setting? .pdxInfo chars <|> setting? .ptl chars <|> direct? chars
    <|> script? chars <|> tag? chars).getD .text

end Directive

end TileLua
