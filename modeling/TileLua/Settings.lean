import Std.Data.TreeMap
import TileLua.Directive
import TileLua.Json.Basic

/-! Settings that directives of a game collect, for the launcher and for the engine. -/

namespace TileLua

/-- The value of an engine switch. -/
inductive SettingValue
  | flag (value : Bool)
  | text (value : String)
  deriving DecidableEq, Inhabited, Repr

/-- Three spellings of falsehood are read as such; everything else is text. -/
def SettingValue.ofText (text : String) : SettingValue :=
  if text = "0" ∨ text = "False" ∨ text = "false" then .flag false else .text text

/-- A switch is on when it is true or a text that is not empty. -/
def SettingValue.isEnabled : SettingValue → Bool
  | flag value => value
  | text value => !value.isEmpty

/-- The value of a switch as JSON. -/
def SettingValue.toJson : SettingValue → Json
  | flag value => .bool value
  | text value => .str value

/-- The settings of a game. -/
structure Settings where
  pdxInfo : Std.TreeMap String String := {}
  ptl : Std.TreeMap String SettingValue := {}
  deriving Inhabited

namespace Settings

/-- Engine switches that are off unless a game sets them. -/
def initial : Settings :=
  let off := SettingValue.flag false
  { ptl := Std.TreeMap.ofList [("legacySound", off), ("showFPS", off)] }

/-- Sets a key, in place of an earlier value. -/
def set (settings : Settings) (group : SettingGroup) (key value : String) : Settings :=
  match group with
  | .pdxInfo => { settings with pdxInfo := settings.pdxInfo.insert key value }
  | .ptl => { settings with ptl := settings.ptl.insert key (.ofText value) }

/-- Whether an engine switch is on. -/
def isEnabled (settings : Settings) (key : String) : Bool :=
  (settings.ptl[key]?.map SettingValue.isEnabled).getD false

/-- The launcher metadata as JSON. -/
def pdxInfoJson (settings : Settings) : Json :=
  .obj (settings.pdxInfo.toList.map fun (key, value) => (key, .str value))

/-- The engine switches as JSON. -/
def ptlJson (settings : Settings) : Json :=
  .obj (settings.ptl.toList.map fun (key, value) => (key, value.toJson))

/-- The settings as JSON. -/
def toJson (settings : Settings) : Json :=
  .obj [("pdxinfo", settings.pdxInfoJson), ("ptl", settings.ptlJson)]

end Settings

end TileLua
