import TileLua.Lua

/-! Script variables in Lua.
A variable whose name is an identifier keeps it; any other is a field of the global table. Two
leading underscores are reserved for generated names, so a variable that has them gets a third.
Some variables have a meaning of their own: positions of an event are computed once in a function
and read through a local, calendar fields come from the clock, and engine settings are fields of the
engine.
-/

namespace TileLua.Variable

/-- Settings of the engine that scripts can read and write begin with it. -/
def extensionLead : String :=
  "__PTLE_"

/-- Names made by the compiler begin with it. -/
def reservedLead : String :=
  "__"

/-- Whether a name is used as it is and is not a script variable: a path with dots, or an engine
setting.
-/
def isVerbatim (name : String) : Bool :=
  name.toList.contains '.' || Text.startsWith name extensionLead

/-- The Lua expression for the global of that name. -/
def global (name : String) : String :=
  if Lua.isIdentifier name then name else "_G[" ++ Lua.quote name ++ "]"

/-- The name under which a script variable is a Lua variable. -/
def shifted (name : String) : String :=
  if Text.startsWith name reservedLead then "_" ++ name else name

/-- The Lua expression for a script variable. -/
def luaText (name : String) : String :=
  global (shifted name)

/-- How a special variable is read. -/
structure Special where
  /-- The Lua expression. -/
  text : String
  /-- The local declaration that the expression depends on. -/
  binding : Option String
  deriving DecidableEq, Inhabited, Repr

/-- Every special variable, by name. -/
def specials : List (String × Special) :=
  [("event.px", ⟨"__event_px", some "local __event_px = __pulp.player.x"⟩),
    ("event.py", ⟨"__event_py", some "local __event_py = __pulp.player.y"⟩),
    ("event.x", ⟨"__event_x", some "local __event_x = __actor.x or __pulp.player.x"⟩),
    ("event.y", ⟨"__event_y", some "local __event_y = __actor.y or __pulp.player.y"⟩),
    ("event.dx", ⟨"__event_dx", some "local __event_dx = event.dx or 0"⟩),
    ("event.dy", ⟨"__event_dy", some "local __event_dy = event.dy or 0"⟩),
    ("event.tile", ⟨"__event_tile", some "local __event_tile = __actor.name or 0"⟩),
    ("event.room", ⟨"event.room.name", none⟩),
    ("event.player", ⟨"__pulp.player.name", none⟩),
    ("datetime.year", ⟨"__getTime().year", none⟩),
    ("datetime.year99", ⟨"--[[(year99)]] (__getTime().year % 100)", none⟩),
    ("datetime.month", ⟨"__getTime().month", none⟩),
    ("datetime.day", ⟨"__getTime().day", none⟩),
    ("datetime.weekday", ⟨"(__getTime().weekday - 1)", none⟩),
    ("datetime.hour", ⟨"__getTime().hour", none⟩),
    ("datetime.hour12", ⟨"--[[(hour12)]] ((__getTime().hour % 12) + 1)", none⟩),
    ("datetime.minute", ⟨"__getTime().minute", none⟩),
    ("datetime.second", ⟨"__getTime().second", none⟩),
    ("datetime.millisecond", ⟨"__getTime().millisecond --[[(PTL-only?)]]", none⟩),
    ("datetime.ampm", ⟨"--[[(ampm)]] (__getTime().hour < 12 and \"am\" or \"pm\")", none⟩),
    ("datetime.AMPM",
      ⟨"--[[(AMPM)]] (__getTime().hour < 12 and \"AM\" or \"PM\")  --[[(PTL-only?)]]", none⟩),
    ("datetime.timestamp", ⟨"__getSecondsSinceEpoch()", none⟩),
    ("__PTLE_SMOOTH_MOVEMENT_SPEED", ⟨"__pulp.PTLE_SMOOTH_MOVEMENT_SPEED", none⟩),
    ("__PTLE_SMOOTH_OFFSET_X", ⟨"__pulp.PTLE_SMOOTH_OFFSET_X", none⟩),
    ("__PTLE_SMOOTH_OFFSET_Y", ⟨"__pulp.PTLE_SMOOTH_OFFSET_Y", none⟩),
    ("__PTLE_CONFIRM_DAS", ⟨"__pulp.PTLE_CONFIRM_DAS", none⟩),
    ("__PTLE_CANCEL_DAS", ⟨"__pulp.PTLE_CANCEL_DAS", none⟩),
    ("__PTLE_V_DAS", ⟨"__pulp.PTLE_V_DAS", none⟩),
    ("__PTLE_H_DAS", ⟨"__pulp.PTLE_H_DAS", none⟩)]

/-- How a variable is read, if it is special. -/
def special? (name : String) : Option Special :=
  specials.lookup name

end TileLua.Variable
