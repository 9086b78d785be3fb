import TileLua.Codegen.State
import TileLua.Variable

/-! Declarations of the script variables, and access to them by name while a game runs. -/

namespace TileLua.Game

open Codegen (State)

/-- Lua allows only so many locals in a function. -/
def maxLocals : Nat :=
  160

/-- Whether the first of two counted names comes before the second: the more used one, of equally
used ones the lesser.
-/
def ranksBefore (first second : String × Nat) : Bool :=
  second.2 < first.2 || (first.2 == second.2 && first.1 ≤ second.1)

/-- Puts a counted name in its place among ranked ones. -/
def insertRanked (item : String × Nat) : List (String × Nat) → List (String × Nat)
  | [] => [item]
  | first :: rest =>
      if ranksBefore item first then item :: first :: rest else first :: insertRanked item rest

/-- The variables that are plain Lua variables, the most used first. -/
def variablesByUse (state : State) : List String :=
  let counted := state.uses.toList.map fun (name, count) => (Variable.luaText name, count)
  let plain := counted.filter fun (text, _) => Lua.isIdentifier text
  (plain.foldr insertRanked []).map Prod.fst

/-- The variables that are declared as locals. -/
def localVariables (state : State) : List String :=
  (variablesByUse state).take maxLocals

/-- The declarations of all plain variables. -/
def declarations (state : State) : String :=
  let ranked := variablesByUse state
  String.join ((ranked.take maxLocals).map fun name => "local " ++ name ++ " = 0\n")
    ++ String.join ((ranked.drop maxLocals).map fun name => name ++ " = 0\n")

/-- The statement that gives a variable name the same third underscore as compiled code does. -/
def shiftStatement : String :=
  "  if varname:sub(1, " ++ toString Variable.reservedLead.length ++ ") == \""
    ++ Variable.reservedLead ++ "\" then varname = \"_\" .. varname end\n"

/-- The table of functions that set the local of each name. -/
def setterTable (locals : List String) : String :=
  "local __LOCVARSET = \x7b\n"
    ++ String.join (locals.map fun name =>
      "  [" ++ Lua.quote name ++ "] = function(__" ++ name ++ ") " ++ name ++ " = __" ++ name
        ++ " end,\n")
    ++ "nil\x7d\n"

/-- The table of functions that get the local of each name. -/
def getterTable (locals : List String) : String :=
  "local __LOCVARGET = \x7b\n"
    ++ String.join (locals.map fun name =>
      "  [" ++ Lua.quote name ++ "] = function() return " ++ name ++ " end,\n")
    ++ "nil\x7d\n"

/-- The function that sets a variable by name. -/
def setterFunction : String :=
  "function __pulp.setvariable(varname, value)\n"
    ++ shiftStatement
    ++ "  local __varsetter = __LOCVARSET[varname]\n"
    ++ "  if __varsetter then __varsetter(value) else _G[varname] = value end\n"
    ++ "end\n"

/-- The function that gets a variable by name. -/
def getterFunction : String :=
  "function __pulp.getvariable(varname)\n"
    ++ shiftStatement
    ++ "  local __vargetter = __LOCVARGET[varname]\n"
    ++ "  if __vargetter then return __vargetter() else return _G[varname] end\n"
    ++ "end\n"

/-- The function that sets all variables back. -/
def resetFunction (texts : List String) : String :=
  "function __pulp.resetvars()\n"
    ++ String.join (texts.map fun text => "  " ++ text ++ " = 0\n")
    ++ "end\n"

/-- The functions that access variables by name. Locals are out of reach of the global table, so
each has a function of its own.
-/
def accessors (state : State) : String :=
  setterTable (localVariables state) ++ getterTable (localVariables state) ++ setterFunction
    ++ getterFunction ++ resetFunction state.luaVariables.toList

end TileLua.Game
