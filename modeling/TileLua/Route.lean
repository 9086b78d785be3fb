import Std.Data.TreeMap
import TileLua.Json.Basic
import TileLua.Lua
import TileLua.Search

/-! Routes: calls that a tag sends to a handler of a fixed script.
Each pair of script and handler has a global of its own, which the generated code binds once.
-/

namespace TileLua

/-- A handler of a script. -/
structure Route where
  script : String
  handler : String
  deriving DecidableEq, Inhabited, Repr

namespace Route

/-- Every name of a route begins with it. -/
def lead : String :=
  "__OPTTAG__"

/-- A text with an underscore for each character that a name cannot hold. -/
def nameText (text : String) : String :=
  String.ofList (text.toList.map fun c => if Lua.isNameChar c then c else '_')

/-- The name that a route would like to have. -/
def baseName (route : Route) : String :=
  lead ++ nameText (route.script ++ "_" ++ route.handler)

/-- The names that a route may have, in order: the plain one, then numbered from two. -/
def candidate (route : Route) : Nat → String
  | 0 => route.baseName
  | index + 1 => route.baseName ++ "_" ++ toString (index + 2)

/-- A route as JSON. -/
def toJson (route : Route) : Json :=
  .obj [("source", .str route.script), ("call", .str route.handler)]

end Route

/-- The routes of a game by name. -/
abbrev Routes :=
  Std.TreeMap String Route

namespace Routes

/-- Whether a name is free or already stands for the route. -/
def accepts (routes : Routes) (route : Route) (name : String) : Bool :=
  match routes[name]? with
  | some other => other == route
  | none => true

/-- The name of a route: the first candidate that is free or already stands for it. There are no
more candidates taken than routes.
-/
def nameOf (routes : Routes) (route : Route) : String :=
  route.candidate (Search.least (fun index => routes.accepts route (route.candidate index))
    routes.size)

/-- The statements that bind each name to its handler, in name order. -/
def bindings (routes : Routes) : String :=
  String.join (routes.toList.map fun (name, route) =>
    name ++ " = " ++ Engine.scriptTable route.script ++ "[" ++ Lua.quote route.handler ++ "]\n")

/-- The routes by name as JSON. -/
def toJson (routes : Routes) : Json :=
  .obj (routes.toList.map fun (name, route) => (name, route.toJson))

end Routes

end TileLua
