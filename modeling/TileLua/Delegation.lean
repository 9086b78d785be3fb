import TileLua.Json.Basic
import TileLua.Lua

/-! Handlers that do nothing but hand their event to a tile.
Such a handler can be replaced, when the game starts, by the handler of the tile itself.
-/

namespace TileLua

/-- A handler that only delegates, and the tile it delegates to. -/
structure Delegation where
  owner : String
  event : String
  targetId : Int64
  targetName : String
  deriving DecidableEq, Inhabited, Repr

namespace Delegation

/-- The statement that replaces the handler. For the handler of any event, every handler that the
owner lacks is taken over.
-/
def statement (delegation : Delegation) : String :=
  let owner := Engine.scriptTable delegation.owner
  let target := Engine.scriptTable delegation.targetName
  if delegation.event = "any" then
    "  for name, fn in pairs(" ++ target ++ ") do -- (for 'any')\n"
      ++ "    if not " ++ owner ++ "[name] and type(fn) == \"function\" then\n"
      ++ "      " ++ owner ++ "[name] = fn\n"
      ++ "    end\n"
      ++ "  end\n"
  else
    let event := Lua.quote delegation.event
    "  " ++ owner ++ "[" ++ event ++ "] = " ++ target ++ "[" ++ event ++ "] or " ++ target
      ++ ".any\n"

/-- The statements of all delegations, repeated so that chains of them settle; empty when there is
none.
-/
def table (delegations : List Delegation) : String :=
  if delegations.isEmpty then ""
  else
    "\n-- full mimics\nfor _=1,5 do\n" ++ String.join (delegations.map statement) ++ "end\n"

/-- A delegation as JSON. -/
def toJson (delegation : Delegation) : Json :=
  .obj [("owner", .str delegation.owner), ("event", .str delegation.event),
    ("target_id", .int delegation.targetId.toInt), ("target_name", .str delegation.targetName)]

end Delegation

end TileLua
