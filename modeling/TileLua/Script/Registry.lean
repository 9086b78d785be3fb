import TileLua.Json.Basic
import TileLua.Search

/-! The registry of scripts.
A script belongs to the game, a room or a tile. It is registered under its owner's name, made
unique, and gets the next slot of the script table.
-/

namespace TileLua

/-- What a script belongs to. -/
inductive ScriptKind
  | global
  | room
  | tile
  deriving DecidableEq, Inhabited, Repr

namespace ScriptKind

/-- Every kind. -/
def all : List ScriptKind :=
  [global, room, tile]

/-- The code of a kind in an export. -/
def code : ScriptKind → Int64
  | global => 0
  | room => 1
  | tile => 2

/-- The kind of a code. -/
def ofCode? (code : Int64) : Option ScriptKind :=
  all.find? fun kind => kind.code == code

/-- The word for a kind in the engine. -/
def word : ScriptKind → String
  | global => "global"
  | room => "room"
  | tile => "tile"

end ScriptKind

/-- The scripts registered so far, and the names of those that may own one. -/
structure Registry where
  /-- The names of the rooms, by number. -/
  rooms : List (Option String) := []
  /-- The names of the tiles, by number. -/
  tiles : List (Option String) := []
  /-- The names given so far, the latest first. -/
  taken : List String := []
  deriving Inhabited

namespace Registry

/-- A registered script. -/
structure Entry where
  name : String
  kind : ScriptKind
  id : Int64
  /-- The Lua expression of its slot. -/
  slot : String
  deriving DecidableEq, Inhabited, Repr

/-- The names in a list of rooms or tiles. -/
def namesOfJson : Option Json → List (Option String)
  | some (.arr owners) => owners.map fun owner => (owner.get? "name").bind Json.asText?
  | _ => []

/-- The registry of an export, before any script. -/
def ofJson (game : Json) : Registry :=
  { rooms := namesOfJson (game.get? "rooms"), tiles := namesOfJson (game.get? "tiles") }

/-- The number of scripts registered. -/
def size (registry : Registry) : Nat :=
  registry.taken.length

/-- The name at a number of a list of names. -/
def nameAt? (names : List (Option String)) (id : Int64) : Option String :=
  if 0 ≤ id.toInt then names[id.toInt.toNat]?.join else none

/-- The name of the owner of a script. The game itself has the number zero. -/
def ownerName? (registry : Registry) (kind : ScriptKind) (id : Int64) : Option String :=
  match kind with
  | .global => if id = 0 then some "game" else none
  | .room => nameAt? registry.rooms id
  | .tile => nameAt? registry.tiles id

/-- The name for a script whose owner has none. -/
def placeholder (kind : ScriptKind) (id : Int64) : String :=
  "__UNKNOWN_SCRIPT_" ++ toString kind.code ++ "_" ++ toString id

/-- The name that a script would like to have. -/
def baseName (registry : Registry) (kind : ScriptKind) (id : Int64) : String :=
  (registry.ownerName? kind id).getD (placeholder kind id)

/-- The names that a script may have, in order: its base name with more and more marks before it. -/
def candidate (kind : ScriptKind) (id : Int64) (base : String) : Nat → String
  | 0 => base
  | count + 1 =>
      "_" ++ toString kind.code ++ "_" ++ toString id ++ "_" ++ candidate kind id base count

/-- The first candidate that is not taken. There are no more candidates taken than names. -/
def freeName (registry : Registry) (kind : ScriptKind) (id : Int64) : String :=
  let candidate := candidate kind id (registry.baseName kind id)
  candidate (Search.least (fun count => !registry.taken.contains (candidate count))
    registry.taken.length)

/-- Registers a script. -/
def register (registry : Registry) (kind : ScriptKind) (id : Int64) : Entry × Registry :=
  let name := registry.freeName kind id
  ({ name, kind, id, slot := "__script[" ++ toString (registry.size + 1) ++ "]" },
    { registry with taken := name :: registry.taken })

end Registry

end TileLua
