import TileLua.Json.Basic
import TileLua.Notice
import TileLua.Syntax.Tree

/-! Tiles by name, and references to them by number.
A literal that names a known tile is folded to the tile's number when the game is compiled, which
saves the engine the look-up.
-/

namespace TileLua

/-- The numbers of the tiles that have a name. -/
structure TileTable where
  ids : Std.TreeMap String Int64 := {}
  deriving Inhabited

namespace TileTable

/-- The table of named numbers, the last of a name counting. -/
def ofList (tiles : List (String × Int64)) : TileTable :=
  { ids := Json.tableOf tiles }

/-- The number of the tile of that name. -/
def get? (tiles : TileTable) (name : String) : Option Int64 :=
  tiles.ids[name]?

/-- The number of tiles with a name. -/
def size (tiles : TileTable) : Nat :=
  tiles.ids.size

/-- The name and number of an entry of a tile list. -/
def entryOf? (entry : Json) : Option (String × Int64) := do
  let name ← (← entry.get? "name").asText?
  let id ← (← entry.get? "id").asWord?
  return (name, id)

/-- The table of the tile list of an export; entries without a name or a number are skipped. -/
def ofJson : Json → TileTable
  | .arr entries => ofList (entries.filterMap entryOf?)
  | _ => ofList []

/-- What there is to say about the tile list of an export. -/
def notices : Json → List Notice
  | .arr entries =>
      entries.zipIdx.filterMap fun (entry, index) =>
        if (entryOf? entry).isNone then some (.tileSkipped index) else none
  | _ => [.tileTableNotArray]

/-- The number and the name of the tile that an expression names. -/
def named? (tiles : TileTable) : Expr → Option (Int64 × String)
  | .str name => (tiles.get? name).map fun id => (id, name)
  | _ => none

end TileTable

end TileLua
