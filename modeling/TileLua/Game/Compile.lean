import TileLua.Codegen.Script
import TileLua.Game.Variables

/-! Compiling a whole game. -/

namespace TileLua.Game

open Codegen (State)

/-- The engine switch that turns on the replacement of handlers that only delegate. -/
def fullMimics : String :=
  "fullMimics"

/-- A compiled game. -/
structure Compiled where
  code : String
  report : Report
  deriving Inhabited

/-- The state before an export is compiled. -/
def initialState (game : Json) : State :=
  match game.get? "tiles" with
  | some tiles => { tiles := .ofJson tiles, journal := (TileTable.notices tiles).toArray }
  | none => {}

/-- The code of a game around the code of its scripts. -/
def codeAround (scripts : String) (state : State) : String :=
  declarations state ++ "\n" ++ scripts
    ++ (if state.settings.isEnabled fullMimics then Delegation.table state.delegations else "")
    ++ "\n" ++ accessors state ++ state.routes.bindings

/-- Compiles an export and lists its problems at the end. -/
def build (game : Json) : Codegen Compiled := do
  let scripts ← Codegen.scripts game
  let state ← get
  state.report.messages.forM fun message => Codegen.note (.listed message)
  return { code := codeAround scripts state, report := state.report }

/-- Compiles an export: the code and the report, or the defect that stopped it. -/
def compile (game : Json) : Except Defect Compiled :=
  match build game (initialState game) with
  | .ok compiled _ => .ok compiled
  | .error defect _ => .error defect

end TileLua.Game
