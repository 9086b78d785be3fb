import Std.Data.TreeSet
import TileLua.Defect
import TileLua.Delegation
import TileLua.Lua
import TileLua.Notice
import TileLua.Report
import TileLua.Route
import TileLua.Settings
import TileLua.TileTable

/-! The state of code generation and the operations on it.
The state survives a defect, so what was found before the defect can still be told. Its nested
parts (margin, binding frames, dispatch objects, position) change only around an action, and are
put back when the action ends, whether it succeeds or fails.
-/

namespace TileLua

/-- What code generation knows while it goes through a game. -/
structure Codegen.State where
  /-- The depth of the margin, in steps of two spaces. -/
  indent : Nat := 1
  /-- The problems met so far, in order. -/
  diagnostics : List Diagnostic := []
  /-- The Lua texts of the script variables seen so far. -/
  luaVariables : Std.TreeSet String := {}
  /-- How often each script variable was used, by its name in the script. -/
  uses : Std.TreeMap String Nat := {}
  /-- The local declarations that the open functions need, the innermost function first. -/
  frames : List (Std.TreeSet String) := []
  /-- The objects that enclosing code dispatches calls on, the innermost first. -/
  dispatch : List String := []
  /-- What the current script's own object is an alias of. -/
  root : String := ""
  /-- The events that the current script handles. -/
  ownEvents : Std.TreeSet String := {}
  settings : Settings := Settings.initial
  routes : Routes := {}
  delegations : List Delegation := []
  tiles : TileTable := {}
  /-- The position of the command being compiled. -/
  cursor : Option Location := none
  /-- Everything told so far. -/
  journal : Array Notice := #[]
  deriving Inhabited

/-- Code generation: it reads and changes the state, and a defect stops it. -/
abbrev Codegen :=
  EStateM Defect Codegen.State

namespace Codegen

/-- The results of a run up to this state. -/
def State.report (state : State) : Report :=
  { diagnostics := state.diagnostics, settings := state.settings, routes := state.routes,
    delegations := state.delegations }

/-- Tells something. -/
def note (notice : Notice) : Codegen Unit :=
  modify fun state => { state with journal := state.journal.push notice }

/-- The value, or the defect. -/
def ofExcept {α : Type} : Except Defect α → Codegen α
  | .ok value => pure value
  | .error defect => throw defect

/-- Runs an action in a changed state, and changes the state again when the action ends, whether
it succeeds or fails. The second change also sees the state before the first.
-/
def around {α : Type} (enter : State → State) (leave : State → State → State)
    (action : Codegen α) : Codegen α := fun before =>
  match action (enter before) with
  | .ok value after => .ok value (leave before after)
  | .error defect after => .error defect (leave before after)

/-- The margin of a line at the current depth. -/
def margin : Codegen String :=
  return String.join (List.replicate (← get).indent "  ")

/-- Runs an action some steps further in. -/
def indented {α : Type} (steps : Nat) (action : Codegen α) : Codegen α :=
  around (fun state => { state with indent := state.indent + steps })
    (fun _ state => { state with indent := state.indent - steps }) action

/-- Runs an action inside a function of its own, and gives with its result the local declarations
that the function needs, in order.
-/
def inFunction {α : Type} (action : Codegen α) : Codegen (α × List String) :=
  around (fun state => { state with frames := {} :: state.frames })
    (fun _ state => { state with frames := state.frames.tail })
    do
      let value ← action
      let frame := (← get).frames.headD {}
      return (value, frame.toList)

/-- Adds a local declaration to the innermost function. -/
def bindLocal (binding : String) : Codegen Unit := do
  match (← get).frames with
  | frame :: outer =>
      if frame.contains binding then return ()
      else
        modify fun state => { state with frames := frame.insert binding :: outer }
        note (.bindingCached binding)
  | [] => note (.bindingOutsideFunction binding)

/-- Runs an action that dispatches calls on an object. -/
def dispatchingOn {α : Type} (object : String) (action : Codegen α) : Codegen α :=
  around (fun state => { state with dispatch := object :: state.dispatch })
    (fun _ state => { state with dispatch := state.dispatch.tail }) action

/-- The object that calls are dispatched on: outside of everything, the script's own. -/
def State.dispatchObject (state : State) : String :=
  state.dispatch.headD Engine.ownObject

/-- Runs an action at a position. -/
def atLocation {α : Type} (location : Location) (action : Codegen α) : Codegen α :=
  around (fun state => { state with cursor := some location })
    (fun before state => { state with cursor := before.cursor }) action

/-- Records a message as an error at the current position. -/
def record (message issuer : String) : Codegen Unit := do
  note (.problem message)
  modify fun state =>
    let diagnostic := { severity := .error, message, issuer, location := state.cursor }
    { state with diagnostics := state.diagnostics ++ [diagnostic] }

/-- Records a problem at the current position. -/
def meet (problem : Problem) : Codegen Unit :=
  record problem.message problem.issuer

/-- The expression, folded if it names a known tile. -/
def foldTile (expr : Expr) : Codegen Expr := do
  match (← get).tiles.named? expr with
  | some (id, name) =>
      note (.tileFolded name id)
      return .tile id name
  | none => return expr

/-- The operand, folded if it names a known tile. -/
def foldTileOperand : Operand → Codegen Operand
  | .value content => return .value (← foldTile content)
  | operand => return operand

/-- The name of a route, which is added if it is new. -/
def route (route : Route) : Codegen String := do
  let routes := (← get).routes
  let name := routes.nameOf route
  if routes.contains name then return name
  else
    note (.routeAdded name route.script route.handler)
    modify fun state => { state with routes := state.routes.insert name route }
    return name

end Codegen

end TileLua
