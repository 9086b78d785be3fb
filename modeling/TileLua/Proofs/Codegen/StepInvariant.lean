import TileLua.Proofs.Codegen.StackDiscipline

/-! What every step keeps, all of code generation keeps.
The steps that change the state are few. A reflexive and transitive relation that each of them keeps
to is kept by expressions, commands, blocks, handlers, scripts and exports, whether they succeed or
fail, and so it relates every state that code generation can get into to the one it started from.
-/

namespace TileLua.Codegen

/-- A relation between states that every step of code generation keeps to. -/
structure StepInvariant (related : State → State → Prop) : Prop where
  note (notice : Notice) : Keeps related (note notice)
  meet (problem : Problem) : Keeps related (meet problem)
  use (name : String) : Keeps related (useVariable name)
  bindLocal (binding : String) : Keeps related (bindLocal binding)
  route (target : Route) : Keeps related (route target)
  settings (state : State) (settings : Settings) : related state { state with settings }
  root (state : State) (root : String) : related state { state with root }
  ownEvents (state : State) (ownEvents : Std.TreeSet String)
    : related state { state with ownEvents }
  delegate (state : State) (delegation : Delegation)
    : related state { state with delegations := state.delegations ++ [delegation] }
  indented {α : Type} {action : Codegen α} (steps : Nat)
    : Keeps related action → Keeps related (indented steps action)
  dispatchingOn {α : Type} {action : Codegen α} (object : String)
    : Keeps related action → Keeps related (dispatchingOn object action)
  atLocation {α : Type} {action : Codegen α} (location : Location)
    : Keeps related action → Keeps related (atLocation location action)
  inFunction {α : Type} {action : Codegen α}
    : Keeps related action → Keeps related (inFunction action)

namespace StepInvariant

variable {related : State → State → Prop} [Std.Refl related] [Trans related related related]

-----------------------------------------------------------------------------------------
-- Inside a handler
-----------------------------------------------------------------------------------------

theorem foldTile (steps : StepInvariant related) (tree : Expr)
    : Keeps related (foldTile tree) := by
  refine Keeps.get.bind (fun state => ?_)
  split
  · exact (steps.note _).bind (fun _ => .pure _)
  · exact .pure tree

theorem readVariable (steps : StepInvariant related) (name : String)
    : Keeps related (readVariable name) :=
  (steps.use name).bind (Keeps.sequential.readSpecial steps.bindLocal)

theorem comment (steps : StepInvariant related) (source : Script) (index : Nat) (inline : Bool)
    : Keeps related (comment source index inline) := by
  refine Keeps.sequential.comment ?_ source index inline
  exact Keeps.sequential.applySetting steps.note steps.meet (fun _ state => steps.settings state _)

theorem logic (steps : StepInvariant related) (source : Script) (write : BlockWriter)
    (blocks : ∀ scope index, Keeps related (write scope index))
    : VisitLogic source write (fun _ action => Keeps related action) where
  pure := .pure
  bind := Keeps.bind_given
  margin := Keeps.get.bind (fun _ => .pure _)
  indented := steps.indented
  dispatching := fun object _ => steps.dispatchingOn object
  foldTile := steps.foldTile
  read := steps.readVariable
  use := steps.use
  unknownExpr := fun _ => steps.meet _
  unknownCommand := fun _ => steps.meet _
  comment := steps.comment source
  tellWithoutBlock := fun _ => .throw _
  block := blocks
  call := Keeps.sequential.callSite .get steps.bindLocal steps.route write

/-- Blocks keep to the relation however deep they are nested, by induction on the depth. -/
theorem blockWithin (steps : StepInvariant related) (source : Script) (depth : Nat) (scope : Scope)
    (index : Nat)
    : Keeps related (blockWithin source depth scope index) := by
  induction depth generalizing scope index with
  | zero => exact .throw _
  | succ depth ih =>
      have logic := steps.logic source _ ih
      have lines (body : Block)
          : Keeps related (commands source (Codegen.blockWithin source depth) index 0 body) :=
        logic.commands steps.atLocation index 0 body
      exact Keeps.sequential.blockText logic.margin (.ofExcept _) lines
        (fun body => steps.inFunction (lines body)) scope

-----------------------------------------------------------------------------------------
-- Handlers, scripts and exports
-----------------------------------------------------------------------------------------

theorem scriptLogic (steps : StepInvariant related)
    : ScriptLogic (fun action => Keeps related action) where
  toSequential := Keeps.sequential
  throw := .throw
  note := steps.note
  foldTile := steps.foldTile
  root := fun root state => steps.root state root
  delegate := fun delegation state => steps.delegate state delegation
  function := fun source index => steps.dispatchingOn _ (steps.blockWithin source _ .own index)
  meet := steps.meet
  ownEvents := fun events state => steps.ownEvents state events

end StepInvariant

-----------------------------------------------------------------------------------------
-- The states that code generation can get into
-----------------------------------------------------------------------------------------

/-- What code generation can be asked to do: its operations, one after the other, further in, on
another dispatch object, at another position, or inside a function of their own.
-/
inductive Lowering : {α : Type} → Codegen α → Prop
  | note (notice : Notice) : Lowering (note notice)
  | meet (problem : Problem) : Lowering (meet problem)
  | foldTile (tree : Expr) : Lowering (foldTile tree)
  | bindLocal (binding : String) : Lowering (bindLocal binding)
  | route (target : Route) : Lowering (route target)
  | useVariable (name : String) : Lowering (useVariable name)
  | readVariable (name : String) : Lowering (readVariable name)
  | expr (source : Script) (tree : Expr) : Lowering (expr (block source) tree)
  | call (source : Script) (role : CallRole) (operation : String) (operands : List Operand)
    : Lowering (call (block source) role operation operands)
  | command (source : Script) (tags : Annotations) (tree : Command)
    : Lowering (command source (block source) tags tree)
  | block (source : Script) (scope : Scope) (index : Nat) : Lowering (block source scope index)
  | handler (source : Script) (owner root : String) (entry : Handler)
    : Lowering (handler source owner root entry)
  | script (entry : Registry.Entry) (source : Script) : Lowering (script entry source)
  | scripts (game : Json) : Lowering (scripts game)
  | bind {α β : Type} {action : Codegen α} {next : α → Codegen β} (first : Lowering action)
    (rest : ∀ value, Lowering (next value))
    : Lowering (action >>= next)
  | indented {α : Type} {action : Codegen α} (steps : Nat) (inner : Lowering action)
    : Lowering (indented steps action)
  | dispatchingOn {α : Type} {action : Codegen α} (object : String) (inner : Lowering action)
    : Lowering (dispatchingOn object action)
  | atLocation {α : Type} {action : Codegen α} (location : Location) (inner : Lowering action)
    : Lowering (atLocation location action)
  | inFunction {α : Type} {action : Codegen α} (inner : Lowering action)
    : Lowering (inFunction action)

theorem StepInvariant.lowering {related : State → State → Prop} [Std.Refl related]
    [Trans related related related] (steps : StepInvariant related) {α : Type} {action : Codegen α}
    (lowering : Lowering action)
    : Keeps related action := by
  have blocks (source : Script) : ∀ scope index, Keeps related (block source scope index) :=
    steps.blockWithin source _
  induction lowering with
  | note notice => exact steps.note notice
  | meet problem => exact steps.meet problem
  | foldTile tree => exact steps.foldTile tree
  | bindLocal binding => exact steps.bindLocal binding
  | route target => exact steps.route target
  | useVariable name => exact steps.use name
  | readVariable name => exact steps.readVariable name
  | expr source tree => exact (steps.logic source _ (blocks source)).expr tree
  | call source role operation operands =>
      exact (steps.logic source _ (blocks source)).builtinCall role operation operands
  | command source tags tree => exact (steps.logic source _ (blocks source)).command tags tree
  | block source scope index => exact blocks source scope index
  | handler source owner root entry => exact steps.scriptLogic.handler source owner root entry
  | script entry source => exact steps.scriptLogic.script entry source
  | scripts game => exact steps.scriptLogic.scripts game
  | bind _ _ left right => exact left.bind right
  | indented count _ inner => exact steps.indented count inner
  | dispatchingOn object _ inner => exact steps.dispatchingOn object inner
  | atLocation location _ inner => exact steps.atLocation location inner
  | inFunction _ inner => exact steps.inFunction inner

/-- The states that code generation can get into: from the start, with whatever tiles there are, by
operations each of which may succeed or fail.
-/
inductive Reachable : State → Prop
  | start (tiles : TileTable) : Reachable { tiles }
  | after {state : State} {α : Type} {action : Codegen α} (earlier : Reachable state)
    (lowering : Lowering action)
    : Reachable (finish action state)

/-- A state that can be reached is related to the one at the start. -/
theorem Reachable.related {related : State → State → Prop} [Std.Refl related]
    [Trans related related related] (steps : StepInvariant related) {state : State}
    (reachable : Reachable state)
    : ∃ tiles : TileTable, related { tiles } state := by
  induction reachable with
  | start tiles => exact ⟨tiles, Std.Refl.refl _⟩
  | after _ lowering ih =>
      obtain ⟨tiles, earlier⟩ := ih
      exact ⟨tiles, Trans.trans earlier (steps.lowering lowering _)⟩

-----------------------------------------------------------------------------------------
-- Properties of the tables
-----------------------------------------------------------------------------------------

/-- The tables of variables and routes have a property if they had it before. -/
def State.Preserves (holds : Std.TreeMap String Nat → Std.TreeSet String → Routes → Prop)
    (before after : State)
    : Prop :=
  holds before.uses before.luaVariables before.routes
  → holds after.uses after.luaVariables after.routes

section

variable {holds : Std.TreeMap String Nat → Std.TreeSet String → Routes → Prop}

instance : Std.Refl (State.Preserves holds) := ⟨fun _ => id⟩

instance : Trans (State.Preserves holds) (State.Preserves holds) (State.Preserves holds) :=
  ⟨fun left right => right ∘ left⟩

/-- A property of the tables is kept by every step if it is kept by a use of a variable and by a
call for a route: no other step changes the tables.
-/
theorem preserves_invariant (use : ∀ name, Keeps (State.Preserves holds) (useVariable name))
    (route : ∀ target, Keeps (State.Preserves holds) (route target))
    : StepInvariant (State.Preserves holds) where
  note := fun _ _ => id
  meet := fun _ _ => id
  use := use
  bindLocal := by
    intro binding before
    obtain ⟨journal, run⟩ := bindLocal_apply binding before
    rw [finish_of_ok run]
    exact id
  route := route
  settings := fun _ _ => id
  root := fun _ _ => id
  ownEvents := fun _ _ => id
  delegate := fun _ _ => id
  indented := fun _ inner => inner.around (fun _ _ => id)
  dispatchingOn := fun _ inner => inner.around (fun _ _ => id)
  atLocation := fun _ inner => inner.around (fun _ _ => id)
  inFunction := by
    intro α action inner before
    rw [finish_inFunction]
    exact inner { before with frames := {} :: before.frames }

end

end TileLua.Codegen
