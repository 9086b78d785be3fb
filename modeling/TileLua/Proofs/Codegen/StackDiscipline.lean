import TileLua.Proofs.Codegen.Sequential
import TileLua.Proofs.Codegen.Visit

/-! Code generation puts back what it changes on the way.
Expressions, calls, commands and blocks leave margin, dispatch objects, position and tiles as they
were, also when a defect stops them, and the open functions only gain local declarations. Handlers,
scripts and whole exports leave the open functions alone.
-/

namespace TileLua.Codegen

-----------------------------------------------------------------------------------------
-- How the state after an action compares with the state before it
-----------------------------------------------------------------------------------------

/-- The innermost open function may have gained declarations; the ones around it are the same. -/
def FramesGrow : List (Std.TreeSet String) → List (Std.TreeSet String) → Prop
  | [], after => after = []
  | frame :: outer, after =>
      ∃ grown : Std.TreeSet String, after = grown :: outer ∧ ∀ binding ∈ frame, binding ∈ grown

/-- What no part of code generation changes for good: the nested parts of the state, the tiles, the
routes already there and the problems already met.
-/
structure State.Steady (before after : State) : Prop where
  indent : after.indent = before.indent
  dispatch : after.dispatch = before.dispatch
  cursor : after.cursor = before.cursor
  tiles : after.tiles = before.tiles
  routes
    : ∀ (name : String) (route : Route),
        before.routes[name]? = some route → after.routes[name]? = some route
  diagnostics : before.diagnostics <+: after.diagnostics

/-- What code inside a handler does to the state. -/
structure State.Grown (before after : State) : Prop extends State.Steady before after where
  frames : FramesGrow before.frames after.frames
  root : after.root = before.root
  ownEvents : after.ownEvents = before.ownEvents
  delegations : after.delegations = before.delegations

/-- What a step inside a handler does to the state if it declares nothing. -/
structure State.Quiet (before after : State) : Prop extends State.Grown before after where
  sameFrames : after.frames = before.frames

/-- What handlers and scripts do to the state. -/
structure State.Restored (before after : State) : Prop extends State.Steady before after where
  frames : after.frames = before.frames

theorem FramesGrow.refl (frames : List (Std.TreeSet String)) : FramesGrow frames frames := by
  cases frames with
  | nil => rfl
  | cons frame outer => exact ⟨frame, rfl, fun _ member => member⟩

theorem FramesGrow.trans {first second third : List (Std.TreeSet String)}
    (left : FramesGrow first second) (right : FramesGrow second third)
    : FramesGrow first third := by
  cases first with
  | nil =>
      cases left
      exact right
  | cons frame outer =>
      obtain ⟨grown, rfl, kept⟩ := left
      obtain ⟨final, rfl, keptAgain⟩ := right
      exact ⟨final, rfl, fun binding member => keptAgain binding (kept binding member)⟩

/-- The events that the current script handles are the same. -/
def State.SameEvents (before after : State) : Prop :=
  after.ownEvents = before.ownEvents

theorem State.Steady.refl (state : State) : state.Steady state :=
  ⟨rfl, rfl, rfl, rfl, fun _ _ found => found, List.prefix_refl _⟩

theorem State.Steady.trans {first second third : State} (left : first.Steady second)
    (right : second.Steady third)
    : first.Steady third where
  indent := right.indent.trans left.indent
  dispatch := right.dispatch.trans left.dispatch
  cursor := right.cursor.trans left.cursor
  tiles := right.tiles.trans left.tiles
  routes := fun name route found => right.routes name route (left.routes name route found)
  diagnostics := left.diagnostics.trans right.diagnostics

theorem State.Grown.refl (state : State) : state.Grown state :=
  ⟨.refl state, .refl _, rfl, rfl, rfl⟩

theorem State.Grown.trans {first second third : State} (left : first.Grown second)
    (right : second.Grown third)
    : first.Grown third where
  toSteady := left.toSteady.trans right.toSteady
  frames := left.frames.trans right.frames
  root := right.root.trans left.root
  ownEvents := right.ownEvents.trans left.ownEvents
  delegations := right.delegations.trans left.delegations

theorem State.Quiet.refl (state : State) : state.Quiet state :=
  ⟨.refl state, rfl⟩

theorem State.Quiet.trans {first second third : State} (left : first.Quiet second)
    (right : second.Quiet third)
    : first.Quiet third where
  toGrown := left.toGrown.trans right.toGrown
  sameFrames := right.sameFrames.trans left.sameFrames

theorem State.Quiet.restored {before after : State} (quiet : before.Quiet after)
    : before.Restored after :=
  ⟨quiet.toSteady, quiet.sameFrames⟩

theorem State.Restored.refl (state : State) : state.Restored state :=
  ⟨.refl state, rfl⟩

theorem State.Restored.trans {first second third : State} (left : first.Restored second)
    (right : second.Restored third)
    : first.Restored third where
  toSteady := left.toSteady.trans right.toSteady
  frames := right.frames.trans left.frames

/-- Inside a handler uses, settings and notices may change, and problems and routes be added. -/
theorem State.Quiet.of_added (state : State) (luaVariables : Std.TreeSet String)
    (uses : Std.TreeMap String Nat) (settings : Settings) (journal : Array Notice)
    {diagnostics : List Diagnostic} {routes : Routes} (problems : state.diagnostics <+: diagnostics)
    (kept
      : ∀ (name : String) (route : Route),
          state.routes[name]? = some route → routes[name]? = some route)
    : state.Quiet
        { state with luaVariables, uses, settings, journal, diagnostics, routes } where
  toSteady := ⟨rfl, rfl, rfl, rfl, kept, problems⟩
  frames := .refl _
  root := rfl
  ownEvents := rfl
  delegations := rfl
  sameFrames := rfl

theorem State.Quiet.of_unseen (state : State) (luaVariables : Std.TreeSet String)
    (uses : Std.TreeMap String Nat) (settings : Settings) (journal : Array Notice)
    : state.Quiet { state with luaVariables, uses, settings, journal } :=
  .of_added state luaVariables uses settings journal (List.prefix_refl _) (fun _ _ found => found)

/-- What a handler is compiled for and what it delegates to may change around handlers. -/
theorem State.Restored.of_unseen (state : State) (root : String)
    (ownEvents : Std.TreeSet String) (delegations : List Delegation) (journal : Array Notice)
    : state.Restored { state with root, ownEvents, delegations, journal } :=
  ⟨⟨rfl, rfl, rfl, rfl, fun _ _ found => found, List.prefix_refl _⟩, rfl⟩

/-- An object that calls are dispatched on is taken away again. -/
theorem State.Steady.dispatched {before after : State} {object : String}
    (inner : State.Steady { before with dispatch := object :: before.dispatch } after)
    : before.Steady { after with dispatch := after.dispatch.tail } :=
  { inner with dispatch := by simp only [inner.dispatch, List.tail_cons] }

theorem State.Steady.indented {before after : State} {steps : Nat}
    (inner : State.Steady { before with indent := before.indent + steps } after)
    : before.Steady { after with indent := after.indent - steps } :=
  { inner with indent := by simp only [inner.indent, Nat.add_sub_cancel] }

-----------------------------------------------------------------------------------------
-- Actions that keep to a relation, whether they succeed or fail
-----------------------------------------------------------------------------------------

/-- The state in which an action ends is related to the one in which it starts. -/
def Keeps {α : Type} (related : State → State → Prop) (action : Codegen α) : Prop :=
  ∀ before, related before (finish action before)

instance : Std.Refl State.Grown := ⟨State.Grown.refl⟩

instance : Trans State.Grown State.Grown State.Grown := ⟨State.Grown.trans⟩

instance : Std.Refl State.Quiet := ⟨State.Quiet.refl⟩

instance : Trans State.Quiet State.Quiet State.Quiet := ⟨State.Quiet.trans⟩

instance : Std.Refl State.Restored := ⟨State.Restored.refl⟩

instance : Trans State.Restored State.Restored State.Restored := ⟨State.Restored.trans⟩

instance : Std.Refl State.SameEvents := ⟨fun _ => rfl⟩

instance : Trans State.SameEvents State.SameEvents State.SameEvents :=
  ⟨fun left right => Eq.trans right left⟩

namespace Keeps

variable {α β : Type} {related : State → State → Prop}

/-- An action that succeeds relates its two states. -/
theorem of_ok {action : Codegen α} {before after : State} {value : α} (kept : Keeps related action)
    (run : action before = .ok value after)
    : related before after := by
  simpa only [finish_of_ok run] using kept before

theorem of_error {action : Codegen α} {before after : State} {defect : Defect}
    (kept : Keeps related action) (run : action before = .error defect after)
    : related before after := by
  simpa only [finish_of_error run] using kept before

theorem mono {weaker : State → State → Prop} {action : Codegen α} (kept : Keeps related action)
    (weaken : ∀ {before after}, related before after → weaker before after)
    : Keeps weaker action :=
  fun before => weaken (kept before)

theorem grown {action : Codegen α} (kept : Keeps State.Quiet action)
    : Keeps State.Grown action :=
  kept.mono State.Quiet.toGrown

theorem restored {action : Codegen α} (kept : Keeps State.Quiet action)
    : Keeps State.Restored action :=
  kept.mono State.Quiet.restored

theorem sameEvents {action : Codegen α} (kept : Keeps State.Grown action)
    : Keeps State.SameEvents action :=
  kept.mono State.Grown.ownEvents

theorem pure [Std.Refl related] (value : α) : Keeps related (Pure.pure value : Codegen α) :=
  fun before => Std.Refl.refl before

theorem throw [Std.Refl related] (defect : Defect)
    : Keeps related (MonadExcept.throw defect : Codegen α) :=
  fun before => Std.Refl.refl before

theorem ofExcept [Std.Refl related] (result : Except Defect α)
    : Keeps related (Codegen.ofExcept result) := by
  cases result with
  | ok value => exact pure value
  | error defect => exact throw defect

theorem get [Std.Refl related] : Keeps related (MonadState.get : Codegen State) :=
  fun before => Std.Refl.refl before

/-- A sequence keeps to a transitive relation: through the middle state, or with the defect of the
first part.
-/
theorem bind_given [Trans related related related] {action : Codegen α} {next : α → Codegen β}
    (first : Keeps related action) (rest : ∀ value, Gives action value → Keeps related (next value))
    : Keeps related (action >>= next) := by
  intro before
  rw [finish_bind]
  cases run : action before with
  | ok value middle => exact Trans.trans (first.of_ok run) (rest value ⟨before, middle, run⟩ middle)
  | error defect after => simpa only [finish, run] using first before

theorem bind [Trans related related related] {action : Codegen α} {next : α → Codegen β}
    (first : Keeps related action) (rest : ∀ value, Keeps related (next value))
    : Keeps related (action >>= next) :=
  first.bind_given (fun value _ => rest value)

/-- Surroundings keep to a relation that does not see them. -/
theorem around {action : Codegen α} {enter : State → State} {leave : State → State → State}
    (kept : Keeps related action)
    (unseen : ∀ before after, related (enter before) after → related before (leave before after))
    : Keeps related (Codegen.around enter leave action) := by
  intro before
  rw [finish_around]
  exact unseen before _ (kept (enter before))

theorem sequential [Std.Refl related] [Trans related related related]
    : Sequential (fun action => Keeps related action) where
  pure := pure
  bind := bind

end Keeps

-----------------------------------------------------------------------------------------
-- The steps of code generation inside a handler
-----------------------------------------------------------------------------------------

theorem framesGrow_bindIn (binding : String) (frames : List (Std.TreeSet String))
    : FramesGrow frames (bindIn binding frames) := by
  cases frames with
  | nil => rfl
  | cons frame outer =>
      exact ⟨_, rfl, fun other member => mem_bindIn.mpr (Or.inl member)⟩

theorem note_quiet (notice : Notice) : Keeps State.Quiet (note notice) :=
  fun before => .of_unseen before before.luaVariables before.uses before.settings _

theorem margin_quiet : Keeps State.Quiet margin :=
  Keeps.get.bind (fun _ => .pure _)

theorem meet_quiet (problem : Problem) : Keeps State.Quiet (meet problem) := by
  intro before
  exact .of_added before before.luaVariables before.uses before.settings _ (List.prefix_append _ _)
    (fun _ _ found => found)

theorem foldTile_quiet (tree : Expr) : Keeps State.Quiet (foldTile tree) := by
  intro before
  simp only [finish, foldTile_apply]
  cases before.tiles.named? tree with
  | none => exact .refl before
  | some tile => exact .of_unseen before before.luaVariables before.uses before.settings _

theorem useVariable_quiet (name : String) : Keeps State.Quiet (useVariable name) := by
  intro before
  unfold useVariable
  split
  · exact .refl before
  · exact .of_unseen before _ _ before.settings before.journal

theorem applySetting_quiet (directive : String) (group : SettingGroup) (key : String)
    (value : Option String)
    : Keeps State.Quiet (applySetting directive group key value) := by
  refine Keeps.sequential.applySetting note_quiet meet_quiet ?_ directive group key value
  exact fun _ before => .of_unseen before before.luaVariables before.uses _ before.journal

theorem comment_quiet (script : Script) (index : Nat) (inline : Bool)
    : Keeps State.Quiet (comment script index inline) :=
  Keeps.sequential.comment applySetting_quiet script index inline

/-- A route is added under a name that is not taken, so the routes already there stay. -/
theorem route_quiet (target : Route) : Keeps State.Quiet (route target) := by
  intro before
  have run := route_apply target before
  split at run
  · rw [finish_of_ok run]
    exact .refl before
  · rename_i absent
    rw [finish_of_ok run]
    refine .of_added before before.luaVariables before.uses before.settings _
      (List.prefix_refl _) ?_
    intro name route found
    have other : compare (before.routes.nameOf target) name ≠ .eq := by
      intro same
      rw [Std.LawfulEqCmp.compare_eq_iff_eq] at same
      subst same
      exact absent (by rw [Std.TreeMap.contains_eq_isSome_getElem?, found]; rfl)
    rw [Std.TreeMap.getElem?_insert, if_neg other]
    exact found

theorem routedDispatch_quiet (handler : String) (found : Dispatch) (tags : List RouteTag)
    : Keeps State.Quiet (routedDispatch handler found tags) :=
  Keeps.sequential.routedDispatch route_quiet handler found tags

theorem bindLocal_grown (binding : String) : Keeps State.Grown (bindLocal binding) := by
  intro before
  obtain ⟨journal, run⟩ := bindLocal_apply binding before
  rw [finish_of_ok run]
  exact {
    toSteady := ⟨rfl, rfl, rfl, rfl, fun _ _ found => found, List.prefix_refl _⟩
    frames := framesGrow_bindIn binding before.frames
    root := rfl
    ownEvents := rfl
    delegations := rfl
  }

theorem readSpecial_grown (name : String) : Keeps State.Grown (readSpecial name) :=
  Keeps.sequential.readSpecial bindLocal_grown name

theorem readVariable_grown (name : String) : Keeps State.Grown (readVariable name) :=
  (useVariable_quiet name).grown.bind readSpecial_grown

theorem indented_grown {α : Type} {action : Codegen α} (steps : Nat)
    (kept : Keeps State.Grown action)
    : Keeps State.Grown (indented steps action) :=
  kept.around (fun _ _ inner => { inner with toSteady := inner.toSteady.indented })

theorem dispatchingOn_grown {α : Type} {action : Codegen α} (object : String)
    (kept : Keeps State.Grown action)
    : Keeps State.Grown (dispatchingOn object action) :=
  kept.around (fun _ _ inner => { inner with toSteady := inner.toSteady.dispatched })

theorem atLocation_grown {α : Type} {action : Codegen α} (location : Location)
    (kept : Keeps State.Grown action)
    : Keeps State.Grown (atLocation location action) :=
  kept.around (fun _ _ inner => { inner with cursor := rfl })

/-- A function of its own has a frame of its own, which is gone when the function ends. -/
theorem finish_inFunction {α : Type} {action : Codegen α} (before : State)
    : finish (inFunction action) before
      = let after := finish action { before with frames := {} :: before.frames }
        { after with frames := after.frames.tail } := by
  rw [inFunction, finish_around, finish_bind]
  simp only [finish]
  cases action { before with frames := {} :: before.frames } <;> rfl

theorem inFunction_grown {α : Type} {action : Codegen α} (kept : Keeps State.Grown action)
    : Keeps State.Grown (inFunction action) := by
  intro before
  have inner := kept { before with frames := {} :: before.frames }
  obtain ⟨grown, frames, -⟩ := inner.frames
  rw [finish_inFunction]
  exact {
    inner with
    frames := by simpa only [frames, List.tail_cons] using .refl before.frames
  }

theorem inFunction_restored {α : Type} {action : Codegen α} (kept : Keeps State.Grown action)
    : Keeps State.Restored (inFunction action) := by
  intro before
  obtain ⟨grown, frames, -⟩ := (kept { before with frames := {} :: before.frames }).frames
  refine ⟨(inFunction_grown kept before).toSteady, ?_⟩
  rw [finish_inFunction]
  simp only [frames, List.tail_cons]

theorem callSite_grown (write : BlockWriter) (tags : Annotations) (callee : Callee)
    (form : ∀ object, Keeps State.Grown (callForm write object callee))
    : Keeps State.Grown (callSite write tags callee) :=
  Keeps.sequential.callSite .get bindLocal_grown (fun target => (route_quiet target).grown) write
    tags callee form

/-- Inside a handler, code generation keeps the frame as long as the blocks written inside do. -/
theorem grownLogic (script : Script) (write : BlockWriter)
    (blocks : ∀ scope index, Keeps State.Grown (write scope index))
    : VisitLogic script write (fun _ action => Keeps State.Grown action) where
  pure := .pure
  bind := Keeps.bind_given
  margin := margin_quiet.grown
  indented := indented_grown
  dispatching := fun object _ => dispatchingOn_grown object
  foldTile := fun tree => (foldTile_quiet tree).grown
  read := readVariable_grown
  use := fun name => (useVariable_quiet name).grown
  unknownExpr := fun _ => (meet_quiet _).grown
  unknownCommand := fun _ => (meet_quiet _).grown
  comment := fun index inline => (comment_quiet script index inline).grown
  tellWithoutBlock := fun _ => .throw _
  block := blocks
  call := callSite_grown write

-----------------------------------------------------------------------------------------
-- Blocks, by induction on how deep they are nested
-----------------------------------------------------------------------------------------

theorem commands_grown (script : Script) (write : BlockWriter) (block index : Nat)
    (body : List Command) (blocks : ∀ scope index, Keeps State.Grown (write scope index))
    : Keeps State.Grown (commands script write block index body) :=
  (grownLogic script write blocks).commands atLocation_grown block index body

theorem blockText_grown (script : Script) (write : BlockWriter) (scope : Scope) (index : Nat)
    (blocks : ∀ scope index, Keeps State.Grown (write scope index))
    : Keeps State.Grown (blockText script write scope index) := by
  have lines (body : Block) := commands_grown script write index 0 body blocks
  exact Keeps.sequential.blockText margin_quiet.grown (.ofExcept _) lines
    (fun body => inFunction_grown (lines body)) scope

theorem blockWithin_grown (script : Script) (depth : Nat) (scope : Scope) (index : Nat)
    : Keeps State.Grown (blockWithin script depth scope index) := by
  induction depth generalizing scope index with
  | zero => exact .throw _
  | succ depth ih => exact blockText_grown script (blockWithin script depth) scope index ih

/-- A block that is a function's body leaves all open functions as they were: it fails before it
opens its own, or while its own is open, or ends after closing it.
-/
theorem blockText_restored (script : Script) (write : BlockWriter) (index : Nat)
    (blocks : ∀ scope index, Keeps State.Grown (write scope index))
    : Keeps State.Restored (blockText script write .own index) := by
  refine (Keeps.ofExcept _).bind (fun body => ?_)
  have lines := commands_grown script write index 0 body blocks
  exact (inFunction_restored lines).bind (fun _ => margin_quiet.restored.bind (fun _ => .pure _))

theorem blockWithin_restored (script : Script) (depth index : Nat)
    : Keeps State.Restored (blockWithin script depth .own index) := by
  cases depth with
  | zero => exact .throw _
  | succ depth =>
      exact blockText_restored script (blockWithin script depth) index
        (blockWithin_grown script depth)

-----------------------------------------------------------------------------------------
-- Handlers, scripts and exports
-----------------------------------------------------------------------------------------

theorem dispatchingOn_restored {α : Type} {action : Codegen α} (object : String)
    (kept : Keeps State.Restored action)
    : Keeps State.Restored (dispatchingOn object action) :=
  kept.around (fun _ _ inner => ⟨inner.toSteady.dispatched, inner.frames⟩)

theorem ownEvents_restored (events : Std.TreeSet String)
    : Keeps State.Restored
        (modify (fun state : State => { state with ownEvents := events }) : Codegen PUnit) :=
  fun before => .of_unseen before before.root events before.delegations before.journal

/-- Everything between functions restores the state. -/
theorem restoredLogic : ScriptLogic (fun action => Keeps State.Restored action) where
  toSequential := Keeps.sequential
  throw := .throw
  note := fun notice => (note_quiet notice).restored
  foldTile := fun tree => (foldTile_quiet tree).restored
  root := fun _ before => .of_unseen before _ before.ownEvents before.delegations before.journal
  delegate := fun _ before => .of_unseen before before.root before.ownEvents _ before.journal
  function := fun source index => dispatchingOn_restored _ (blockWithin_restored source _ index)
  meet := fun problem => (meet_quiet problem).restored
  ownEvents := ownEvents_restored

theorem recordDelegation_restored (owner event : String) (body : Block)
    : Keeps State.Restored (recordDelegation owner event body) :=
  restoredLogic.recordDelegation owner event body

theorem handler_restored (script : Script) (owner root : String) (entry : Handler)
    : Keeps State.Restored (handler script owner root entry) :=
  restoredLogic.handler script owner root entry

theorem script_restored (entry : Registry.Entry) (source : Script)
    : Keeps State.Restored (script entry source) :=
  restoredLogic.script entry source

theorem scriptEntry_restored (registry : Registry) (object : Json)
    : Keeps State.Restored (scriptEntry registry object) :=
  restoredLogic.scriptEntry registry object

theorem scripts_restored (game : Json) : Keeps State.Restored (scripts game) :=
  restoredLogic.scripts game

/-- Handlers leave the events of their script alone, whether they succeed or fail. -/
theorem sameEventsLogic : HandlerLogic (fun action => Keeps State.SameEvents action) where
  toSequential := Keeps.sequential
  throw := .throw
  note := fun notice => (note_quiet notice).grown.sameEvents
  foldTile := fun tree => (foldTile_quiet tree).grown.sameEvents
  root := fun _ _ => rfl
  delegate := fun _ _ => rfl
  function := fun source index =>
    (dispatchingOn_grown _ (blockWithin_grown source _ .own index)).sameEvents

theorem handler_sameEvents (script : Script) (owner root : String) (entry : Handler)
    : Keeps State.SameEvents (handler script owner root entry) :=
  sameEventsLogic.handler script owner root entry

/-- Code generation puts back what it changes on the way, with a result or with a defect, from
every state and for every script, export and tree.
-/
theorem codegen_restores_stacks (source : Script)
    : (∀ scope index, Keeps State.Grown (block source scope index))
      ∧ (∀ tags tree, Keeps State.Grown (command source (block source) tags tree))
      ∧ (∀ tree, Keeps State.Grown (expr (block source) tree))
      ∧ (∀ role operation operands,
          Keeps State.Grown (call (block source) role operation operands))
      ∧ (∀ index, Keeps State.Restored (block source .own index))
      ∧ (∀ owner root entry, Keeps State.Restored (handler source owner root entry))
      ∧ (∀ entry, Keeps State.Restored (script entry source))
      ∧ ∀ game, Keeps State.Restored (scripts game) := by
  have blocks : ∀ scope index, Keeps State.Grown (block source scope index) :=
    blockWithin_grown source _
  have logic := grownLogic source (block source) blocks
  exact ⟨blocks, logic.command, logic.expr, logic.builtinCall, blockWithin_restored source _,
    handler_restored source, fun entry => script_restored entry source, scripts_restored⟩

end TileLua.Codegen
