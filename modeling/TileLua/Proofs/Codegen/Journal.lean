import TileLua.Game.Compile
import TileLua.Proofs.Codegen.StackDiscipline

/-! The journal is written and never read.
Two runs from states that differ in what was told before end with the same result or the same
defect, in states that again differ in the journal only. This is shown for two actions at a time,
since actions that do the same may tell it differently.
-/

namespace TileLua.Codegen

-----------------------------------------------------------------------------------------
-- Actions that differ in what they tell
-----------------------------------------------------------------------------------------

/-- The end of a run with another journal. -/
def retell {α : Type} (journal : Array Notice)
    : EStateM.Result Defect State α → EStateM.Result Defect State α
  | .ok value after => .ok value { after with journal }
  | .error defect after => .error defect { after with journal }

/-- Whatever was told before, the second action does what the first one does, apart from what it
tells.
-/
def Retells {α : Type} (first second : Codegen α) : Prop :=
  ∀ before journal, ∃ journal', second { before with journal } = retell journal' (first before)

namespace Retells

variable {α β : Type}

theorem pure (value : α) : Retells (Pure.pure value : Codegen α) (Pure.pure value) := by
  intro before journal
  exact ⟨journal, rfl⟩

theorem throw (defect : Defect)
    : Retells (MonadExcept.throw defect : Codegen α) (MonadExcept.throw defect) := by
  intro before journal
  exact ⟨journal, rfl⟩

theorem bind_given {action action' : Codegen α} {next next' : α → Codegen β}
    (left : Retells action action')
    (right : ∀ value, Gives action value → Retells (next value) (next' value))
    : Retells (action >>= next) (action' >>= next') := by
  intro before journal
  obtain ⟨told, run⟩ := left before journal
  simp only [Bind.bind, EStateM.bind, run]
  cases first : action before with
  | ok value middle => exact right value ⟨before, middle, first⟩ middle told
  | error defect after => exact ⟨told, rfl⟩

theorem bind {action action' : Codegen α} {next next' : α → Codegen β}
    (left : Retells action action') (right : ∀ value, Retells (next value) (next' value))
    : Retells (action >>= next) (action' >>= next') :=
  left.bind_given (fun value _ => right value)

theorem ofExcept (result : Except Defect α)
    : Retells (Codegen.ofExcept result) (Codegen.ofExcept result) := by
  cases result with
  | ok value => exact .pure value
  | error defect => exact .throw defect

theorem sequential : Sequential (fun action => Retells action action) where
  pure := pure
  bind := bind

/-- An action may look at the state as long as it does not look at the journal. -/
theorem reading {next : State → Codegen α} (each : ∀ state, Retells (next state) (next state))
    (blind : ∀ (state : State) journal, next { state with journal } = next state)
    : Retells (get >>= next) (get >>= next) := by
  intro before journal
  rw [get_bind, get_bind, blind]
  exact each before before journal

/-- A change of the state that the journal has no influence on. -/
theorem modify {change change' : State → State}
    (same : ∀ before journal, ∃ journal',
      change' { before with journal } = { change before with journal := journal' })
    : Retells (modify change : Codegen PUnit) (modify change') := by
  intro before journal
  obtain ⟨told, changed⟩ := same before journal
  refine ⟨told, ?_⟩
  exact congrArg (EStateM.Result.ok PUnit.unit) changed

theorem around {action action' : Codegen α} {enter : State → State}
    {leave : State → State → State} (inner : Retells action action')
    (entered : ∀ before journal, enter { before with journal } = { enter before with journal })
    (left : ∀ before after journal journal',
      leave { before with journal } { after with journal := journal' }
      = { leave before after with journal := journal' })
    : Retells (Codegen.around enter leave action) (Codegen.around enter leave action') := by
  intro before journal
  obtain ⟨told, run⟩ := inner (enter before) journal
  refine ⟨told, ?_⟩
  unfold Codegen.around
  rw [entered, run]
  cases action (enter before) with
  | ok value after => exact congrArg (EStateM.Result.ok value) (left ..)
  | error defect after => exact congrArg (EStateM.Result.error defect) (left ..)

theorem indented {action action' : Codegen α} (steps : Nat) (inner : Retells action action')
    : Retells (indented steps action) (indented steps action') :=
  inner.around (fun _ _ => rfl) (fun _ _ _ _ => rfl)

theorem dispatchingOn {action action' : Codegen α} (object : String)
    (inner : Retells action action')
    : Retells (dispatchingOn object action) (dispatchingOn object action') :=
  inner.around (fun _ _ => rfl) (fun _ _ _ _ => rfl)

theorem atLocation {action action' : Codegen α} (location : Location)
    (inner : Retells action action')
    : Retells (atLocation location action) (atLocation location action') :=
  inner.around (fun _ _ => rfl) (fun _ _ _ _ => rfl)

theorem inFunction {action action' : Codegen α} (inner : Retells action action')
    : Retells (inFunction action) (inFunction action') := by
  refine Retells.around (inner.bind (fun value => ?_)) (fun _ _ => rfl) (fun _ _ _ _ => rfl)
  exact .reading (fun _ => .pure _) (fun _ _ => rfl)

theorem note (notice notice' : Notice) : Retells (note notice) (note notice') :=
  .modify (fun _ _ => ⟨_, rfl⟩)

/-- Telling something more makes no difference. -/
theorem note_bind {action action' : Codegen α} (notice : Notice) (same : Retells action action')
    : Retells action (Codegen.note notice >>= fun _ => action') := by
  intro before journal
  exact same before (journal.push notice)

end Retells

-----------------------------------------------------------------------------------------
-- Inside a handler
-----------------------------------------------------------------------------------------

theorem margin_retells : Retells margin margin :=
  .reading (fun _ => .pure _) (fun _ _ => rfl)

theorem meet_retells (problem : Problem) : Retells (meet problem) (meet problem) :=
  (Retells.note _ _).bind (fun _ => .modify (fun _ _ => ⟨_, rfl⟩))

theorem foldTile_retells (tree : Expr) : Retells (foldTile tree) (foldTile tree) := by
  refine .reading (fun state => ?_) (fun _ _ => rfl)
  split
  · exact (Retells.note _ _).bind (fun _ => .pure _)
  · exact .pure tree

theorem bindLocal_retells (binding : String) : Retells (bindLocal binding) (bindLocal binding) := by
  refine .reading (fun state => ?_) (fun _ _ => rfl)
  split
  · split
    · exact .pure ()
    · exact (Retells.modify (fun _ _ => ⟨_, rfl⟩)).bind (fun _ => .note _ _)
  · exact .note _ _

theorem useVariable_retells (name : String) : Retells (useVariable name) (useVariable name) := by
  unfold useVariable
  split
  · exact .pure name
  · exact (Retells.modify (fun _ _ => ⟨_, rfl⟩)).bind (fun _ => .pure _)

theorem readVariable_retells (name : String)
    : Retells (readVariable name) (readVariable name) :=
  (useVariable_retells name).bind (Retells.sequential.readSpecial bindLocal_retells)

theorem comment_retells (source : Script) (index : Nat) (inline : Bool)
    : Retells (comment source index inline) (comment source index inline) := by
  refine Retells.sequential.comment ?_ source index inline
  exact Retells.sequential.applySetting (fun _ => .note _ _) meet_retells
    (fun _ => .modify (fun _ _ => ⟨_, rfl⟩))

theorem route_retells (target : Route) : Retells (route target) (route target) := by
  refine .reading (fun state => ?_) (fun _ _ => rfl)
  dsimp only
  split
  · exact .pure _
  · refine (Retells.note _ _).bind (fun _ => ?_)
    exact (Retells.modify (fun _ _ => ⟨_, rfl⟩)).bind (fun _ => .pure _)

theorem callSite_retells (write : BlockWriter) (tags : Annotations) (callee : Callee)
    (form : ∀ object, Retells (callForm write object callee) (callForm write object callee))
    : Retells (callSite write tags callee) (callSite write tags callee) := by
  refine .reading (fun state => (form _).bind (fun form => ?_)) (fun _ _ => rfl)
  have routed (found : Dispatch)
      : Retells
          (routedDispatch form.handler found tags.routes >>= fun dispatch =>
            pure (dispatch.text form.event))
          (routedDispatch form.handler found tags.routes >>= fun dispatch =>
            pure (dispatch.text form.event)) :=
    Retells.sequential.bind_pure _ (Retells.sequential.routedDispatch route_retells _ _ _)
  dsimp only
  split
  · refine .reading (fun state => (bindLocal_retells _).bind (fun _ => ?_)) (fun _ _ => rfl)
    exact .reading (fun state => (Retells.pure _).bind routed) (fun _ _ => rfl)
  · exact (Retells.pure _).bind routed

/-- No step of code generation reads the journal as long as the blocks written inside do not. -/
theorem retellsLogic (source : Script) (write : BlockWriter)
    (blocks : ∀ scope index, Retells (write scope index) (write scope index))
    : PairLogic source write write (fun _ => Retells) where
  pure := .pure
  bind := Retells.bind_given
  margin := margin_retells
  indented := Retells.indented
  read := readVariable_retells
  unknownExpr := fun _ => meet_retells _
  block := blocks
  foldTile := foldTile_retells
  use := useVariable_retells
  unknownCommand := fun _ => meet_retells _
  comment := comment_retells source
  dispatching := fun object _ => Retells.dispatchingOn object
  tellWithoutBlock := fun _ => .throw _
  call := callSite_retells write

/-- Blocks do not read the journal however deep they are nested, by induction on the depth. -/
theorem blockWithin_retells (source : Script) (depth : Nat) (scope : Scope) (index : Nat)
    : Retells (blockWithin source depth scope index) (blockWithin source depth scope index) := by
  induction depth generalizing scope index with
  | zero => exact .throw _
  | succ depth ih =>
      have logic := retellsLogic source _ ih
      have lines (body : Block)
          : Retells (commands source (blockWithin source depth) index 0 body)
              (commands source (blockWithin source depth) index 0 body) :=
        logic.commands Retells.atLocation index 0 body
      exact Retells.sequential.blockText margin_retells (.ofExcept _) lines
        (fun body => (lines body).inFunction) scope

-----------------------------------------------------------------------------------------
-- Handlers and scripts
-----------------------------------------------------------------------------------------

/-- Nothing between functions reads the journal. -/
theorem retellsScriptLogic : ScriptLogic (fun action => Retells action action) where
  toSequential := Retells.sequential
  throw := .throw
  note := fun _ => .note _ _
  foldTile := foldTile_retells
  root := fun _ => .modify (fun _ _ => ⟨_, rfl⟩)
  delegate := fun _ => .modify (fun _ _ => ⟨_, rfl⟩)
  function := fun source index => (blockWithin_retells source _ .own index).dispatchingOn _
  meet := meet_retells
  ownEvents := fun _ => .modify (fun _ _ => ⟨_, rfl⟩)

theorem scriptEntry_retells (registry : Registry) (object : Json)
    : Retells (scriptEntry registry object) (scriptEntry registry object) :=
  retellsScriptLogic.scriptEntry registry object

end TileLua.Codegen

-----------------------------------------------------------------------------------------
-- Exports
-----------------------------------------------------------------------------------------

namespace TileLua.Game

open Codegen (Retells retell)

/-- The code and the report of a game are made from the state without the journal. -/
theorem build_retells {game other : Json}
    (same : Retells (Codegen.scripts game) (Codegen.scripts other))
    : Retells (build game) (build other) := by
  refine same.bind (fun text => .reading (fun state => ?_) (fun _ _ => rfl))
  refine Retells.bind ?_ (fun _ => .pure _)
  generalize state.report.messages = messages
  induction messages with
  | nil => exact .pure ()
  | cons first rest ih => exact (Retells.note _ _).bind (fun _ => ih)

/-- Games that start alike and whose scripts are compiled alike are compiled to the same. -/
theorem compile_eq_of_retells {game other : Json} (start : initialState other = initialState game)
    (same : Retells (Codegen.scripts game) (Codegen.scripts other))
    : compile other = compile game := by
  obtain ⟨journal, run⟩ := build_retells same (initialState game) (initialState game).journal
  have run : build other (initialState game) = retell journal (build game (initialState game)) :=
    run
  rw [compile, compile, start, run]
  cases build game (initialState game) <;> rfl

end TileLua.Game
