import TileLua.Proofs.Codegen.DelegatingHandler
import TileLua.Proofs.Codegen.ScopeBindings
import TileLua.Proofs.Codegen.StructuralDefects

/-! Where calls of event handlers go.
A call of a fixed event without tags is resolved by where it stands: outside of every `tell` it goes
to the script's own handler, or to the one for any event if there is none, and inside of a `tell` it
is looked up on the one told. The objects that calls are dispatched on, the root and the known
events are kept in the state while a script is compiled; the text is the same as if every command
were handed its place along with the tree.
-/

namespace TileLua.Codegen

-----------------------------------------------------------------------------------------
-- Places, and code generation by place
-----------------------------------------------------------------------------------------

/-- Where a command stands. -/
structure Place where
  /-- Whether a `tell` encloses it. -/
  told : Bool
  /-- What the script's own object is an alias of. -/
  root : String
  /-- The events that the script handles. -/
  events : List String
  deriving DecidableEq, Inhabited, Repr

namespace Place

/-- The place of the handlers of a script. -/
def ofScript (entry : Registry.Entry) (source : Script) : Place where
  told := false
  root := if entry.slot.isEmpty then Engine.scriptTable entry.name else entry.slot
  events := source.events

/-- The place inside a `tell`. -/
def inTell (place : Place) : Place :=
  { place with told := true }

/-- The text of a call of a fixed event without tags. -/
def callText (place : Place) (event : String) : String :=
  let arguments := "(__actor, event, " ++ Lua.quote event ++ ")"
  let remark := " --[call \"" ++ Lua.escape event ++ "\"]"
  if place.told then
    ";(" ++ handlerField "__actor.script" event ++ " or __actor.script.any)" ++ arguments ++ remark
  else if event ∈ place.events then handlerField "__self" event ++ arguments
  else "__self.any" ++ arguments ++ remark ++ " [doesn't exist, so any]"

/-- The local declaration that a visit needs. -/
def binding? (place : Place) : Visit → Option String
  | .read name => Variable.binding? name
  | .call => if place.told then none else some (ownBinding place.root)
  | _ => none

end Place

/-- The visits in the scope that a block opens, with blocks nested to a depth below the bound. -/
def scopeVisits (source : Script) : (depth : Nat) → Nat → List Visit
  | 0, _ => []
  | depth + 1, index =>
      let visits := (source.blocks[index]?.getD []).flatMap Command.visits
      visits ++ visits.flatMap fun
        | .block .shared inner => scopeVisits source depth inner
        | _ => []

/-- The local declarations of a function whose body is a block, in order and each once. -/
def Place.declarations (place : Place) (source : Script) (depth index : Nat) : List String :=
  (Std.TreeSet.ofList ((scopeVisits source depth index).filterMap place.binding?)).toList

/-- A call of a fixed event without tags: outside of every `tell` the function around it declares
the script's own object.
-/
def Place.call (place : Place) (event : String) : Codegen String := do
  if !place.told then bindLocal (ownBinding place.root)
  return place.callText event

/-- The text of a command at a place. The position of a `tell` is worked out by the one who tells;
its block, and the operands of a `tell` that the engine carries out, are inside of it.
-/
def resolvedCommand (source : Script) (write : Place → BlockWriter) (place : Place)
    (tags : Annotations)
    : Command → Codegen (Option String)
  | .call (.name event) =>
      some <$> if tags.isEmpty then place.call event
        else callSite (write place) tags (.name event)
  | .tell (.point x y) rest => do
      let x ← expr (write place) x
      let y ← expr (write place) y
      some <$> tellInPlace (write place.inTell) (.atPoint x y) rest
  | .tell target rest => some <$> tell (write place.inTell) target rest
  | other => command source (write place) tags other

/-- The lines of the commands of a block at a place, from the one with that index. -/
def resolvedCommands (source : Script) (write : Place → BlockWriter) (place : Place) (block : Nat)
    : (index : Nat) → List Command → Codegen (List String)
  | _, [] => return []
  | index, first :: rest => do
      let text ← atLocation { script := source.name, block, command := index }
        (resolvedCommand source write place (Annotations.after source rest) first)
      let margin ← margin
      let others ← resolvedCommands source write place block (index + 1) rest
      return (text.map fun text => margin ++ text ++ "\n").toList ++ others

/-- The text of a block at a place, with blocks nested to a depth below the given one. -/
def resolvedWithin (source : Script) : (depth : Nat) → Place → BlockWriter
  | 0, _ => fun _ index => throw (.endlessBlock source.name index)
  | depth + 1, place => fun scope index => do
      let body ← ofExcept (source.block index)
      let lines := resolvedCommands source (resolvedWithin source depth) place index 0 body
      match scope with
      | .shared => String.join <$> lines
      | .own => do
          let (lines, _) ← inFunction lines
          let declarations := place.declarations source (depth + 1) index
          let margin ← margin
          return String.join (declarations.map fun binding => margin ++ binding ++ "\n")
            ++ String.join lines

/-- The text of a handler at the place of its script's handlers. -/
def resolvedHandler (source : Script) (entry : Registry.Entry) (handler : Handler)
    : Codegen String := do
  let place := Place.ofScript entry source
  note (.compilingHandler entry.name handler.event)
  modify fun state => { state with root := place.root }
  let body ← dispatchingOn Engine.ownObject
    (resolvedWithin source (source.blocks.length + 1) place .own handler.block)
  recordDelegation entry.name handler.event (← ofExcept (source.block handler.block))
  return handlerField (Engine.scriptTable entry.name) handler.event
    ++ " = function(__actor, event, __evname)\n" ++ body ++ "end\n"

def resolvedHandlers (source : Script) (entry : Registry.Entry) : List Handler → Codegen String
  | [] => return ""
  | first :: rest => do
      let text ← resolvedHandler source entry first
      return "\n" ++ text ++ (← resolvedHandlers source entry rest)

/-- The text of a script with its calls resolved by place. -/
def resolvedScript (entry : Registry.Entry) (source : Script) : Codegen String := do
  note (.compilingScript entry.name entry.kind.word entry.id source.handlers.length)
  modify fun state => { state with ownEvents := .ofList source.events }
  let text ← resolvedHandlers source entry source.handlers
  modify fun state => { state with ownEvents := {} }
  return entry.header ++ text

-----------------------------------------------------------------------------------------
-- States that fit a place
-----------------------------------------------------------------------------------------

/-- The state says of a place what the place says itself. -/
structure Place.Fits (place : Place) (state : State) : Prop where
  object
    : state.dispatchObject = if place.told then Engine.actorObject else Engine.ownObject
  root : state.root = place.root
  events : ∀ event, state.ownEvents.contains event = place.events.contains event

theorem Place.Fits.after {place : Place} {before after : State} (fits : place.Fits before)
    (grown : before.Grown after)
    : place.Fits after where
  object := by simpa only [State.dispatchObject, grown.dispatch] using fits.object
  root := grown.root.trans fits.root
  events := by simpa only [grown.ownEvents] using fits.events

theorem Place.Fits.told {place : Place} {state : State} (fits : place.Fits state)
    : place.inTell.Fits { state with dispatch := Engine.actorObject :: state.dispatch } :=
  { fits with object := rfl }

/-- Two actions that do the same in every state that fits a place. -/
structure Resolves {α : Type} (place : Place) (action action' : Codegen α) : Prop where
  grown : Keeps State.Grown action
  same : ∀ {state : State}, place.Fits state → action state = action' state

namespace Resolves

variable {α β : Type} {place : Place}

theorem refl {action : Codegen α} (grown : Keeps State.Grown action)
    : Resolves place action action :=
  ⟨grown, fun _ => rfl⟩

theorem bind {action action' : Codegen α} {next next' : α → Codegen β}
    (left : Resolves place action action')
    (right : ∀ value, Gives action value → Resolves place (next value) (next' value))
    : Resolves place (action >>= next) (action' >>= next') where
  grown := left.grown.bind_given (fun value gives => (right value gives).grown)
  same := by
    intro state fits
    simp only [Bind.bind, EStateM.bind, ← left.same fits]
    cases run : action state with
    | ok value middle =>
        exact (right value ⟨state, middle, run⟩).same (fits.after (left.grown.of_ok run))
    | error defect after => rfl

theorem map {action action' : Codegen α} (result : α → β) (inner : Resolves place action action')
    : Resolves place (result <$> action) (result <$> action') := by
  rw [map_eq_pure_bind, map_eq_pure_bind]
  exact inner.bind (fun value _ => .refl (.pure (result value)))

theorem around {inside : Place} {action action' : Codegen α} {enter : State → State}
    {leave : State → State → State} (inner : Resolves inside action action')
    (grown : Keeps State.Grown (Codegen.around enter leave action))
    (entered : ∀ {state}, place.Fits state → inside.Fits (enter state))
    : Resolves place (Codegen.around enter leave action) (Codegen.around enter leave action') where
  grown := grown
  same := by
    intro state fits
    simp only [Codegen.around, inner.same (entered fits)]

theorem indented {action action' : Codegen α} (steps : Nat) (inner : Resolves place action action')
    : Resolves place (indented steps action) (indented steps action') :=
  inner.around (indented_grown steps inner.grown) (fun fits => { fits with })

/-- What is dispatched on the one told is inside a `tell`. -/
theorem told {action action' : Codegen α} (inner : Resolves place.inTell action action')
    : Resolves place (dispatchingOn Engine.actorObject action)
        (dispatchingOn Engine.actorObject action') :=
  inner.around (dispatchingOn_grown _ inner.grown) Place.Fits.told

end Resolves

-----------------------------------------------------------------------------------------
-- Calls
-----------------------------------------------------------------------------------------

/-- The text of a call that has a remark ends in it. -/
theorem Dispatch.text_of_remark {function remark : String} (event : String)
    (closed : remark.toList.getLast? = some ']')
    : Dispatch.text { function, remark } event
      = function ++ "(__actor, event, " ++ event ++ ")" ++ (" " ++ remark) := by
  obtain ⟨front, letters⟩ := List.getLast?_eq_some_iff.mp closed
  have trimmed : Text.trimEnd (' ' :: remark.toList) = ' ' :: remark.toList := by
    rw [letters]
    exact trimEnd_append_cons (by decide) (' ' :: front) []
  rw [Dispatch.text_eq, trimmed]
  simp

theorem Dispatch.text_of_no_remark (function event : String)
    : Dispatch.text { function, remark := "" } event
      = function ++ "(__actor, event, " ++ event ++ ")" := by
  have trimmed : Text.trimEnd [' '] = [] := by decide
  simp [Dispatch.text_eq, trimmed]

/-- The form of a call of a fixed event. -/
def fixedForm (object event : String) : CallForm :=
  { callee := handlerField object event, event := Lua.quote event, handler := event
    isFixed := true }

theorem callText_of_told {place : Place} (told : place.told = true) (event : String)
    : (lookupDispatch {} Engine.actorObject (fixedForm Engine.actorObject event)).text
        (Lua.quote event)
      = place.callText event := by
  simp only [lookupDispatch, Place.callText, told, Bool.false_eq_true, ↓reduceIte]
  rw [Dispatch.text_of_remark _ (by simp [String.toList_append, List.getLast?_cons])]
  simp only [fixedForm, Engine.actorObject, String.append_assoc]
  rfl

theorem callText_of_own {place : Place} (outside : place.told = false) (event : String)
    : (ownDispatch {} (place.events.contains event) (fixedForm Engine.ownObject event)
          (lookupDispatch {} Engine.ownObject (fixedForm Engine.ownObject event))).text
        (Lua.quote event)
      = place.callText event := by
  simp only [Place.callText, outside, Bool.false_eq_true, ↓reduceIte]
  by_cases known : event ∈ place.events
  · have found : place.events.contains event = true := List.contains_iff_mem.mpr known
    simp only [ownDispatch, fixedForm, found, known, Bool.not_true, Bool.false_eq_true, ↓reduceIte]
    rw [Dispatch.text_of_no_remark]
    simp only [Engine.ownObject, String.append_assoc]
  · have absent : place.events.contains event = false := by simpa using known
    simp only [ownDispatch, fixedForm, lookupDispatch, absent, known, Bool.not_true,
      Bool.false_eq_true, ↓reduceIte]
    rw [Dispatch.text_of_remark _ (by simp [String.toList_append, List.getLast?_cons])]
    simp only [Engine.ownObject, String.append_assoc]
    rfl

/-- A call of a fixed event without tags is resolved by its place. -/
theorem callSite_fixed {place : Place} {state : State} (fits : place.Fits state)
    (write : BlockWriter) (event : String)
    : callSite write {} (.name event) state = place.call event state := by
  have object := fits.object
  have form (table : String) : callForm write table (.name event) = pure (fixedForm table event) :=
    rfl
  rw [callSite, get_bind]
  simp only [form, pure_bind, Place.call]
  cases told : place.told with
  | true =>
      simp only [told, ↓reduceIte] at object
      have foreign : ¬ Engine.actorObject = Engine.ownObject := by decide
      rw [object, ← callText_of_told told event, if_neg foreign]
      rfl
  | false =>
      simp only [told, Bool.false_eq_true, ↓reduceIte] at object
      obtain ⟨journal, bound⟩ := bindLocal_apply (ownBinding place.root) state
      rw [object, ← callText_of_own told event, ← fits.events event, if_pos rfl, get_bind,
        fits.root]
      simp only [bind, EStateM.bind, bound, Bool.not_false, ↓reduceIte]
      rfl

theorem callSite_resolves {place : Place} {write other : BlockWriter} (tags : Annotations)
    (callee : Callee)
    (form : ∀ object, Resolves place (callForm write object callee) (callForm other object callee))
    : Resolves place (callSite write tags callee) (callSite other tags callee) where
  grown := callSite_grown write tags callee (fun object => (form object).grown)
  same := by
    intro state fits
    simp only [callSite, get_bind]
    simp only [Bind.bind, EStateM.bind, (form _).same fits]

-----------------------------------------------------------------------------------------
-- Commands
-----------------------------------------------------------------------------------------

section

variable {source : Script} {write : BlockWriter} {other : Place → BlockWriter}
  (blocks : ∀ place scope index, Resolves place (write scope index) (other place scope index))

include blocks

/-- At one place, expressions and commands other than calls and `tell` are resolved as long as the
blocks written inside are.
-/
theorem resolvesLogic (place : Place)
    : CommandLogic source write (other place)
        (fun _ action action' => Resolves place action action') where
  pure := fun value => .refl (.pure value)
  bind := Resolves.bind
  margin := .refl margin_quiet.grown
  indented := Resolves.indented
  read := fun name => .refl (readVariable_grown name)
  unknownExpr := fun _ => .refl (meet_quiet _).grown
  block := blocks place
  foldTile := fun tree => .refl (foldTile_quiet tree).grown
  use := fun name => .refl (useVariable_quiet name).grown
  unknownCommand := fun _ => .refl (meet_quiet _).grown
  comment := fun index inline => .refl (comment_quiet source index inline).grown

/-- The block of a `tell` in place is inside of it. -/
theorem tellInPlace_resolves (place : Place) (known : KnownActor) (rest : List Operand)
    : Resolves place (tellInPlace write known rest)
        (tellInPlace (other place.inTell) known rest) := by
  fun_cases visitsInPlace known.label rest with
  | case1 index tail =>
      have body := (blocks place.inTell .own index).told.indented 1
      refine (Resolves.indented 1 ?_).bind
        (fun _ _ => .refl (margin_quiet.grown.bind fun _ => .pure _))
      refine (Resolves.refl margin_quiet.grown).bind (fun _ _ => ?_)
      exact body.bind (fun _ _ => .refl (.pure _))
  | case2 notBlock =>
      simp only [tellInPlace]
      exact .refl (.throw _)

theorem tellThroughEngine_resolves (source : Script) (place : Place) (target : Operand)
    (rest : List Operand)
    : Resolves place (tellThroughEngine write target rest)
        (tellThroughEngine (other place.inTell) target rest) := by
  have folded := (@resolvesLogic source _ _ blocks place).foldTileOperand target
  refine folded.bind (fun target _ => Resolves.told ?_)
  exact (@resolvesLogic source _ _ blocks place.inTell).builtinCall .statement "tell"
    (target :: rest)

/-- A `tell` that is not to a position is all inside. -/
theorem tell_resolves (source : Script) (place : Place) (target : Operand) (rest : List Operand)
    (notPoint : ∀ x y, target ≠ .point x y)
    : Resolves place (tell write target rest) (tell (other place.inTell) target rest) := by
  fun_cases visitsOfTell target rest with
  | case1 x y => exact (notPoint x y rfl).elim
  | case2 name known found =>
      simp only [tell, found]
      exact tellInPlace_resolves blocks place known rest
  | case3 name missing =>
      simp only [tell, missing]
      exact tellThroughEngine_resolves blocks source place _ rest
  | case4 target _ notRead =>
      simp only [tell]
      exact tellThroughEngine_resolves blocks source place target rest

/-- A command is resolved at its place: a call of a fixed event without tags by what the place says,
and a `tell` by what is inside of it.
-/
theorem command_resolves (place : Place) (tags : Annotations) (tree : Command)
    : Resolves place (command source write tags tree)
        (resolvedCommand source other place tags tree) := by
  have logic : CommandLogic source write (other place)
      (fun _ action action' => Resolves place action action') :=
    resolvesLogic blocks place
  have called (callee : Callee)
      : Resolves place (callSite write tags callee) (callSite (other place) tags callee) :=
    callSite_resolves tags callee (fun object => logic.callForm object callee)
  cases tree with
  | call callee =>
      cases callee with
      | computed event => exact (called (.computed event)).map some
      | name event =>
          simp only [command, resolvedCommand]
          split
          · rename_i untagged
            have none : tags = {} := by
              obtain ⟨direct, routes⟩ := tags
              simpa [Annotations.isEmpty] using untagged
            subst none
            have fixed : Resolves place (callSite write {} (.name event)) (place.call event) :=
              ⟨(called (.name event)).grown, fun fits => callSite_fixed fits write event⟩
            exact fixed.map some
          · exact (called (.name event)).map some
  | tell target rest =>
      cases target with
      | point x y =>
          simp only [command, resolvedCommand, tell, map_bind]
          refine (logic.expr x).bind (fun _ _ => (logic.expr y).bind (fun _ _ => ?_))
          exact (tellInPlace_resolves blocks place _ rest).map some
      | area x y width height =>
          have notPoint (x' y' : Expr) : Operand.area x y width height ≠ .point x' y' := by simp
          exact (tell_resolves blocks source place _ rest notPoint).map some
      | value content =>
          have notPoint (x y : Expr) : Operand.value content ≠ .point x y := by simp
          exact (tell_resolves blocks source place _ rest notPoint).map some
  | _ => exact logic.plainCommand tags rfl

/-- The lines of a block are resolved, by induction over its commands. -/
theorem commands_resolves (place : Place) (block index : Nat) (body : List Command)
    : Resolves place (commands source write block index body)
        (resolvedCommands source other place block index body) := by
  induction body generalizing index with
  | nil => exact .refl (.pure [])
  | cons first rest ih =>
      have inner (tags : Annotations) := @command_resolves source _ _ blocks place tags first
      have placed (location : Location) (tags : Annotations)
          : Resolves place (atLocation location (command source write tags first))
              (atLocation location (resolvedCommand source other place tags first)) :=
        (inner tags).around (atLocation_grown location (inner tags).grown)
          (fun fits => { fits with })
      refine (placed _ _).bind (fun _ _ => (Resolves.refl margin_quiet.grown).bind (fun _ _ => ?_))
      exact (ih (index + 1)).bind (fun _ _ => .refl (.pure _))

end

-----------------------------------------------------------------------------------------
-- Blocks, and the declarations of functions
-----------------------------------------------------------------------------------------

/-- Where no defect is met within a depth, the visits within that depth are the whole scope. -/
theorem mem_scopeVisits {source : Script} {depth index : Nat} {visit : Visit}
    (sound : ∀ defect, ¬ Defective source depth index defect)
    : visit ∈ scopeVisits source depth index ↔ InScope source index visit := by
  induction depth generalizing index with
  | zero => exact (sound _ rfl).elim
  | succ depth ih =>
      cases found : source.blocks[index]? with
      | none =>
          refine (sound (.missingBlock source.name index source.blocks.length) ?_).elim
          simp only [Defective, found]
      | some body =>
          have below {inner : Nat} (member : .block .shared inner ∈ body.flatMap Command.visits)
              : visit ∈ scopeVisits source depth inner ↔ InScope source inner visit := by
            refine ih (fun defect defective => sound defect ?_)
            simp only [Defective, found]
            exact ⟨_, member, defective⟩
          simp only [scopeVisits, found, Option.getD_some, List.mem_append]
          constructor
          · intro member
            rcases member with here | deeper
            · obtain ⟨command, inBody, visited⟩ := List.mem_flatMap.mp here
              exact .here found inBody visited
            · obtain ⟨outer, member, deeper⟩ := List.mem_flatMap.mp deeper
              split at deeper
              · obtain ⟨command, inBody, shared⟩ := List.mem_flatMap.mp member
                exact .inside found inBody shared ((below member).mp deeper)
              · cases deeper
          · intro inside
            cases inside with
            | here foundAgain inBody visited =>
                cases found.symm.trans foundAgain
                exact Or.inl (List.mem_flatMap.mpr ⟨_, inBody, visited⟩)
            | inside foundAgain inBody shared deeper =>
                cases found.symm.trans foundAgain
                have member := List.mem_flatMap.mpr ⟨_, inBody, shared⟩
                exact Or.inr (List.mem_flatMap.mpr ⟨_, member, (below member).mpr deeper⟩)

/-- What a visit needs in a state is what it needs at a place that the state fits. -/
theorem Place.Fits.binds {place : Place} {state : State} (fits : place.Fits state)
    {visit : Visit} {binding : String}
    : Binds state visit binding ↔ place.binding? visit = some binding := by
  cases visit with
  | read name => rfl
  | call =>
      simp only [Binds, Place.binding?, fits.object, fits.root]
      cases place.told with
      | true => simp [Engine.actorObject, Engine.ownObject]
      | false => simp [eq_comm]
  | _ => simp [Binds, Place.binding?]

/-- The frame that the commands of a function leave behind holds what the function declares at its
place.
-/
theorem innermost_toList {source : Script} {place : Place} {depth index : Nat} {body : Block}
    {state inner : State} {lines : List String} (found : source.blocks[index]? = some body)
    (fits : place.Fits state)
    (run
      : commands source (blockWithin source depth) index 0 body
          { state with frames := {} :: state.frames }
        = .ok lines inner)
    : inner.innermost.toList = place.declarations source (depth + 1) index := by
  have shared : blockWithin source (depth + 1) .shared index
      { state with frames := {} :: state.frames } = .ok (String.join lines) inner := by
    have lookup := scriptBlock_eq_ok.mpr found
    refine bind_eq_ok.mpr ⟨body, _, ofExcept_eq_ok.mpr ⟨lookup, rfl⟩, ?_⟩
    rw [map_eq_pure_bind]
    exact bind_eq_ok.mpr ⟨lines, inner, run, rfl⟩
  have sound := (blockWithin_failsBy source (depth + 1) .shared index).succeeds shared _
    (List.mem_singleton_self _)
  have same : inner.innermost.Equiv
      (.ofList ((scopeVisits source (depth + 1) index).filterMap place.binding?)) := by
    refine .of_forall_mem_iff (fun binding => ?_)
    rw [mem_innermost_iff_inScope shared, Std.TreeSet.mem_ofList, List.contains_iff_mem,
      List.mem_filterMap]
    simp only [mem_scopeVisits sound, fits.binds]
  exact same.toList_eq

/-- Blocks are resolved however deep they are nested, by induction on the depth. -/
theorem blockWithin_resolves (source : Script) (depth : Nat) (place : Place) (scope : Scope)
    (index : Nat)
    : Resolves place (blockWithin source depth scope index)
        (resolvedWithin source depth place scope index) := by
  induction depth generalizing place scope index with
  | zero => exact .refl (.throw _)
  | succ depth ih =>
      refine (Resolves.refl (.ofExcept _)).bind (fun body gives => ?_)
      obtain ⟨_, _, lookup⟩ := gives
      have found := scriptBlock_eq_ok.mp (ofExcept_eq_ok.mp lookup).1
      have lines : Resolves place (commands source (blockWithin source depth) index 0 body)
          (resolvedCommands source (resolvedWithin source depth) place index 0 body) :=
        commands_resolves ih place index 0 body
      cases scope with
      | shared => exact lines.map String.join
      | own =>
          have function : Resolves place
              (inFunction (commands source (blockWithin source depth) index 0 body))
              (inFunction
                (resolvedCommands source (resolvedWithin source depth) place index 0 body)) :=
            Resolves.around (lines.bind fun _ _ => .refl (Keeps.get.bind fun _ => .pure _))
              (inFunction_grown lines.grown) (fun fits => { fits with })
          refine ⟨function.grown.bind (fun _ => margin_quiet.grown.bind (fun _ => .pure _)), ?_⟩
          intro state fits
          simp only [Bind.bind, EStateM.bind, ← function.same fits]
          cases run :
              inFunction (commands source (blockWithin source depth) index 0 body) state with
          | error defect after => rfl
          | ok result after =>
              obtain ⟨texts, bindings⟩ := result
              obtain ⟨inner, linesRun, rfl, rfl⟩ := inFunction_eq_ok.mp run
              have declared := innermost_toList found fits linesRun
              simp only [← declared]
              rfl

-----------------------------------------------------------------------------------------
-- Handlers and scripts
-----------------------------------------------------------------------------------------

/-- A handler puts its block at the place of its script's handlers. -/
theorem handler_resolves {source : Script} {state : State}
    (events : ∀ event, state.ownEvents.contains event = source.events.contains event)
    (entry : Registry.Entry) (head : Handler)
    : handler source entry.name entry.slot head state
      = resolvedHandler source entry head state := by
  let place := Place.ofScript entry source
  let entered : State :=
    { state with
      journal := state.journal.push (.compilingHandler entry.name head.event)
      root := place.root }
  have fits : place.Fits { entered with dispatch := Engine.ownObject :: entered.dispatch } :=
    ⟨rfl, rfl, events⟩
  have body : dispatchingOn Engine.ownObject (block source .own head.block) entered
      = dispatchingOn Engine.ownObject
          (resolvedWithin source (source.blocks.length + 1) place .own head.block) entered := by
    simp only [dispatchingOn, Codegen.around, block,
      (blockWithin_resolves source _ place .own head.block).same fits]
  show (dispatchingOn Engine.ownObject (block source .own head.block) >>= _) entered
    = (dispatchingOn Engine.ownObject
        (resolvedWithin source (source.blocks.length + 1) place .own head.block) >>= _) entered
  simp only [Bind.bind, EStateM.bind, body]

/-- The handlers of a script are resolved, by induction over their list. -/
theorem handlers_resolve {source : Script} {state : State}
    (events : ∀ event, state.ownEvents.contains event = source.events.contains event)
    (entry : Registry.Entry) (list : List Handler)
    : handlers source entry list state = resolvedHandlers source entry list state := by
  induction list generalizing state with
  | nil => rfl
  | cons head rest ih =>
      simp only [handlers, resolvedHandlers, Bind.bind, EStateM.bind,
        ← handler_resolves events entry head]
      cases run : handler source entry.name entry.slot head state with
      | error defect after => rfl
      | ok text after =>
          have kept : after.ownEvents = state.ownEvents := handler_ownEvents run
          have tail := @ih after (by simpa only [kept] using events)
          simp only [tail]

/-- The declaration of the script's own object is that of a call, and of no other visit. -/
theorem mem_declarations_own {place : Place} {source : Script} {depth index : Nat}
    : ownBinding place.root ∈ place.declarations source depth index
      ↔ place.told = false ∧ .call ∈ scopeVisits source depth index := by
  rw [Place.declarations, Std.TreeSet.mem_toList, Std.TreeSet.mem_ofList, List.contains_iff_mem,
    List.mem_filterMap]
  constructor
  · rintro ⟨visit, member, needed⟩
    cases visit with
    | read name => exact (Variable.binding_ne_ownBinding needed place.root rfl).elim
    | call =>
        cases told : place.told with
        | true => simp [Place.binding?, told] at needed
        | false => exact ⟨rfl, member⟩
    | _ => cases needed
  · rintro ⟨outside, member⟩
    exact ⟨.call, member, by simp [Place.binding?, outside]⟩

/-- The text of a script is the one in which every call of a fixed event without tags is resolved by
where it stands: whether a `tell` encloses it, and whether the script handles its event, at whatever
place in the script. A `tell` encloses its block, and its operands too if the engine carries it out;
the coordinates of a `tell` in place count as outside of it. A function declares the script's own
object exactly if it is outside of every `tell` and an event handler is called in its scope.
-/
theorem calls_resolve_by_place (entry : Registry.Entry) (source : Script)
    : script entry source = resolvedScript entry source
      ∧ ∀ (place : Place) (depth index : Nat),
          "local __self = " ++ place.root ++ " --[this script]"
            ∈ place.declarations source depth index
          ↔ place.told = false ∧ .call ∈ scopeVisits source depth index := by
  refine ⟨?_, fun place depth index => mem_declarations_own⟩
  funext state
  let entered : State :=
    { state with
      journal := state.journal.push
        (.compilingScript entry.name entry.kind.word entry.id source.handlers.length)
      ownEvents := .ofList source.events }
  have events (event : String)
      : entered.ownEvents.contains event = source.events.contains event :=
    Std.TreeSet.contains_ofList
  show (handlers source entry source.handlers >>= _) entered
    = (resolvedHandlers source entry source.handlers >>= _) entered
  simp only [Bind.bind, EStateM.bind, handlers_resolve events entry source.handlers]

end TileLua.Codegen
