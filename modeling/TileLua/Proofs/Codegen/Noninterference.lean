import TileLua.Proofs.Codegen.DelegatingHandler
import TileLua.Proofs.Codegen.ScopeBindings

/-! What the text of a block depends on.
Two runs from states that agree on margin, dispatch object, root, own events, tiles and routes give
the same text or the same defect, and leave the same routes. Uses, problems, settings, records,
position, enclosing dispatch objects and open functions have no influence. The text of a script
depends on the scripts compiled before it through the routes alone.
-/

namespace TileLua.Codegen

-----------------------------------------------------------------------------------------
-- States that agree, and runs that end alike
-----------------------------------------------------------------------------------------

/-- Two states agree on all that the text of a block is made from. -/
structure State.Agrees (first second : State) : Prop where
  indent : first.indent = second.indent
  object : first.dispatchObject = second.dispatchObject
  root : first.root = second.root
  ownEvents : first.ownEvents.Equiv second.ownEvents
  tiles : first.tiles.ids.Equiv second.tiles.ids
  routes : first.routes.Equiv second.routes

/-- Two runs end alike: both with the same result or both with the same defect, and with the same
routes.
-/
inductive Alike {α : Type}
    : EStateM.Result Defect State α → EStateM.Result Defect State α → Prop
  | ok (value : α) {first second : State} (routes : first.routes.Equiv second.routes)
    : Alike (.ok value first) (.ok value second)
  | error (defect : Defect) {first second : State} (routes : first.routes.Equiv second.routes)
    : Alike (.error defect first) (.error defect second)

/-- An action whose outcome is determined by what states agree on. -/
structure Determined {α : Type} (action : Codegen α) : Prop where
  grown : Keeps State.Grown action
  alike
    : ∀ {first second : State}, first.Agrees second → Alike (action first) (action second)

/-- States that agree still do after steps inside a handler, if these leave the same routes. -/
theorem State.Agrees.after {first second first' second' : State} (agree : first.Agrees second)
    (grown : first.Grown first') (grown' : second.Grown second')
    (routes : first'.routes.Equiv second'.routes)
    : first'.Agrees second' where
  indent := grown.indent.trans (agree.indent.trans grown'.indent.symm)
  object := by simpa only [State.dispatchObject, grown.dispatch, grown'.dispatch] using agree.object
  root := grown.root.trans (agree.root.trans grown'.root.symm)
  ownEvents := by simpa only [grown.ownEvents, grown'.ownEvents] using agree.ownEvents
  tiles := by simpa only [grown.tiles, grown'.tiles] using agree.tiles
  routes := routes

/-- A sequence ends alike if its first part does and its second part does from states in which the
first part can end.
-/
theorem Alike.bind {α β : Type} {action : Codegen α} {next : α → Codegen β} {first second : State}
    (left : Alike (action first) (action second))
    (right
      : ∀ {value first' second'},
          action first = .ok value first'
          → action second = .ok value second'
          → first'.routes.Equiv second'.routes
          → Alike (next value first') (next value second'))
    : Alike ((action >>= next) first) ((action >>= next) second) := by
  simp only [Bind.bind, EStateM.bind]
  cases firstRun : action first with
  | ok value first' =>
      cases secondRun : action second with
      | ok other second' =>
          rw [firstRun, secondRun] at left
          cases left with
          | ok _ routes => exact right firstRun secondRun routes
      | error defect second' =>
          rw [firstRun, secondRun] at left
          cases left
  | error defect first' =>
      cases secondRun : action second with
      | ok other second' =>
          rw [firstRun, secondRun] at left
          cases left
      | error other second' =>
          rw [firstRun, secondRun] at left
          cases left with
          | error _ routes => exact .error defect routes

/-- Surroundings that leave the routes alone do not change how runs compare. -/
theorem Alike.around {α : Type} {action : Codegen α} {enter : State → State}
    {leave : State → State → State} {first second : State}
    (inner : Alike (action (enter first)) (action (enter second)))
    (left : ∀ before state, (leave before state).routes = state.routes)
    : Alike (Codegen.around enter leave action first)
        (Codegen.around enter leave action second) := by
  simp only [Codegen.around]
  generalize action (enter first) = firstResult at inner ⊢
  generalize action (enter second) = secondResult at inner ⊢
  cases inner with
  | ok value routes => exact .ok value (by simpa only [left] using routes)
  | error defect routes => exact .error defect (by simpa only [left] using routes)

namespace Determined

variable {α β : Type}

theorem bind {action : Codegen α} {next : α → Codegen β} (left : Determined action)
    (right : ∀ value, Gives action value → Determined (next value))
    : Determined (action >>= next) where
  grown := left.grown.bind_given (fun value gives => (right value gives).grown)
  alike := by
    intro first second agree
    refine (left.alike agree).bind (fun firstRun secondRun routes => ?_)
    refine (right _ ⟨first, _, firstRun⟩).alike (agree.after ?_ ?_ routes)
    · exact left.grown.of_ok firstRun
    · exact left.grown.of_ok secondRun

/-- An action that always gives the same value and leaves the routes alone. -/
theorem of_value {action : Codegen α} (value : α) (grown : Keeps State.Grown action)
    (run : ∀ before, ∃ after, action before = .ok value after ∧ after.routes = before.routes)
    : Determined action where
  grown := grown
  alike := by
    intro first second agree
    obtain ⟨first', firstRun, firstRoutes⟩ := run first
    obtain ⟨second', secondRun, secondRoutes⟩ := run second
    rw [firstRun, secondRun]
    exact .ok value (by simpa only [firstRoutes, secondRoutes] using agree.routes)

theorem pure (value : α) : Determined (Pure.pure value : Codegen α) :=
  .of_value value (.pure value) (fun before => ⟨before, rfl, rfl⟩)

theorem throw (defect : Defect) : Determined (MonadExcept.throw defect : Codegen α) where
  grown := .throw defect
  alike := fun agree => .error defect agree.routes

/-- An action may look at the state as long as agreeing states show it the same. -/
theorem reading {next : State → Codegen α} (determined : ∀ state, Determined (next state))
    (same : ∀ {first second}, first.Agrees second → next first = next second)
    : Determined (get >>= next) where
  grown := Keeps.get.bind (fun state => (determined state).grown)
  alike := by
    intro first second agree
    rw [get_bind, get_bind, same agree]
    exact (determined second).alike agree

theorem around {action : Codegen α} {enter : State → State} {leave : State → State → State}
    (inner : Determined action) (grown : Keeps State.Grown (Codegen.around enter leave action))
    (entered : ∀ {first second}, first.Agrees second → (enter first).Agrees (enter second))
    (left : ∀ before state, (leave before state).routes = state.routes)
    : Determined (Codegen.around enter leave action) where
  grown := grown
  alike := fun agree => (inner.alike (entered agree)).around left

theorem sequential : Sequential (fun action => Determined action) where
  pure := pure
  bind := fun left right => left.bind (fun value _ => right value)

end Determined

-----------------------------------------------------------------------------------------
-- The steps of code generation inside a handler
-----------------------------------------------------------------------------------------

theorem margin_determined : Determined margin :=
  .reading (fun _ => .pure _) (fun agree => by simp only [agree.indent])

theorem foldTile_determined (tree : Expr) : Determined (foldTile tree) where
  grown := (foldTile_quiet tree).grown
  alike := by
    intro first second agree
    have same : first.tiles.named? tree = second.tiles.named? tree := by
      cases tree with
      | str name => simp only [TileTable.named?, TileTable.get?, agree.tiles.getElem?_eq]
      | _ => rfl
    rw [foldTile_apply, foldTile_apply, same]
    cases second.tiles.named? tree with
    | none => exact .ok tree agree.routes
    | some tile => exact .ok _ agree.routes

theorem meet_determined (problem : Problem) : Determined (meet problem) :=
  .of_value () (meet_quiet problem).grown (fun _ => ⟨_, rfl, rfl⟩)

theorem bindLocal_determined (binding : String) : Determined (bindLocal binding) := by
  refine .of_value () (bindLocal_grown binding) (fun before => ?_)
  obtain ⟨journal, run⟩ := bindLocal_apply binding before
  exact ⟨_, run, rfl⟩

theorem useVariable_determined (name : String) : Determined (useVariable name) := by
  have grown := (useVariable_quiet name).grown
  unfold useVariable at grown ⊢
  split
  · exact .pure name
  · rename_i counted
    simp only [counted] at grown
    exact .of_value _ grown (fun _ => ⟨_, rfl, rfl⟩)

theorem comment_determined (source : Script) (index : Nat) (inline : Bool)
    : Determined (comment source index inline) := by
  have setting (directive : String) (group : SettingGroup) (key : String) (value : Option String)
      : Determined (applySetting directive group key value) := by
    refine .of_value () (applySetting_quiet directive group key value).grown (fun before => ?_)
    cases value with
    | none => exact ⟨_, rfl, rfl⟩
    | some value =>
        simp only [applySetting]
        split <;> exact ⟨_, rfl, rfl⟩
  exact Determined.sequential.comment setting source index inline

/-- The name of a route depends on the routes that there are, and not on how they are stored. -/
theorem nameOf_congr {first second : Routes} (same : first.Equiv second) (target : Route)
    : first.nameOf target = second.nameOf target := by
  have accepts (name : String) : first.accepts target name = second.accepts target name := by
    simp only [Routes.accepts, same.getElem?_eq]
  simp only [Routes.nameOf, accepts, same.size_eq]

theorem route_determined (target : Route) : Determined (route target) where
  grown := (route_quiet target).grown
  alike := by
    intro first second agree
    rw [route_apply, route_apply, nameOf_congr agree.routes, agree.routes.contains_eq]
    split
    · exact .ok _ agree.routes
    · exact .ok _ (agree.routes.insert _ target)

theorem callSite_determined (write : BlockWriter) (tags : Annotations) (callee : Callee)
    (form : ∀ object, Determined (callForm write object callee))
    : Determined (callSite write tags callee) := by
  refine .reading (fun state => (form _).bind (fun form _ => ?_)) ?_
  · have routed (found : Dispatch)
        : Determined
            (routedDispatch form.handler found tags.routes >>= fun dispatch =>
              pure (dispatch.text form.event)) :=
      Determined.sequential.bind_pure _
        (Determined.sequential.routedDispatch route_determined _ _ _)
    dsimp only
    split
    · refine .reading (fun state => (bindLocal_determined _).bind (fun _ _ => ?_)) ?_
      · refine .reading (fun state => (Determined.pure _).bind (fun found _ => routed found)) ?_
        intro first second agree
        simp only [agree.ownEvents.contains_eq]
      · intro first second agree
        simp only [agree.root]
    · exact (Determined.pure _).bind (fun found _ => routed found)
  · intro first second agree
    simp only [agree.object]

theorem State.Agrees.entered {first second : State} (agree : first.Agrees second) (steps : Nat)
    : State.Agrees { first with indent := first.indent + steps }
        { second with indent := second.indent + steps } :=
  { agree with indent := by simp only [agree.indent] }

/-- The enclosing dispatch objects are out of sight behind the innermost one. -/
theorem State.Agrees.dispatched {first second : State} (agree : first.Agrees second)
    (object : String)
    : State.Agrees { first with dispatch := object :: first.dispatch }
        { second with dispatch := object :: second.dispatch } :=
  { agree with object := rfl }

/-- Code generation is determined by what states agree on as long as the blocks written inside
are.
-/
theorem determinedLogic (source : Script) (write : BlockWriter)
    (blocks : ∀ scope index, Determined (write scope index))
    : VisitLogic source write (fun _ action => Determined action) where
  pure := .pure
  bind := Determined.bind
  margin := margin_determined
  indented := fun steps inner =>
    inner.around (indented_grown steps inner.grown) (fun agree => agree.entered steps)
      (fun _ _ => rfl)
  read := fun name =>
    Determined.sequential.bind (useVariable_determined name)
      (Determined.sequential.readSpecial bindLocal_determined)
  unknownExpr := fun _ => meet_determined _
  block := blocks
  foldTile := foldTile_determined
  use := useVariable_determined
  unknownCommand := fun _ => meet_determined _
  comment := comment_determined source
  dispatching := fun object _ inner =>
    inner.around (dispatchingOn_grown object inner.grown) (fun agree => agree.dispatched object)
      (fun _ _ => rfl)
  tellWithoutBlock := fun _ => .throw _
  call := callSite_determined write

-----------------------------------------------------------------------------------------
-- Blocks, by induction on how deep they are nested
-----------------------------------------------------------------------------------------

theorem commands_determined (source : Script) (write : BlockWriter) (block index : Nat)
    (body : List Command) (blocks : ∀ scope index, Determined (write scope index))
    : Determined (commands source write block index body) := by
  have logic := determinedLogic source write blocks
  refine logic.commands (fun {_ _ _} location (inner : Determined _) => ?_) block index body
  exact inner.around (atLocation_grown location inner.grown) (fun agree => { agree with })
    (fun _ _ => rfl)

/-- The declarations of a function are what its visits need, whatever functions are open around
it.
-/
theorem inFunction_determined {α : Type} {source : Script} {visits : List Visit}
    {action : Codegen α} (inner : Determined action) (declares : Declares source visits action)
    : Determined (inFunction action) where
  grown := inFunction_grown inner.grown
  alike := by
    intro first second agree
    have entered : State.Agrees { first with frames := {} :: first.frames }
        { second with frames := {} :: second.frames } :=
      { agree with }
    refine Alike.around ((inner.alike entered).bind ?_) (fun _ _ => rfl)
    intro value first' second' firstRun secondRun routes
    have same : first'.innermost.Equiv second'.innermost := by
      refine .of_forall_mem_iff (fun binding => ?_)
      rw [declares.declared firstRun (by simp) binding,
        declares.declared secondRun (by simp) binding]
      have needs (visit : Visit) :=
        @needs_congr source _ _ visit binding entered.object entered.root
      simp only [needs]
      rfl
    have bindings : (first'.frames.headD {}).toList = (second'.frames.headD {}).toList :=
      same.toList_eq
    rw [get_bind, get_bind, bindings]
    exact .ok _ routes

theorem blockText_determined (source : Script) (write : BlockWriter) (scope : Scope) (index : Nat)
    (blocks : ∀ scope index, Determined (write scope index))
    (declares : ∀ scope index, Declares source [.block scope index] (write scope index))
    : Determined (blockText source write scope index) := by
  have lookup : Determined (ofExcept (source.block index)) := by
    cases source.block index with
    | ok body => exact .pure body
    | error defect => exact .throw defect
  have lines (body : Block) := commands_determined source write index 0 body blocks
  exact Determined.sequential.blockText margin_determined lookup lines
    (fun body => inFunction_determined (lines body)
      (commands_declares source write index 0 body declares)) scope

theorem blockWithin_determined (source : Script) (depth : Nat) (scope : Scope) (index : Nat)
    : Determined (blockWithin source depth scope index) := by
  induction depth generalizing scope index with
  | zero => exact .throw _
  | succ depth ih =>
      exact blockText_determined source (blockWithin source depth) scope index ih
        (blockWithin_declares source depth)

-----------------------------------------------------------------------------------------
-- Handlers and scripts
-----------------------------------------------------------------------------------------

/-- Two states agree on all that the text of a script is made from. -/
structure State.AgreesOutside (first second : State) : Prop where
  indent : first.indent = second.indent
  tiles : first.tiles.ids.Equiv second.tiles.ids
  routes : first.routes.Equiv second.routes

theorem State.AgreesOutside.after {first second first' second' : State}
    (agree : first.AgreesOutside second) (restored : first.Restored first')
    (restored' : second.Restored second') (routes : first'.routes.Equiv second'.routes)
    : first'.AgreesOutside second' where
  indent := restored.indent.trans (agree.indent.trans restored'.indent.symm)
  tiles := by simpa only [restored.tiles, restored'.tiles] using agree.tiles
  routes := routes

/-- A handler chooses its root and its dispatch object itself, so its text depends on less than
that of a block does.
-/
theorem handler_alike (source : Script) (owner root : String) (entry : Handler)
    {first second : State} (agree : first.AgreesOutside second)
    (events : first.ownEvents.Equiv second.ownEvents)
    : Alike (handler source owner root entry first) (handler source owner root entry second) := by
  have noted : Alike (note (.compilingHandler owner entry.event) first)
      (note (.compilingHandler owner entry.event) second) :=
    .ok () agree.routes
  refine noted.bind ?_
  rintro - - - ⟨⟩ ⟨⟩ -
  refine Alike.bind (.ok _ agree.routes) ?_
  rintro - - - ⟨⟩ ⟨⟩ -
  refine Alike.bind (Alike.around ?_ (fun _ _ => rfl)) ?_
  · exact (blockWithin_determined source _ .own entry.block).alike
      { agree with object := rfl, root := rfl, ownEvents := events }
  · intro body first' second' _ _ routes
    cases source.block entry.block with
    | error defect => exact .error defect routes
    | ok commands =>
        obtain ⟨_, recorded⟩ := recordDelegation_apply owner entry.event commands first'
        obtain ⟨_, recorded'⟩ := recordDelegation_apply owner entry.event commands second'
        have records : Alike (recordDelegation owner entry.event commands first')
            (recordDelegation owner entry.event commands second') := by
          rw [recorded, recorded']
          exact .ok () routes
        exact records.bind (fun _ _ routes => .ok _ routes)

/-- The handlers of a script end alike, by induction over their list. -/
theorem handlers_alike (source : Script) (entry : Registry.Entry) (list : List Handler)
    {first second : State} (agree : first.AgreesOutside second)
    (events : first.ownEvents.Equiv second.ownEvents)
    : Alike (handlers source entry list first) (handlers source entry list second) := by
  induction list generalizing first second with
  | nil => exact .ok "" agree.routes
  | cons head rest ih =>
      refine (handler_alike source entry.name entry.slot head agree events).bind ?_
      intro text first' second' firstRun secondRun routes
      have restored := handler_restored source entry.name entry.slot head
      refine Alike.bind (ih ?_ ?_) (fun _ _ routes => .ok _ routes)
      · exact agree.after (restored.of_ok firstRun) (restored.of_ok secondRun) routes
      · rwa [handler_ownEvents firstRun, handler_ownEvents secondRun]

theorem script_alike (entry : Registry.Entry) (source : Script) {first second : State}
    (agree : first.AgreesOutside second)
    : Alike (script entry source first) (script entry source second) := by
  refine Alike.bind (.ok () agree.routes) ?_
  rintro - - - ⟨⟩ ⟨⟩ -
  refine Alike.bind (.ok _ agree.routes) ?_
  rintro - - - ⟨⟩ ⟨⟩ -
  refine Alike.bind (handlers_alike source entry source.handlers ?_ ?_) ?_
  · exact { agree with }
  · exact .rfl
  · intro text first' second' _ _ routes
    exact .ok _ routes

/-- The state after scripts were compiled one after the other, with a text or with a defect each. -/
def afterScripts (start : State) (compiled : List (Registry.Entry × Script)) : State :=
  compiled.foldl (fun state next => finish (script next.1 next.2) state) start

theorem afterScripts_restored (start : State) (compiled : List (Registry.Entry × Script))
    : start.Restored (afterScripts start compiled) := by
  induction compiled generalizing start with
  | nil => exact .refl start
  | cons next rest ih => exact (script_restored next.1 next.2 start).trans (ih _)

/-- The text of a block, or the defect that stops it, and the routes after it depend on the state
through what states agree on alone. So the text of a script does not depend on which scripts were
compiled before it, unless these leave other routes.
-/
theorem text_depends_on_agreement_alone (source : Script)
    : (∀ scope index first second,
        first.Agrees second
        → Alike (block source scope index first) (block source scope index second))
      ∧ ∀ entry start earlier other,
          (afterScripts start earlier).routes.Equiv (afterScripts start other).routes
          → Alike (script entry source (afterScripts start earlier))
              (script entry source (afterScripts start other)) := by
  constructor
  · intro scope index first second agree
    exact (blockWithin_determined source _ scope index).alike agree
  · intro entry start earlier other routes
    have agree : start.AgreesOutside start := ⟨rfl, .rfl, .rfl⟩
    exact script_alike entry source
      (agree.after (afterScripts_restored start earlier) (afterScripts_restored start other) routes)

/-- Inside a handler, with nothing seen before. -/
def atStart : State :=
  { root := "__script[1]", ownEvents := .ofList ["hit"], dispatch := [Engine.ownObject] }

/-- The same handler, inside another function and after other scripts. -/
def afterOthers : State :=
  { atStart with
    uses := .ofList [("score", 3)]
    luaVariables := .ofList ["score"]
    frames := [.ofList ["local __event_x = __actor.x or __pulp.player.x"]]
    dispatch := [Engine.ownObject, Engine.actorObject]
    cursor := some { script := "door", block := 4, command := 2 }
    settings := {} }

/-- A script that counts a variable and adds no route. -/
def counting : Script where
  name := "door"
  handlers := [{ event := "enter", block := 0 }]
  blocks := [[.inc "score"]]

def countingEntry : Registry.Entry :=
  { name := "door", kind := .tile, id := 4, slot := "__script[2]" }

def readingEntry : Registry.Entry :=
  { name := "player", kind := .tile, id := 0, slot := "__script[1]" }

theorem same_text_after_others
    : atStart.Agrees afterOthers
      ∧ (∃ text after after',
        block nestedReads .own 0 atStart = .ok text after
        ∧ block nestedReads .own 0 afterOthers = .ok text after')
      ∧ Alike (script readingEntry nestedReads (afterScripts {} []))
          (script readingEntry nestedReads (afterScripts {} [(countingEntry, counting)])) := by
  have agree : atStart.Agrees afterOthers := ⟨rfl, rfl, rfl, .rfl, .rfl, .rfl⟩
  obtain ⟨blocks, scripts⟩ := text_depends_on_agreement_alone nestedReads
  refine ⟨agree, ?_, scripts readingEntry {} [] [(countingEntry, counting)] .rfl⟩
  obtain ⟨text, after, run⟩ : ∃ text after, block nestedReads .own 0 atStart = .ok text after :=
    exists_ok_of_succeeds (by decide +kernel)
  have alike := blocks .own 0 atStart afterOthers agree
  rw [run] at alike
  cases other : block nestedReads .own 0 afterOthers with
  | ok text' after' =>
      rw [other] at alike
      cases alike
      exact ⟨text, after, after', run, rfl⟩
  | error defect after' =>
      rw [other] at alike
      cases alike

end TileLua.Codegen
