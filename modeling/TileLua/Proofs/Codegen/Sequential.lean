import TileLua.Codegen.Script

/-! Properties that larger steps of code generation have because smaller ones do.
A property of actions that plain results have and that a sequence has if its parts do is shown here,
once for all such properties, of the steps that are sequences of others: from what it takes to read
a variable up to the scripts of an export.
-/

namespace TileLua.Codegen

/-- A property of actions that plain results have, and sequences if their parts do. -/
structure Sequential (Holds : {α : Type} → Codegen α → Prop) : Prop where
  pure {α : Type} (value : α) : Holds (Pure.pure value)
  bind {α β : Type} {action : Codegen α} {next : α → Codegen β}
    : Holds action → (∀ value, Holds (next value)) → Holds (action >>= next)

namespace Sequential

variable {Holds : {α : Type} → Codegen α → Prop}

theorem bind_pure (logic : Sequential Holds) {α β : Type} {action : Codegen α} (result : α → β)
    (holds : Holds action)
    : Holds (action >>= fun value => Pure.pure (result value)) :=
  logic.bind holds (fun value => logic.pure (result value))

-----------------------------------------------------------------------------------------
-- Inside a handler
-----------------------------------------------------------------------------------------

theorem readSpecial (logic : Sequential Holds) (binds : ∀ binding, Holds (bindLocal binding))
    (name : String)
    : Holds (readSpecial name) := by
  unfold Codegen.readSpecial
  split
  · rename_i special _
    refine logic.bind ?_ (fun _ => logic.pure special.text)
    cases special.binding with
    | none => exact logic.pure ()
    | some binding => exact binds binding
  · exact logic.pure name

theorem applySetting (logic : Sequential Holds) (notes : ∀ notice, Holds (note notice))
    (meets : ∀ problem, Holds (meet problem))
    (sets : ∀ change : Settings → Settings,
      Holds (modify fun state : State => { state with settings := change state.settings }))
    (directive : String) (group : SettingGroup) (key : String) (value : Option String)
    : Holds (applySetting directive group key value) := by
  cases value with
  | none => exact meets _
  | some value =>
      simp only [Codegen.applySetting]
      split
      · exact meets _
      · exact logic.bind (notes _) (fun _ => sets (·.set group key value))

/-- Of all comments only settings do more than give a result. -/
theorem comment (logic : Sequential Holds)
    (settings : ∀ directive group key value, Holds (Codegen.applySetting directive group key value))
    (source : Script) (index : Nat) (inline : Bool)
    : Holds (comment source index inline) := by
  unfold Codegen.comment
  split
  · exact logic.pure _
  · split
    · exact logic.pure _
    · exact logic.bind_pure _ (settings _ _ _ _)
    all_goals exact logic.pure _

theorem routedDispatch (logic : Sequential Holds) (routes : ∀ target, Holds (route target))
    (handler : String) (found : Dispatch) (tags : List RouteTag)
    : Holds (routedDispatch handler found tags) := by
  induction tags generalizing found with
  | nil => exact logic.pure found
  | cons tag rest ih => exact logic.bind (routes _) (fun _ => ih _)

/-- What a call does once it is known what the call names. -/
theorem callOfForm (logic : Sequential Holds) (reads : Holds (get : Codegen State))
    (binds : ∀ binding, Holds (bindLocal binding)) (routes : ∀ target, Holds (route target))
    (tags : Annotations) (object : String) (form : CallForm)
    : Holds (do
        let dispatch ←
          if object = Engine.ownObject then do
            bindLocal (ownBinding (← get).root)
            let known := (← get).ownEvents.contains form.handler
            Pure.pure (ownDispatch tags known form (lookupDispatch tags object form))
          else Pure.pure (lookupDispatch tags object form)
        let dispatch ← Codegen.routedDispatch form.handler dispatch tags.routes
        return dispatch.text form.event) := by
  have routed (found : Dispatch)
      : Holds (Codegen.routedDispatch form.handler found tags.routes >>= fun dispatch =>
          Pure.pure (dispatch.text form.event)) :=
    logic.bind_pure _ (logic.routedDispatch routes _ _ _)
  dsimp only
  split
  · refine logic.bind reads (fun state => logic.bind (binds _) (fun _ => ?_))
    exact logic.bind reads (fun state => logic.bind (logic.pure _) routed)
  · exact logic.bind (logic.pure _) routed

theorem callSite (logic : Sequential Holds) (reads : Holds (get : Codegen State))
    (binds : ∀ binding, Holds (bindLocal binding)) (routes : ∀ target, Holds (route target))
    (write : BlockWriter) (tags : Annotations) (callee : Callee)
    (form : ∀ object, Holds (callForm write object callee))
    : Holds (callSite write tags callee) :=
  logic.bind reads (fun _ =>
    logic.bind (form _) (logic.callOfForm reads binds routes tags _))

theorem blockText (logic : Sequential Holds) (margins : Holds margin) {source : Script}
    {write : BlockWriter} {index : Nat} (lookup : Holds (ofExcept (source.block index)))
    (lines : ∀ body, Holds (Codegen.commands source write index 0 body))
    (function : ∀ body, Holds (inFunction (Codegen.commands source write index 0 body)))
    (scope : Scope)
    : Holds (blockText source write scope index) := by
  refine logic.bind lookup (fun body => ?_)
  cases scope with
  | shared =>
      simp only [map_eq_pure_bind]
      exact logic.bind_pure _ (lines body)
  | own => exact logic.bind (function body) (fun _ => logic.bind_pure _ margins)

end Sequential

-----------------------------------------------------------------------------------------
-- Handlers
-----------------------------------------------------------------------------------------

/-- A sequential property of all that handlers are put together from. -/
structure HandlerLogic (Holds : {α : Type} → Codegen α → Prop) : Prop extends Sequential Holds where
  throw {α : Type} (defect : Defect) : Holds (MonadExcept.throw defect : Codegen α)
  note (notice : Notice) : Holds (note notice)
  foldTile (tree : Expr) : Holds (foldTile tree)
  root (root : String) : Holds (modify fun state : State => { state with root })
  delegate (delegation : Delegation)
    : Holds (modify fun state : State =>
        { state with delegations := state.delegations ++ [delegation] })
  function (source : Script) (index : Nat)
    : Holds (dispatchingOn Engine.ownObject (block source .own index))

namespace HandlerLogic

variable {Holds : {α : Type} → Codegen α → Prop}

theorem ofExcept (logic : HandlerLogic Holds) {α : Type} (result : Except Defect α)
    : Holds (ofExcept result) := by
  cases result with
  | ok value => exact logic.pure value
  | error defect => exact logic.throw defect

theorem recordDelegation (logic : HandlerLogic Holds) (owner event : String) (body : Block)
    : Holds (recordDelegation owner event body) := by
  refine logic.bind ?_ (fun target => ?_)
  · unfold delegationTarget?
    split
    · exact logic.pure none
    · refine logic.bind (logic.foldTile _) (fun folded => ?_)
      split
      · exact logic.pure _
      · exact logic.pure none
  · cases target with
    | none => exact logic.pure ()
    | some target => exact logic.bind (logic.note _) (fun _ => logic.delegate _)

theorem handler (logic : HandlerLogic Holds) (source : Script) (owner root : String)
    (entry : Handler)
    : Holds (handler source owner root entry) := by
  refine logic.bind (logic.note _) (fun _ => logic.bind (logic.root _) (fun _ => ?_))
  refine logic.bind (logic.function source entry.block) (fun _ => ?_)
  refine logic.bind (logic.ofExcept _) (fun body => ?_)
  exact logic.bind_pure _ (logic.recordDelegation owner entry.event body)

/-- The handlers of a script, by induction over their list. -/
theorem handlers (logic : HandlerLogic Holds) (source : Script) (entry : Registry.Entry)
    (list : List Handler)
    : Holds (handlers source entry list) := by
  induction list with
  | nil => exact logic.pure ""
  | cons first rest ih =>
      refine logic.bind (logic.handler source entry.name entry.slot first) (fun _ => ?_)
      exact logic.bind_pure _ ih

end HandlerLogic

-----------------------------------------------------------------------------------------
-- Scripts and exports
-----------------------------------------------------------------------------------------

/-- A sequential property of all that scripts are put together from. -/
structure ScriptLogic (Holds : {α : Type} → Codegen α → Prop) : Prop
    extends HandlerLogic Holds where
  meet (problem : Problem) : Holds (meet problem)
  ownEvents (events : Std.TreeSet String)
    : Holds (modify fun state : State => { state with ownEvents := events })

namespace ScriptLogic

variable {Holds : {α : Type} → Codegen α → Prop}

theorem script (logic : ScriptLogic Holds) (entry : Registry.Entry) (source : Script)
    : Holds (script entry source) := by
  refine logic.bind (logic.note _) (fun _ => logic.bind (logic.ownEvents _) (fun _ => ?_))
  refine logic.bind (logic.handlers source entry source.handlers) (fun _ => ?_)
  exact logic.bind_pure _ (logic.ownEvents {})

theorem register (logic : ScriptLogic Holds) (registry : Registry) (kind : ScriptKind) (id : Int64)
    : Holds (register registry kind id) := by
  unfold Codegen.register
  split
  · exact logic.bind_pure _ (logic.meet _)
  · exact logic.pure _

theorem readScript (logic : ScriptLogic Holds) (name : String) (data : Json)
    : Holds (readScript name data) := by
  refine logic.bind (logic.ofExcept _) (fun source => ?_)
  dsimp only
  split
  · exact logic.bind_pure _ (logic.note _)
  · exact logic.pure source

theorem scriptEntry (logic : ScriptLogic Holds) (registry : Registry) (object : Json)
    : Holds (scriptEntry registry object) := by
  unfold Codegen.scriptEntry
  dsimp only
  split
  · exact logic.bind_pure _ (logic.meet _)
  · refine logic.bind (logic.register registry _ _) (fun registered => ?_)
    obtain ⟨entry, registry⟩ := registered
    have compiled (source : Script)
        : Holds (Codegen.script entry source >>= fun text => Pure.pure (text, registry)) :=
      logic.bind_pure _ (logic.script entry source)
    dsimp only
    split
    · exact logic.bind (logic.readScript _ _) compiled
    · exact logic.bind (logic.pure _) compiled

/-- The entries of a script table, by induction over the table. -/
theorem scriptEntries (logic : ScriptLogic Holds) (registry : Registry) (index : Nat)
    (entries : List Json)
    : Holds (scriptEntries registry index entries) := by
  induction entries generalizing registry index with
  | nil => exact logic.pure ""
  | cons first rest ih =>
      simp only [Codegen.scriptEntries]
      split
      · refine logic.bind (logic.scriptEntry registry first) (fun result => ?_)
        exact logic.bind_pure _ (ih result.2 _)
      · exact logic.bind (logic.note _) (fun _ => ih _ _)

theorem scripts (logic : ScriptLogic Holds) (game : Json) : Holds (scripts game) := by
  unfold Codegen.scripts
  split
  · exact logic.scriptEntries _ 0 _
  · exact logic.bind_pure _ (logic.note _)

end ScriptLogic

end TileLua.Codegen
