import TileLua.Proofs.Codegen.CallResolution

/-! Which events are known after a script.
A script makes its events known before its first handler and forgets them after its last one. A
defect in a handler stops it in between, so the events of a script that fails stay known, and code
that is compiled later resolves its calls against them.
-/

namespace TileLua.Codegen

-----------------------------------------------------------------------------------------
-- The events that a script leaves behind
-----------------------------------------------------------------------------------------

/-- The state in which the first handler of a script is compiled. -/
def State.entered (before : State) (entry : Registry.Entry) (source : Script) : State :=
  { before with
    journal := before.journal.push
      (.compilingScript entry.name entry.kind.word entry.id source.handlers.length)
    ownEvents := .ofList source.events }

/-- After the last handler of a script its events are forgotten. -/
theorem script_of_handlers {entry : Registry.Entry} {source : Script} {before after : State}
    {text : String}
    (run : handlers source entry source.handlers (before.entered entry source) = .ok text after)
    : script entry source before = .ok (entry.header ++ text) { after with ownEvents := {} } := by
  show (handlers source entry source.handlers >>= _) (before.entered entry source) = _
  exact bind_eq_ok.mpr ⟨text, after, run, rfl⟩

/-- A script fails as soon as one of its handlers does. -/
theorem script_of_failed_handler {entry : Registry.Entry} {source : Script} {before after : State}
    {defect : Defect}
    (run : handlers source entry source.handlers (before.entered entry source)
      = .error defect after)
    : script entry source before = .error defect after := by
  show (handlers source entry source.handlers >>= _) (before.entered entry source) = _
  simp only [bind, EStateM.bind, run]

/-- The events that are known after a script: none, or all of its own if it fails. -/
def leftoverEvents (entry : Registry.Entry) (source : Script) (before : State) : List String :=
  if succeeds (script entry source) before then [] else source.events

theorem ownEvents_finish_script (entry : Registry.Entry) (source : Script) (before : State)
    : (finish (script entry source) before).ownEvents
      = .ofList (leftoverEvents entry source before) := by
  cases run : handlers source entry source.handlers (before.entered entry source) with
  | ok text after =>
      simp only [leftoverEvents, succeeds, finish, script_of_handlers run]
      rfl
  | error defect after =>
      simp only [leftoverEvents, succeeds, finish, script_of_failed_handler run]
      have kept : Keeps State.SameEvents (handlers source entry source.handlers) :=
        sameEventsLogic.handlers source entry source.handlers
      exact kept.of_error run

/-- The events of a script that fails are not none, since a script without handlers succeeds. -/
theorem leftoverEvents_eq_nil_iff (entry : Registry.Entry) (source : Script) (before : State)
    : leftoverEvents entry source before = [] ↔ succeeds (script entry source) before = true := by
  unfold leftoverEvents
  cases success : succeeds (script entry source) before with
  | true => simp
  | false =>
      have handled : source.handlers ≠ [] := by
        intro none
        have run : handlers source entry source.handlers (before.entered entry source)
            = .ok "" (before.entered entry source) := by
          rw [none]
          rfl
        simp only [succeeds, script_of_handlers run] at success
        cases success
      simpa [Script.events] using handled

-----------------------------------------------------------------------------------------
-- Which scripts fail
-----------------------------------------------------------------------------------------

/-- A handler fails by its block: what comes before it never fails, and the block that the record
is made from has been found when it was written.
-/
theorem handler_failsBy (source : Script) (owner root : String) (entry : Handler)
    : FailsBy (Defective source (source.blocks.length + 1)) [.block .own entry.block]
        (handler source owner root entry) := by
  have silent {α : Type} {action : Codegen α} (total : NeverFails action)
      : FailsBy (Defective source (source.blocks.length + 1)) [] action :=
    .of_neverFails total (by simp)
  have function := (blockWithin_failsBy source (source.blocks.length + 1) .own entry.block).around
  refine (silent (note_neverFails _)).bind (fun _ _ => ?_)
  refine (silent (.update _)).bind (fun _ _ => ?_)
  refine (function _ _).bind (fun _ gives => silent ?_)
  obtain ⟨before, after, run⟩ := gives
  obtain ⟨_, written, -⟩ := around_eq_ok.mp run
  obtain ⟨body, _, lookup, -⟩ := bind_eq_ok.mp written
  rw [(ofExcept_eq_ok.mp lookup).1]
  refine .bind (.pure body) (fun _ => .bind ?_ (fun _ => .pure _))
  intro before defect after failed
  obtain ⟨journal, recorded⟩ := recordDelegation_apply owner entry.event _ before
  cases recorded.symm.trans failed

/-- The handlers of a script fail by their blocks, by induction over their list. -/
theorem handlers_failsBy (source : Script) (entry : Registry.Entry) (list : List Handler)
    : FailsBy (Defective source (source.blocks.length + 1))
        (list.map fun handler => .block .own handler.block) (handlers source entry list) := by
  induction list with
  | nil => exact .of_neverFails (.pure "") (by simp)
  | cons first rest ih =>
      exact (handler_failsBy source entry.name entry.slot first).bind
        (fun _ _ => ih.followed (fun _ => .pure _))

/-- If no block is nested in itself, a script succeeds exactly if none of its handlers can come
across a defect.
-/
theorem script_succeeds_iff {source : Script} (acyclic : Acyclic source) (entry : Registry.Entry)
    (before : State)
    : succeeds (script entry source) before = true
      ↔ ∀ handler ∈ source.handlers, ∀ defect, ¬ Violates source handler.block defect := by
  have blocks := handlers_failsBy source entry source.handlers
  cases run : handlers source entry source.handlers (before.entered entry source) with
  | ok text after =>
      simp only [succeeds, script_of_handlers run, true_iff]
      intro handler member defect violates
      obtain ⟨found, defective⟩ := violates.defective (source.blocks.length + 1)
      exact blocks.succeeds run _ (List.mem_map_of_mem member) found defective
  | error defect after =>
      simp only [succeeds, script_of_failed_handler run, Bool.false_eq_true, false_iff]
      intro sound
      obtain ⟨visit, visited, spoils⟩ := blocks.fails run
      obtain ⟨handler, member, rfl⟩ := List.mem_map.mp visited
      have start := Trail.start source handler.block
      exact sound handler member defect (violates_of_defective acyclic start (by simp) spoils)

-----------------------------------------------------------------------------------------
-- What is compiled after a script
-----------------------------------------------------------------------------------------

/-- Where code stands that is compiled after a script, outside of every `tell`. -/
def Place.afterScript (entry : Registry.Entry) (source : Script) (before : State) : Place where
  told := false
  root := (finish (script entry source) before).root
  events := leftoverEvents entry source before

theorem Place.fits_afterScript {before : State} (outside : before.dispatchObject = Engine.ownObject)
    (entry : Registry.Entry) (source : Script)
    : (Place.afterScript entry source before).Fits (finish (script entry source) before) where
  object := by
    have restored := script_restored entry source before
    simpa only [State.dispatchObject, restored.dispatch, Place.afterScript, Bool.false_eq_true,
      ↓reduceIte] using outside
  root := rfl
  events := by
    intro event
    rw [ownEvents_finish_script]
    exact Std.TreeSet.contains_ofList

/-- A script forgets its events exactly if it succeeds, which it does exactly if none of its
handlers can come across a missing block or a `tell` in place without a block. If it fails, its
events stay known: all blocks that are compiled afterwards, of whatever script, have their calls
resolved as if the events of the failed script were their own.
-/
theorem script_forgets_events_iff (entry : Registry.Entry) (source : Script) (before : State)
    : ((finish (script entry source) before).ownEvents.isEmpty = true
        ↔ succeeds (script entry source) before = true)
      ∧ (Acyclic source
        → (succeeds (script entry source) before = true
          ↔ ∀ handler ∈ source.handlers, ∀ defect, ¬ Violates source handler.block defect))
      ∧ (before.dispatchObject = Engine.ownObject
        → ∀ (later : Script) (scope : Scope) (index : Nat),
            block later scope index (finish (script entry source) before)
            = resolvedWithin later (later.blocks.length + 1)
                { told := false
                  root := (finish (script entry source) before).root
                  events :=
                    if succeeds (script entry source) before then [] else source.events }
                scope index (finish (script entry source) before)) := by
  refine ⟨?_, fun acyclic => script_succeeds_iff acyclic entry before, ?_⟩
  · rw [ownEvents_finish_script, ← leftoverEvents_eq_nil_iff, Std.TreeSet.isEmpty_ofList,
      List.isEmpty_iff]
  · intro outside later scope index
    exact (blockWithin_resolves later _ _ scope index).same
      (Place.fits_afterScript outside entry source)

/-- A script whose second handler refers to a block that is missing. -/
def halfSound : Script where
  name := "door"
  handlers := [⟨"open", 0⟩, ⟨"shut", 9⟩]
  blocks := [[.done]]

/-- A script without handlers that calls an event. -/
def opener : Script where
  name := "key"
  blocks := [[.call (.name "open")]]

/-- The registered script of a door. -/
def doorEntry : Registry.Entry :=
  { name := "door", kind := .tile, id := 0, slot := "__script[1]" }

theorem halfSound_acyclic : Acyclic halfSound := by
  refine acyclic_of_later (fun {outer inner} refers => ?_)
  obtain ⟨body, found, command, member, scope, visited⟩ := refers
  have sole : ∀ body ∈ halfSound.blocks, body.flatMap Command.visits = [] := by decide
  have none := sole body (List.mem_of_getElem? found)
  rw [List.flatMap_eq_nil_iff] at none
  simp [none command member] at visited

/-- After the script has failed its events are known, and a call of another script that handles
nothing goes straight to a handler that only the failed script has.
-/
theorem failed_script_answers_later_calls
    : (finish (script doorEntry halfSound) {}).ownEvents.isEmpty = false
      ∧ Violates halfSound 9 (.missingBlock "door" 9 1)
      ∧ ∃ after,
          block opener .own 0 (finish (script doorEntry halfSound) {})
          = .ok
              ("  local __self = __script[1] --[this script]\n"
                ++ "  __self.open(__actor, event, \"open\")\n")
              after := by
  obtain ⟨forgets, sound, resolves⟩ := script_forgets_events_iff doorEntry halfSound {}
  have missing : Violates halfSound 9 (.missingBlock "door" 9 1) := .missing rfl
  have failed : ¬ succeeds (script doorEntry halfSound) {} = true := by
    intro success
    exact (sound halfSound_acyclic).mp success ⟨"shut", 9⟩ (by decide) _ missing
  refine ⟨?_, missing, ?_⟩
  · rw [← forgets] at failed
    simpa using failed
  · rw [resolves rfl opener .own 0, if_neg failed]
    exact ⟨_, rfl⟩

end TileLua.Codegen
