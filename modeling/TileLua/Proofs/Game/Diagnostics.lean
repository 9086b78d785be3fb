import TileLua.Proofs.Codegen.Tour
import TileLua.Proofs.Game.DelegationTable

/-! Which problems are reported, in which order and for which position.
A block reports the problems on its tour, each for the command that it stands in. An export reports
the problems of its script table, which have no position, and those of the handlers of its scripts.
-/

namespace TileLua

/-- The record of the problem that an occurrence is. -/
def Occurrence.diagnostic? (source : Script) (occurrence : Occurrence) : Option Diagnostic :=
  (occurrence.visit.problem? source).map fun problem => problem.diagnostic occurrence.location

/-- The records of the problems on the tour of a block. -/
def Script.diagnosticsWithin (source : Script) (depth index : Nat) : List Diagnostic :=
  (source.tour depth index).filterMap (Occurrence.diagnostic? source)

namespace Codegen

-----------------------------------------------------------------------------------------
-- Blocks
-----------------------------------------------------------------------------------------

theorem Ledger.diagnostics_enter (source : Script) (ledger : Ledger) (occurrence : Occurrence)
    : (ledger.enter source occurrence).diagnostics
      = ledger.diagnostics ++ (occurrence.diagnostic? source).toList := by
  obtain ⟨visit, location⟩ := occurrence
  have used (name : String) : (ledger.use name).diagnostics = ledger.diagnostics := by
    unfold Ledger.use
    split <;> rfl
  have reported (problem : Option Problem)
      : ((problem.map (ledger.report location)).getD ledger).diagnostics
        = ledger.diagnostics ++ (problem.map (·.diagnostic location)).toList := by
    cases problem with
    | none => simp
    | some problem => rfl
  cases visit with
  | read name | write name =>
      simp [Ledger.enter, used, Occurrence.diagnostic?, Visit.problem?]
  | _ => exact reported _

/-- The problems of a tour are added to those in the ledger, by induction over the tour. -/
theorem Ledger.diagnostics_foldl (source : Script) (ledger : Ledger)
    (occurrences : List Occurrence)
    : (occurrences.foldl (Ledger.enter source) ledger).diagnostics
      = ledger.diagnostics ++ occurrences.filterMap (Occurrence.diagnostic? source) := by
  induction occurrences generalizing ledger with
  | nil => simp
  | cons first rest ih =>
      rw [List.foldl_cons, ih, Ledger.diagnostics_enter, List.append_assoc]
      cases found : first.diagnostic? source <;> simp [found]

/-- An action that adds the given diagnostics at its position: all of them if it succeeds, and a
part from their start if it fails.
-/
abbrev Reports {α : Type} (due : Option Location → List Diagnostic) (action : Codegen α) : Prop :=
  Enters State.diagnostics (fun met next => met ++ [next]) due action

theorem foldl_append_singleton (first rest : List Diagnostic)
    : rest.foldl (fun met next => met ++ [next]) first = first ++ rest := by
  induction rest generalizing first with
  | nil => rw [List.foldl_nil, List.append_nil]
  | cons next rest ih => rw [List.foldl_cons, ih, List.append_assoc, List.singleton_append]

theorem Reports.of_enters {α : Type} {source : Script} {action : Codegen α}
    {occurrences : Option Location → List Occurrence}
    (entered : Enters State.ledger (Ledger.enter source) occurrences action)
    : Reports (fun location =>
        (occurrences location).filterMap (Occurrence.diagnostic? source)) action where
  steady := entered.steady
  complete := by
    intro before after value run
    have ledger := congrArg Ledger.diagnostics (entered.complete run)
    rw [Ledger.diagnostics_foldl] at ledger
    rw [foldl_append_singleton]
    exact ledger
  stopped := by
    intro before after defect run
    obtain ⟨made, part, view⟩ := entered.stopped run
    have ledger := congrArg Ledger.diagnostics view
    rw [Ledger.diagnostics_foldl] at ledger
    refine ⟨_, part.filterMap (Occurrence.diagnostic? source), ?_⟩
    rw [foldl_append_singleton]
    exact ledger

-----------------------------------------------------------------------------------------
-- Handlers and scripts
-----------------------------------------------------------------------------------------

theorem block_reports (source : Script) {depth : Nat} (deep : source.blocks.length < depth)
    (scope : Scope) (index : Nat)
    : Reports (fun _ => source.diagnosticsWithin depth index) (block source scope index) :=
  .of_enters (blockWithin_enters source deep scope index)

theorem note_reports (notice : Notice) : Reports (fun _ => []) (note notice) :=
  .of_unseen ((note_quiet notice).mono (·.toSteady)) (fun _ => rfl)

theorem meet_reports (problem : Problem)
    : Reports (fun location => [problem.diagnostic location]) (meet problem) :=
  .of_neverFails ((meet_quiet problem).mono (·.toSteady)) (meet_neverFails problem) (fun _ => rfl)

theorem ofExcept_reports {α : Type} (result : Except Defect α)
    : Reports (fun _ => []) (ofExcept result) :=
  .of_unseen (.ofExcept _) (.ofExcept _)

/-- A handler reports the problems of its block. -/
theorem handler_reports (source : Script) (owner root : String) (entry : Handler)
    : Reports (fun _ => source.diagnosticsWithin (source.blocks.length + 1) entry.block)
        (handler source owner root entry) := by
  refine (note_reports _).silent_bind (fun _ _ => ?_)
  have rooted (root : String)
      : Reports (fun _ => [])
          (modify (fun state : State => { state with root }) : Codegen PUnit) :=
    .of_unseen (fun before =>
      (State.Restored.of_unseen before root before.ownEvents before.delegations
        before.journal).toSteady) (fun _ => rfl)
  refine (rooted _).silent_bind (fun _ _ => ?_)
  have body := block_reports source (Nat.lt_succ_self _) .own entry.block
  have function
      : Reports (fun _ => source.diagnosticsWithin (source.blocks.length + 1) entry.block)
          (dispatchingOn Engine.ownObject (block source .own entry.block)) :=
    body.around (dispatchingOn_steady _ body.steady) (fun _ => rfl) (fun _ _ => rfl) (fun _ => rfl)
  refine function.bind_silent (fun _ _ => (ofExcept_reports _).silent_bind (fun commands _ => ?_))
  have recorded : Reports (fun _ => []) (recordDelegation owner entry.event commands) := by
    refine .of_unseen ((recordDelegation_restored owner entry.event commands).mono (·.toSteady)) ?_
    intro before
    obtain ⟨journal, run⟩ := recordDelegation_apply owner entry.event commands before
    rw [finish_of_ok run]
    rfl
  exact recorded.silent_bind (fun _ _ => .pure _)

/-- The records of the problems in the handlers of a script, handler by handler. -/
def handlerDiagnostics (source : Script) (list : List Handler) : List Diagnostic :=
  list.flatMap fun handler =>
    source.diagnosticsWithin (source.blocks.length + 1) handler.block

/-- The handlers of a script report their problems in order, by induction over their list. -/
theorem handlers_reports (source : Script) (entry : Registry.Entry) (list : List Handler)
    : Reports (fun _ => handlerDiagnostics source list) (handlers source entry list) := by
  induction list with
  | nil => exact .pure ""
  | cons first rest ih =>
      simp only [handlerDiagnostics, List.flatMap_cons]
      refine (handler_reports source entry.name entry.slot first).bind (fun _ _ => ?_)
      exact ih.bind_silent (fun _ _ => .pure _)

theorem script_reports (entry : Registry.Entry) (source : Script)
    : Reports (fun _ => handlerDiagnostics source source.handlers) (script entry source) := by
  have known (events : Std.TreeSet String)
      : Reports (fun _ => [])
          (modify (fun state : State => { state with ownEvents := events }) : Codegen PUnit) :=
    .of_unseen ((ownEvents_restored events).mono (·.toSteady)) (fun _ => rfl)
  refine (note_reports _).silent_bind (fun _ _ => (known _).silent_bind (fun _ _ => ?_))
  refine (handlers_reports source entry source.handlers).bind_silent (fun _ _ => ?_)
  exact (known {}).silent_bind (fun _ _ => .pure _)

-----------------------------------------------------------------------------------------
-- Script tables
-----------------------------------------------------------------------------------------

/-- The code of the kind that an entry of the script table gives. -/
def typeCode (object : Json) : Int64 :=
  ((object.get? "type").bind Json.asWord?).getD (-1)

/-- The number of the owner that an entry of the script table gives. -/
def ownerId (object : Json) : Int64 :=
  ((object.get? "id").bind Json.asWord?).getD 0

/-- The problem of registering a script whose owner has no name. -/
def ownerProblem? (registry : Registry) (kind : ScriptKind) (id : Int64) : Option Problem :=
  if (registry.ownerName? kind id).isNone then some (.unknownOwner kind.code id) else none

/-- The problem of an object in the script table whose code is of no kind. -/
def typeProblem? (object : Json) : Option Problem :=
  if object.isObject then some (.unknownScriptType (typeCode object) (ownerId object)) else none

/-- The records of the problems of an entry that is registered: those of its handlers. An entry that
cannot be read has none.
-/
def entryDiagnostics (entry : Registry.Entry) (object : Json) : List Diagnostic :=
  match sourceOf entry.name object with
  | .ok source => handlerDiagnostics source source.handlers
  | .error _ => []

/-- The records of the problems of a script table at a position. An entry that names an owner may
lack the owner's name, and has the problems of its handlers; any other object has a code of no kind.
-/
def tableDiagnostics (location : Option Location) : Registry → List Json → List Diagnostic
  | _, [] => []
  | registry, object :: rest =>
      match ownerOf? object with
      | some (kind, id) =>
          ((ownerProblem? registry kind id).map (·.diagnostic location)).toList
            ++ entryDiagnostics (registry.register kind id).1 object
            ++ tableDiagnostics location (registry.register kind id).2 rest
      | none =>
          ((typeProblem? object).map (·.diagnostic location)).toList
            ++ tableDiagnostics location registry rest

theorem register_reports (registry : Registry) (kind : ScriptKind) (id : Int64)
    : Reports (fun location =>
        ((ownerProblem? registry kind id).map (·.diagnostic location)).toList)
        (register registry kind id) := by
  unfold register ownerProblem?
  split
  · exact (meet_reports _).bind_silent (fun _ _ => .pure _)
  · exact .pure _

theorem readScript_reports (name : String) (data : Json)
    : Reports (fun _ => []) (readScript name data) := by
  refine (ofExcept_reports _).silent_bind (fun source _ => ?_)
  split
  · exact (note_reports _).silent_bind (fun _ _ => .pure source)
  · exact .pure source

/-- An object that names no owner reports its code. -/
theorem scriptEntry_reports_of_unowned {registry : Registry} {object : Json}
    (isObject : object.isObject = true) (unowned : ownerOf? object = none)
    : Reports (fun location => ((typeProblem? object).map (·.diagnostic location)).toList)
        (scriptEntry registry object) := by
  simp only [ownerOf?, isObject, if_true, Option.map_eq_none_iff] at unowned
  simp only [scriptEntry, unowned, typeProblem?, isObject, if_true]
  exact (meet_reports _).bind_silent (fun _ _ => .pure _)

/-- An object that names an owner is registered, and reports the problems of its handlers. -/
theorem scriptEntry_reports_of_owned {registry : Registry} {object : Json} {kind : ScriptKind}
    {id : Int64} (isObject : object.isObject = true) (owned : ownerOf? object = some (kind, id))
    : Reports (fun location =>
        ((ownerProblem? registry kind id).map (·.diagnostic location)).toList
          ++ entryDiagnostics (registry.register kind id).1 object)
        (scriptEntry registry object) := by
  simp only [ownerOf?, isObject, if_true, Option.map_eq_some_iff, Prod.mk.injEq] at owned
  obtain ⟨_, known, rfl, rfl⟩ := owned
  simp only [scriptEntry, known]
  refine (register_reports registry _ _).bind (fun result gives => ?_)
  obtain ⟨before, after, run⟩ := gives
  obtain ⟨rfl, -⟩ := register_eq_ok run
  generalize (registry.register _ _).1 = entry
  generalize (registry.register _ _).2 = next
  have compiled {source : Script} (found : sourceOf entry.name object = .ok source)
      : Reports (fun _ => entryDiagnostics entry object)
          (script entry source >>= fun text => pure (text, next)) := by
    simp only [entryDiagnostics, found]
    exact (script_reports entry source).bind_silent (fun _ _ => .pure _)
  unfold sourceOf at compiled
  cases data : object.get? "data" with
  | none =>
      simp only [data] at compiled ⊢
      refine (Enters.pure _).silent_bind (fun source gives => ?_)
      obtain ⟨_, _, given⟩ := gives
      obtain ⟨rfl, -⟩ := pure_eq_ok.mp given
      exact compiled rfl
  | some content =>
      simp only [data] at compiled ⊢
      refine (readScript_reports entry.name content).silent_bind (fun source gives => ?_)
      obtain ⟨_, _, read⟩ := gives
      exact compiled (readScript_eq_ok read).1

/-- A script table reports the problems of its entries in order, by induction over the table. -/
theorem scriptEntries_reports (registry : Registry) (index : Nat) (table : List Json)
    : Reports (fun location => tableDiagnostics location registry table)
        (scriptEntries registry index table) := by
  induction table generalizing registry index with
  | nil => exact .pure ""
  | cons first rest ih =>
      simp only [scriptEntries, tableDiagnostics]
      cases isObject : first.isObject with
      | false =>
          have unowned : ownerOf? first = none := by simp [ownerOf?, isObject]
          simp only [unowned, typeProblem?, isObject]
          exact (note_reports _).silent_bind (fun _ _ => ih registry (index + 1))
      | true =>
          cases owner : ownerOf? first with
          | none =>
              refine (scriptEntry_reports_of_unowned isObject owner).bind (fun result gives => ?_)
              obtain ⟨before, after, run⟩ := gives
              obtain ⟨-, same, -⟩ := scriptEntry_of_unowned isObject owner run
              rw [same]
              exact (ih registry (index + 1)).bind_silent (fun _ _ => .pure _)
          | some owner' =>
              obtain ⟨kind, id⟩ := owner'
              refine (scriptEntry_reports_of_owned isObject owner).bind (fun result gives => ?_)
              obtain ⟨before, after, run⟩ := gives
              obtain ⟨same, -⟩ := scriptEntry_of_owned isObject owner run
              rw [same]
              exact (ih _ (index + 1)).bind_silent (fun _ _ => .pure _)

end Codegen

namespace Game

open Codegen

/-- The records of the problems of an export that is compiled outside of every command. -/
def diagnostics (game : Json) : List Diagnostic :=
  tableDiagnostics none (.ofJson game) (scriptTable game)

theorem scripts_reports (game : Json)
    : Reports (fun location => tableDiagnostics location (.ofJson game) (scriptTable game))
        (scripts game) := by
  have missing : Reports (fun _ => []) (note .scriptTableMissing >>= fun _ => pure "") :=
    (note_reports _).silent_bind (fun _ _ => .pure "")
  unfold scripts scriptTable
  -- Only an array is a table.
  cases game.get? "scripts" with
  | none => exact missing
  | some table =>
      cases table with
      | arr entries => exact scriptEntries_reports _ 0 entries
      | _ => exact missing

/-- A block that is compiled reports the problems on its tour, in the order of the tour and each for
the command that it stands in. The tour may be followed to any depth that exceeds the size of the
table of blocks. An export that is compiled outside of every command reports the problems of its
script table; one that fails has reported a part of them from the start.
-/
theorem diagnostics_follow_tours
    : (∀ (source : Script) (scope : Scope) (index : Nat) (before after : State) (text : String),
        block source scope index before = .ok text after
        → ∀ depth > source.blocks.length,
            after.diagnostics
            = before.diagnostics
              ++ (source.tour depth index).filterMap (Occurrence.diagnostic? source))
      ∧ ∀ (game : Json) (before : State),
          before.cursor = none
          → (∀ text after,
              scripts game before = .ok text after
              → after.diagnostics = before.diagnostics ++ diagnostics game)
            ∧ ∀ defect after,
                scripts game before = .error defect after
                → ∃ met, met <+: diagnostics game
                  ∧ after.diagnostics = before.diagnostics ++ met := by
  refine ⟨?_, ?_⟩
  · intro source scope index before after text run depth deep
    rw [(block_reports source deep scope index).complete run, foldl_append_singleton]
    rfl
  · intro game before outside
    have reports := scripts_reports game
    refine ⟨?_, ?_⟩
    · intro text after run
      rw [reports.complete run, foldl_append_singleton, outside]
      rfl
    · intro defect after run
      obtain ⟨met, part, reported⟩ := reports.stopped run
      rw [outside] at part
      rw [foldl_append_singleton] at reported
      exact ⟨met, part, reported⟩

/-- An export with an entry of no kind and a script without an owner. Its handler reaches a block
twice, before and after a condition that holds an unknown expression.
-/
def troubled : Json :=
  .obj [
    ("scripts", .arr [
      .obj [("type", .int 7), ("id", .int 4)],
      .obj [("type", .int 1), ("id", .int 0),
        ("data", .obj [
          ("enter", .arr [.str "block", .int 0]),
          ("__blocks", .arr [
            .arr [.arr [.str "if", .arr [.str "eq", .str "x", .int 1], .arr [.str "block", .int 1],
              .arr [.str "elseif", .arr [.str "eq", .arr [.str "odd"], .int 2],
                .arr [.str "block", .int 1]]]],
            .arr [.arr [.str "leap"], .arr [.str "#", .int 0]]]),
          ("__comments", .arr [.str "[PTL] fast"])])]])]

/-- The condition after a body is reported for the command around it, and the block that is reached
twice reports its problems twice.
-/
theorem diagnostics_of_troubled
    : ∃ text after,
        scripts troubled {} = .ok text after
        ∧ after.diagnostics.map (fun met => (met.message, met.location))
          = [("unknown script type 7 for script 4", none),
            ("unknown script, type 1, id 0", none),
            ("unknown command code: leap", some ⟨"__UNKNOWN_SCRIPT_1_0", 1, 0⟩),
            ("malformed setting directive: [PTL] fast", some ⟨"__UNKNOWN_SCRIPT_1_0", 1, 1⟩),
            ("unknown expression code: odd", some ⟨"__UNKNOWN_SCRIPT_1_0", 0, 0⟩),
            ("unknown command code: leap", some ⟨"__UNKNOWN_SCRIPT_1_0", 1, 0⟩),
            ("malformed setting directive: [PTL] fast", some ⟨"__UNKNOWN_SCRIPT_1_0", 1, 1⟩)] := by
  obtain ⟨text, after, run⟩ : ∃ text after, scripts troubled {} = .ok text after :=
    exists_ok_of_succeeds (by decide +kernel)
  refine ⟨text, after, run, ?_⟩
  rw [(diagnostics_follow_tours.2 troubled {} rfl).1 text after run]
  decide +kernel

end Game

end TileLua
