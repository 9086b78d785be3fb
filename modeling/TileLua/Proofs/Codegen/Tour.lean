import TileLua.Proofs.Codegen.StackDiscipline
import TileLua.Proofs.Codegen.StructuralDefects
import TileLua.Proofs.Directive.Settings

/-! What code generation comes across on its way through the blocks of a script, and what it enters
into its ledger on the way.
The tour of a block lists the visits of its commands in order, each with the position of its
command, and in place of a visit to a block the tour of that block. The ledger holds the problems
met and the variables used. A run that succeeds leaves the ledger that the tour gives, occurrence by
occurrence; a run that fails leaves the ledger that a part of the tour gives, from its start.
-/

namespace TileLua

-----------------------------------------------------------------------------------------
-- Tours
-----------------------------------------------------------------------------------------

/-- A visit, and the position of the command that it belongs to. -/
structure Occurrence where
  visit : Visit
  location : Option Location
  deriving DecidableEq, Inhabited, Repr

/-- The occurrences that a visit at a position stands for: the visit itself, or those of the block
that it leads to.
-/
def Visit.occurrences (blocks : Nat → List Occurrence) (location : Option Location)
    : Visit → List Occurrence
  | .block _ index => blocks index
  | visit => [{ visit, location }]

/-- The tour of a block, with other blocks nested in it to a depth below the given one. A block that
is missing has no occurrences.
-/
def Script.tour (source : Script) : (depth : Nat) → (index : Nat) → List Occurrence
  | 0, _ => []
  | depth + 1, index =>
      (source.blocks[index]?.getD []).zipIdx.flatMap fun (command, position) =>
        command.visits.flatMap
          (Visit.occurrences (source.tour depth) (some ⟨source.name, index, position⟩))

/-- The problem that a visit is: a tag that is not known, or a comment that is a malformed setting.
-/
def Visit.problem? (source : Script) : Visit → Option Problem
  | .unknownCommand tag => some (.unknownCommand tag)
  | .unknownExpr tag => some (.unknownExpression tag)
  | .comment index =>
      ((source.comment? index).filter Directive.isMalformedSetting).map fun text =>
        .malformedSetting (Text.trim text)
  | _ => none

/-- A setting is a problem exactly if it lacks a value or a key. -/
theorem Visit.problem?_of_setting {source : Script} {index : Nat} {text key : String}
    {group : SettingGroup} {value : Option String} (found : source.comment? index = some text)
    (read : Directive.parse (Text.trim text) = .setting group key value)
    : (Visit.comment index).problem? source
      = if value = none ∨ key = "" then some (.malformedSetting (Text.trim text)) else none := by
  have lacks : Directive.isMalformedSetting text = true ↔ value = none ∨ key = "" := by
    rw [Directive.isMalformedSetting_iff, read]
    constructor
    · intro malformed
      obtain ⟨_, _, _, same, lacking⟩ := malformed
      cases same
      exact lacking
    · intro lacking
      exact ⟨group, key, value, rfl, lacking⟩
  by_cases lacking : value = none ∨ key = ""
  · simp only [problem?, found, Option.filter, lacks.mpr lacking, lacking, ↓reduceIte,
      Option.map_some]
  · simp only [problem?, found, Option.filter, lacks, lacking, ↓reduceIte, Option.map_none]

/-- No other comment is a problem. -/
theorem Visit.problem?_of_plain {source : Script} {index : Nat}
    (plain : ∀ text, source.comment? index = some text
      → ∀ group key value, Directive.parse (Text.trim text) ≠ .setting group key value)
    : (Visit.comment index).problem? source = none := by
  rw [problem?, Option.map_eq_none_iff, Option.filter_eq_none_iff]
  intro text found malformed
  obtain ⟨group, key, value, read, -⟩ := (Directive.isMalformedSetting_iff text).mp malformed
  exact plain text found group key value read

namespace Codegen

-----------------------------------------------------------------------------------------
-- The ledger
-----------------------------------------------------------------------------------------

/-- The problems met and the variables used so far. -/
structure Ledger where
  diagnostics : List Diagnostic
  uses : Std.TreeMap String Nat
  luaVariables : Std.TreeSet String

def State.ledger (state : State) : Ledger :=
  { diagnostics := state.diagnostics, uses := state.uses, luaVariables := state.luaVariables }

namespace Ledger

/-- The ledger after one more problem. -/
def report (ledger : Ledger) (location : Option Location) (problem : Problem) : Ledger :=
  { ledger with diagnostics := ledger.diagnostics ++ [problem.diagnostic location] }

/-- The ledger after one more use of a name, which does not count if it is used as it is. -/
def use (ledger : Ledger) (name : String) : Ledger :=
  if Variable.isVerbatim name then ledger
  else
    { ledger with
      uses := ledger.uses.insert name (ledger.uses.getD name 0 + 1)
      luaVariables := ledger.luaVariables.insert (Variable.luaText name) }

/-- The ledger after an occurrence. -/
def enter (source : Script) (ledger : Ledger) (occurrence : Occurrence) : Ledger :=
  match occurrence.visit with
  | .read name => ledger.use name
  | .write name => ledger.use name
  | visit => ((visit.problem? source).map (ledger.report occurrence.location)).getD ledger

end Ledger

-----------------------------------------------------------------------------------------
-- Actions that make entries
-----------------------------------------------------------------------------------------

instance : Std.Refl State.Steady := ⟨State.Steady.refl⟩

instance : Trans State.Steady State.Steady State.Steady := ⟨State.Steady.trans⟩

/-- What is seen of the state is the same. -/
def State.Same {σ : Type} (view : State → σ) (before after : State) : Prop :=
  view after = view before

instance {σ : Type} (view : State → σ) : Std.Refl (State.Same view) := ⟨fun _ => rfl⟩

instance {σ : Type} (view : State → σ)
    : Trans (State.Same view) (State.Same view) (State.Same view) :=
  ⟨fun left right => Eq.trans right left⟩

/-- An action makes entries in what is seen of the state: all that are due at its position if it
succeeds, and a part of them from the start if it fails.
-/
structure Enters {σ ι α : Type} (view : State → σ) (add : σ → ι → σ)
    (due : Option Location → List ι) (action : Codegen α)
    : Prop where
  steady : Keeps State.Steady action
  complete
    : ∀ {before after : State} {value : α},
        action before = .ok value after
        → view after = (due before.cursor).foldl add (view before)
  stopped
    : ∀ {before after : State} {defect : Defect},
        action before = .error defect after
        → ∃ made, made <+: due before.cursor ∧ view after = made.foldl add (view before)

namespace Enters

variable {σ ι α β : Type} {view : State → σ} {add : σ → ι → σ} {due : Option Location → List ι}

/-- An action that leaves what is seen as it is makes no entries. -/
theorem of_unseen {action : Codegen α} (steady : Keeps State.Steady action)
    (unseen : Keeps (State.Same view) action)
    : Enters view add (fun _ => []) action where
  steady := steady
  complete := fun run => unseen.of_ok run
  stopped := fun run => ⟨[], List.nil_prefix, unseen.of_error run⟩

theorem pure (value : α) : Enters view add (fun _ => []) (Pure.pure value : Codegen α) :=
  of_unseen (.pure value) (fun _ => rfl)

theorem of_neverFails {action : Codegen α} (steady : Keeps State.Steady action)
    (never : NeverFails action)
    (complete
      : ∀ before,
          view (finish action before) = (due before.cursor).foldl add (view before))
    : Enters view add due action where
  steady := steady
  complete := by
    intro before after value run
    rw [← complete before, finish_of_ok run]
  stopped := fun run => (never _ _ _ run).elim

/-- An action that always fails at once has made a part of any entries. -/
theorem throw (defect : Defect) : Enters view add due (MonadExcept.throw defect : Codegen α) where
  steady := .throw defect
  complete := by
    intro before after value run
    cases run
  stopped := by
    intro before after failure run
    cases run
    exact ⟨[], List.nil_prefix, rfl⟩

/-- A sequence makes the entries of its parts one after the other; both parts stand at the same
position.
-/
theorem bind {first rest : Option Location → List ι} {action : Codegen α} {next : α → Codegen β}
    (left : Enters view add first action)
    (right : ∀ value, Gives action value → Enters view add rest (next value))
    : Enters view add (fun location => first location ++ rest location) (action >>= next) where
  steady := left.steady.bind_given (fun value gives => (right value gives).steady)
  complete := by
    intro before after value run
    obtain ⟨result, middle, firstRun, restRun⟩ := bind_eq_ok.mp run
    have later := (right result ⟨before, middle, firstRun⟩).complete restRun
    rw [later, (left.steady.of_ok firstRun).cursor, left.complete firstRun, List.foldl_append]
  stopped := by
    intro before after defect run
    rcases bind_eq_error run with failed | later
    · obtain ⟨made, part, entered⟩ := left.stopped failed
      exact ⟨made, part.trans (List.prefix_append _ _), entered⟩
    · obtain ⟨result, middle, firstRun, restRun⟩ := later
      obtain ⟨made, part, entered⟩ := (right result ⟨before, middle, firstRun⟩).stopped restRun
      rw [(left.steady.of_ok firstRun).cursor] at part
      refine ⟨first before.cursor ++ made, (List.prefix_append_right_inj _).mpr part, ?_⟩
      rw [entered, left.complete firstRun, List.foldl_append]

/-- An action that makes no entries may come first. -/
theorem silent_bind {action : Codegen α} {next : α → Codegen β}
    (silent : Enters view add (fun _ => []) action)
    (right : ∀ value, Gives action value → Enters view add due (next value))
    : Enters view add due (action >>= next) := by
  simpa only [List.nil_append] using silent.bind right

/-- An action that makes no entries may follow. -/
theorem bind_silent {action : Codegen α} {next : α → Codegen β} (left : Enters view add due action)
    (silent : ∀ value, Gives action value → Enters view add (fun _ => []) (next value))
    : Enters view add due (action >>= next) := by
  simpa only [List.append_nil] using left.bind silent

theorem get : Enters view add (fun _ => []) (MonadState.get : Codegen State) :=
  of_unseen .get (fun _ => rfl)

/-- Surroundings make no entries of their own; what is due inside is due at the position there. -/
theorem around {inner : Option Location → List ι} {action : Codegen α} {enter : State → State}
    {leave : State → State → State} (entries : Enters view add inner action)
    (steady : Keeps State.Steady (around enter leave action))
    (entered : ∀ state, view (enter state) = view state)
    (left : ∀ before state, view (leave before state) = view state)
    (moved : ∀ state, inner (enter state).cursor = due state.cursor)
    : Enters view add due (Codegen.around enter leave action) where
  steady := steady
  complete := by
    intro before after value run
    obtain ⟨middle, innerRun, rfl⟩ := around_eq_ok.mp run
    rw [left, entries.complete innerRun, entered, moved]
  stopped := by
    intro before after defect run
    simp only [Codegen.around] at run
    cases innerRun : action (enter before) with
    | ok value middle =>
        simp only [innerRun] at run
        cases run
    | error failure middle =>
        simp only [innerRun] at run
        cases run
        obtain ⟨made, part, view⟩ := entries.stopped innerRun
        rw [moved] at part
        exact ⟨made, part, by rw [left, view, entered]⟩

end Enters

-----------------------------------------------------------------------------------------
-- The steps that leave the ledger alone
-----------------------------------------------------------------------------------------

theorem note_sameLedger (notice : Notice) : Keeps (State.Same State.ledger) (note notice) :=
  fun _ => rfl

theorem margin_sameLedger : Keeps (State.Same State.ledger) margin :=
  Keeps.get.bind (fun _ => .pure _)

theorem foldTile_sameLedger (tree : Expr) : Keeps (State.Same State.ledger) (foldTile tree) := by
  intro before
  simp only [finish, foldTile_apply]
  cases before.tiles.named? tree <;> rfl

theorem bindLocal_sameLedger (binding : String)
    : Keeps (State.Same State.ledger) (bindLocal binding) := by
  intro before
  obtain ⟨journal, run⟩ := bindLocal_apply binding before
  rw [finish_of_ok run]
  rfl

theorem readSpecial_sameLedger (name : String)
    : Keeps (State.Same State.ledger) (readSpecial name) :=
  Keeps.sequential.readSpecial bindLocal_sameLedger name

theorem route_sameLedger (target : Route) : Keeps (State.Same State.ledger) (route target) := by
  intro before
  have run := route_apply target before
  split at run <;> rw [finish_of_ok run] <;> rfl

-----------------------------------------------------------------------------------------
-- The steps that make an entry
-----------------------------------------------------------------------------------------

/-- An action that enters what its visits lead to into the ledger of a script. -/
abbrev EntersVisits {α : Type} (source : Script) (blocks : Nat → List Occurrence)
    (visits : List Visit) (action : Codegen α)
    : Prop :=
  Enters State.ledger (Ledger.enter source)
    (fun location => visits.flatMap (Visit.occurrences blocks location)) action

theorem useVariable_enters {source : Script} {name : String} {visit : Visit}
    (used : ∀ ledger location, Ledger.enter source ledger ⟨visit, location⟩ = ledger.use name)
    : Enters State.ledger (Ledger.enter source) (fun location => [⟨visit, location⟩])
        (useVariable name) := by
  refine .of_neverFails ((useVariable_quiet name).mono (·.toSteady))
    (useVariable_neverFails name) ?_
  intro before
  simp only [List.foldl_cons, List.foldl_nil, used, Ledger.use, useVariable]
  split <;> rfl

theorem meet_enters {source : Script} {visit : Visit} {problem : Problem}
    (met : ∀ ledger location,
      Ledger.enter source ledger ⟨visit, location⟩ = ledger.report location problem)
    : Enters State.ledger (Ledger.enter source) (fun location => [⟨visit, location⟩])
        (meet problem) := by
  refine .of_neverFails ((meet_quiet problem).mono (·.toSteady)) (meet_neverFails problem) ?_
  intro before
  simp only [List.foldl_cons, List.foldl_nil, met]
  rfl

/-- A setting that lacks a value or a key is a problem. -/
theorem applySetting_of_lacking {directive key : String} {group : SettingGroup}
    {value : Option String} (lacking : value = none ∨ key = "")
    : applySetting directive group key value = meet (.malformedSetting directive) := by
  cases value with
  | none => rfl
  | some value =>
      rcases lacking with none | rfl
      · cases none
      · rfl

theorem applySetting_sameLedger {directive key : String} {group : SettingGroup}
    {value : Option String} (given : ¬ (value = none ∨ key = ""))
    : Keeps (State.Same State.ledger) (applySetting directive group key value) := by
  rw [not_or] at given
  cases value with
  | none => exact (given.1 rfl).elim
  | some value =>
      simp only [applySetting, String.isEmpty_iff, given.2, ↓reduceIte]
      exact (note_sameLedger _).bind (fun _ _ => rfl)

/-- A comment that is no setting changes nothing. -/
theorem comment_of_plain {source : Script} {index : Nat} (inline : Bool)
    (plain : ∀ text, source.comment? index = some text
      → ∀ group key value, Directive.parse (Text.trim text) ≠ .setting group key value)
    : ∃ result, comment source index inline = pure result := by
  unfold comment
  split
  · exact ⟨_, rfl⟩
  · rename_i text found
    split
    · exact ⟨_, rfl⟩
    · rename_i read
      exact (plain text found _ _ _ read).elim
    all_goals exact ⟨_, rfl⟩

/-- A comment is reported exactly if it is a malformed setting. -/
theorem comment_enters (source : Script) (index : Nat) (inline : Bool)
    : Enters State.ledger (Ledger.enter source) (fun location => [⟨.comment index, location⟩])
        (comment source index inline) := by
  have entry (before : State)
      : [⟨.comment index, before.cursor⟩].foldl (Ledger.enter source) before.ledger
        = (((Visit.comment index).problem? source).map
            (before.ledger.report before.cursor)).getD before.ledger :=
    rfl
  refine .of_neverFails ((comment_quiet source index inline).mono (·.toSteady))
    (comment_neverFails source index inline) (fun before => ?_)
  rw [entry]
  by_cases setting : ∃ text, source.comment? index = some text
      ∧ ∃ group key value, Directive.parse (Text.trim text) = .setting group key value
  · obtain ⟨text, found, group, key, value, read⟩ := setting
    have shape : comment source index inline
        = applySetting (Text.trim text) group key value >>= fun _ => pure none := by
      simp only [comment, found, read]
    rw [shape, Visit.problem?_of_setting found read]
    by_cases lacking : value = none ∨ key = ""
    · rw [if_pos lacking, applySetting_of_lacking lacking]
      rfl
    · have kept : Keeps (State.Same State.ledger)
          (applySetting (Text.trim text) group key value >>= fun _ =>
            pure (none : Option String)) :=
        (applySetting_sameLedger lacking).bind (fun _ => .pure none)
      rw [if_neg lacking]
      exact kept before
  · have plain : ∀ text, source.comment? index = some text
        → ∀ group key value, Directive.parse (Text.trim text) ≠ .setting group key value :=
      fun text found group key value read => setting ⟨text, found, group, key, value, read⟩
    obtain ⟨result, shape⟩ := comment_of_plain inline plain
    rw [shape, Visit.problem?_of_plain plain]
    rfl

/-- A call makes the entries of its event; declarations and routes are no entries. -/
theorem callSite_enters {source : Script} {blocks : Nat → List Occurrence} (write : BlockWriter)
    (tags : Annotations) (callee : Callee)
    (form : ∀ object, EntersVisits source blocks callee.visits (callForm write object callee))
    : EntersVisits source blocks (callee.visits ++ [.call]) (callSite write tags callee) := by
  unfold callSite
  refine Enters.get.silent_bind (fun state _ => ?_)
  simp only [List.flatMap_append]
  refine (form _).bind (fun form _ => ?_)
  refine .of_neverFails ?_ ?_ ?_
  · have bound (binding : String) := (bindLocal_grown binding).mono (·.toSteady)
    have routed (target : Route) := (route_quiet target).mono (·.toSteady)
    exact Keeps.sequential.callOfForm .get bound routed tags _ form
  · exact NeverFails.sequential.callOfForm .get bindLocal_neverFails route_neverFails tags _ form
  · exact Keeps.sequential.callOfForm .get bindLocal_sameLedger route_sameLedger tags _ form

-----------------------------------------------------------------------------------------
-- Commands and blocks
-----------------------------------------------------------------------------------------

theorem indented_steady {α : Type} {action : Codegen α} (steps : Nat)
    (kept : Keeps State.Steady action)
    : Keeps State.Steady (indented steps action) :=
  kept.around (fun _ _ inner => inner.indented)

theorem dispatchingOn_steady {α : Type} {action : Codegen α} (object : String)
    (kept : Keeps State.Steady action)
    : Keeps State.Steady (dispatchingOn object action) :=
  kept.around (fun _ _ inner => inner.dispatched)

theorem atLocation_steady {α : Type} {action : Codegen α} (location : Location)
    (kept : Keeps State.Steady action)
    : Keeps State.Steady (atLocation location action) :=
  kept.around (fun _ _ inner => { inner with cursor := rfl })

/-- Code generation enters what its visits lead to, as long as the blocks written inside do. -/
theorem entersLogic (source : Script) (write : BlockWriter) (blocks : Nat → List Occurrence)
    (written : ∀ scope index, EntersVisits source blocks [.block scope index] (write scope index))
    : VisitLogic source write (fun visits action => EntersVisits source blocks visits action) where
  pure := .pure
  bind := by
    intro α β first rest action _ next _ left right
    simpa only [EntersVisits, List.flatMap_append] using left.bind right
  margin := .of_unseen (margin_quiet.mono (·.toSteady)) margin_sameLedger
  indented := fun steps inner =>
    inner.around (indented_steady steps inner.steady) (fun _ => rfl) (fun _ _ => rfl)
      (fun _ => rfl)
  dispatching := fun object _ inner =>
    inner.around (dispatchingOn_steady object inner.steady) (fun _ => rfl) (fun _ _ => rfl)
      (fun _ => rfl)
  foldTile := fun tree =>
    .of_unseen ((foldTile_quiet tree).mono (·.toSteady)) (foldTile_sameLedger tree)
  read := fun name =>
    (useVariable_enters (fun _ _ => rfl)).bind_silent (fun text _ =>
      .of_unseen ((readSpecial_grown text).mono (·.toSteady)) (readSpecial_sameLedger text))
  use := fun _ => useVariable_enters (fun _ _ => rfl)
  unknownExpr := fun _ => meet_enters (fun _ _ => rfl)
  unknownCommand := fun _ => meet_enters (fun _ _ => rfl)
  comment := comment_enters source
  tellWithoutBlock := fun _ => .throw _
  block := written
  call := callSite_enters write

/-- The commands of a block make their entries at their own positions, by induction over them. -/
theorem commands_enters (source : Script) (write : BlockWriter) (blocks : Nat → List Occurrence)
    (block index : Nat) (body : List Command)
    (written : ∀ scope index, EntersVisits source blocks [.block scope index] (write scope index))
    : Enters State.ledger (Ledger.enter source)
        (fun _ => (body.zipIdx index).flatMap fun (command, position) =>
          command.visits.flatMap
            (Visit.occurrences blocks (some ⟨source.name, block, position⟩)))
        (commands source write block index body) := by
  have logic := entersLogic source write blocks written
  induction body generalizing index with
  | nil => exact .pure []
  | cons first rest ih =>
      simp only [commands, List.zipIdx_cons, List.flatMap_cons]
      have placed (tags : Annotations)
          : Enters State.ledger (Ledger.enter source)
              (fun _ => first.visits.flatMap
                (Visit.occurrences blocks (some ⟨source.name, block, index⟩)))
              (atLocation ⟨source.name, block, index⟩ (command source write tags first)) :=
        have inner := logic.command tags first
        inner.around (atLocation_steady _ inner.steady) (fun _ => rfl) (fun _ _ => rfl)
          (fun _ => rfl)
      refine (placed _).bind (fun _ _ => ?_)
      have margin : EntersVisits source blocks [] margin := logic.margin
      exact margin.silent_bind (fun _ _ => (ih (index + 1)).bind_silent (fun _ _ => .pure _))

/-- A function of its own makes no entries but those of its body. -/
theorem inFunction_enters {source : Script} {due : List Occurrence} {α : Type} {action : Codegen α}
    (inner : Enters State.ledger (Ledger.enter source) (fun _ => due) action)
    : Enters State.ledger (Ledger.enter source) (fun _ => due) (inFunction action) := by
  have steady : Keeps State.Steady (inFunction action) := by
    intro before
    rw [finish_inFunction]
    exact { inner.steady { before with frames := {} :: before.frames } with }
  have body := inner.bind_silent (fun value _ =>
    Enters.get.silent_bind (fun state _ => .pure (value, (state.frames.headD {}).toList)))
  exact body.around steady (fun _ => rfl) (fun _ _ => rfl) (fun _ => rfl)

/-- A block makes the entries of its tour, which may be given to any greater depth than the block is
written to; by induction on the depth.
-/
theorem blockWithin_enters (source : Script) {depth limit : Nat} (within : depth ≤ limit)
    (scope : Scope) (index : Nat)
    : Enters State.ledger (Ledger.enter source) (fun _ => source.tour limit index)
        (blockWithin source depth scope index) := by
  induction depth generalizing limit scope index with
  | zero => exact .throw _
  | succ depth ih =>
      cases limit with
      | zero => cases within
      | succ limit =>
          have lookup : Enters State.ledger (Ledger.enter source) (fun _ => [])
              (ofExcept (source.block index)) :=
            .of_unseen (.ofExcept _) (.ofExcept _)
          refine lookup.silent_bind (fun body gives => ?_)
          obtain ⟨before, after, run⟩ := gives
          have found := scriptBlock_eq_ok.mp (ofExcept_eq_ok.mp run).1
          have inside (scope : Scope) (inner : Nat)
              : EntersVisits source (source.tour limit) [.block scope inner]
                  (blockWithin source depth scope inner) := by
            simpa [EntersVisits, Visit.occurrences] using
              ih (Nat.le_of_succ_le_succ within) scope inner
          have lines := commands_enters source _ (source.tour limit) index 0 body inside
          simp only [Script.tour, found, Option.getD_some]
          cases scope with
          | shared =>
              simp only [map_eq_pure_bind]
              exact lines.bind_silent (fun _ _ => .pure _)
          | own =>
              have function := inFunction_enters lines
              refine function.bind_silent (fun _ _ => ?_)
              have margin : EntersVisits source (source.tour limit) [] margin :=
                .of_unseen (margin_quiet.mono (·.toSteady)) margin_sameLedger
              exact margin.bind_silent (fun _ _ => .pure _)

end Codegen

end TileLua
