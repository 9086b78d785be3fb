import TileLua.Proofs.Codegen.Surroundings
import TileLua.Proofs.Game.AccessByName

/-! Access to variables by name reaches the variables of compiled code, unless they are captured.
What is reached by name is compared with what the text of a variable stands for at a place of
compiled code. The two are the same unless a function around that place binds the name, or a
variable takes the place of the table of globals.
-/

namespace TileLua.Game

open Codegen (State Reachable Surrounds)

section

variable {state : State}

-----------------------------------------------------------------------------------------
-- What compiled code reaches
-----------------------------------------------------------------------------------------

/-- What names mean inside functions that bind some of them. -/
def placeScope (state : State) (bound : List String) : Lua.Scope :=
  { fileScope (declarations state) with bound }

/-- The text of a variable stands for what a function binds, for a local or for a global; one that
is no identifier stands for a field of the globals.
-/
theorem cellOf_luaText {bound : List String} (surrounds : Surrounds bound) (name : String)
    : (placeScope state bound).cellOf? (Variable.luaText name)
      = some
          (if Variable.luaText name ∈ bound then .bound (Variable.luaText name)
          else if Variable.shifted name ∈ localVariables state then .ofLocal (Variable.shifted name)
          else if Lua.isIdentifier (Variable.luaText name) then .ofGlobal (Variable.shifted name)
          else (fileScope (declarations state)).field "_G" (Variable.shifted name)) := by
  cases identifier : Lua.isIdentifier (Variable.shifted name) with
  | true =>
      rw [Variable.luaText_of_identifier identifier, Lua.Scope.cellOf_of_identifier _ identifier]
      simp only [Lua.Scope.cell, placeScope, fileScope, declaredLocals_declarations, identifier,
        ↓reduceIte]
  | false =>
      have other : Lua.isIdentifier (Variable.luaText name) = false := by
        rw [Variable.isIdentifier_luaText, identifier]
      have free : Variable.luaText name ∉ bound := by
        intro member
        rcases (surrounds.luaText_mem_iff name).mp member with rfl | ⟨rfl, -⟩
        all_goals exact absurd other (by decide)
      have undeclared : Variable.shifted name ∉ localVariables state := by
        intro member
        rw [isIdentifier_of_mem_localVariables member] at identifier
        cases identifier
      have index
          : Variable.luaText name = "_G" ++ "[" ++ Lua.quote (Variable.shifted name) ++ "]" :=
        Variable.luaText_of_not_identifier identifier
      have outside : (placeScope state bound).field "_G" (Variable.shifted name)
          = (fileScope (declarations state)).field "_G" (Variable.shifted name) :=
        (fileScope (declarations state)).field_of_not_bound List.not_mem_nil
          surrounds.globals_not_mem _
      simp only [free, undeclared, other, Bool.false_eq_true, ↓reduceIte]
      rw [index, Lua.Scope.cellOf_index _ (by decide), outside]

/-- Compiled code reaches what is reached by name exactly if no function around it binds the
variable, and the variable is no plain global while another one takes the place of the globals.
-/
theorem cellOf_luaText_eq_cell_iff {bound : List String} (surrounds : Surrounds bound)
    (reachable : Reachable state) (access : Access) (name : String)
    : (placeScope state bound).cellOf? (Variable.luaText name)
        = access.cell? (fileScope (declarations state)) (accessors state) name
      ↔ Variable.luaText name ∉ bound
        ∧ (Lua.isIdentifier (Variable.luaText name) = true
          → Variable.luaText name ∈ localVariables state ∨ "_G" ∉ state.uses) := by
  rw [cellOf_luaText surrounds, cell_accessors reachable, Option.some.injEq]
  by_cases captured : Variable.luaText name ∈ bound
  · simp only [captured, ↓reduceIte, not_true_eq_false, false_and, iff_false]
    split
    · simp
    · exact (Lua.Scope.field_apart _ _ _ _).1.symm
  · simp only [captured, ↓reduceIte, not_false_eq_true, true_and]
    cases identifier : Lua.isIdentifier (Variable.luaText name) with
    | true =>
        rw [Variable.isIdentifier_luaText] at identifier
        rw [Variable.luaText_of_identifier identifier]
        by_cases declared : Variable.shifted name ∈ localVariables state
        · simp [declared]
        · simp only [declared, ↓reduceIte, false_or, true_implies]
          rw [eq_comm, field_globals]
    | false => simp

/-- Compiled code reaches a local for the keys of the tables, unless a function around it binds the
local.
-/
theorem local_iff_not_bound {bound : List String} (surrounds : Surrounds bound) (name : String)
    : (Variable.shifted name ∈ localVariables state
        ↔ (placeScope state bound).cellOf? (Variable.luaText name)
          = some (.ofLocal (Variable.shifted name)))
      ↔ (Variable.luaText name ∈ bound → Variable.shifted name ∉ localVariables state) := by
  rw [cellOf_luaText surrounds, Option.some.injEq]
  by_cases captured : Variable.luaText name ∈ bound
  · simp [captured]
  · by_cases declared : Variable.shifted name ∈ localVariables state
    · simp [captured, declared]
    · simp only [captured, declared, ↓reduceIte, false_implies, iff_true, false_iff]
      split
      · simp
      · exact (Lua.Scope.field_apart _ _ _ _).2

-----------------------------------------------------------------------------------------
-- The comparison
-----------------------------------------------------------------------------------------

/-- Access to the variables of a state by name, compared with compiled code. -/
structure Accessed (state : State) : Prop where
  /-- The plain variables are ranked, each once. -/
  ranked_once : (variablesByUse state).Nodup
  ranked_iff (text : String)
    : text ∈ variablesByUse state
      ↔ ∃ name ∈ state.uses, Variable.luaText name = text ∧ Lua.isIdentifier text = true
  ranked_by_use : (variablesByUse state).Pairwise (RanksAbove state)
  /-- The first of them are declared as locals, and these are the keys of both tables. -/
  declared : declaredLocals (declarations state) = (variablesByUse state).take 160
  keys (access : Access)
    : tableKeys access.table (accessors state) = some (declaredLocals (declarations state))
  /-- A variable has the same text wherever it is compiled. -/
  compiled (name : String) (known : name ∈ state.uses) (before : State)
    : Codegen.useVariable name before = .ok (Variable.luaText name) (before.countUse name)
      ∧ Codegen.readVariable name before = .ok (Variable.luaText name) (before.countUse name)
  /-- The functions that access variables by name look for the key that this text is made of. -/
  shifted (access : Access)
    : ∃ function,
        access.read? (accessors state) = some function
        ∧ function.table = access.table
        ∧ ∀ name,
            Variable.luaText name
            = if Lua.isIdentifier (function.key name) then function.key name
              else "_G[" ++ Lua.quote (function.key name) ++ "]"
  /-- They reach the local with the key, and otherwise a field of the globals. -/
  reached (access : Access) (function : ByName)
    (read : access.read? (accessors state) = some function) (name : String)
    : access.cell? (fileScope (declarations state)) (accessors state) name
      = some
          (if function.key name ∈ declaredLocals (declarations state) then
            .ofLocal (function.key name)
          else (fileScope (declarations state)).field "_G" (function.key name))
  /-- Such a field is the global of that name unless a variable is called as the table is. -/
  globals (key : String)
    : (fileScope (declarations state)).field "_G" key = .ofGlobal key ↔ "_G" ∉ state.uses
  /-- The table has the key exactly if compiled code reaches a local, but for the names that a
  function around that code binds.
  -/
  local_iff {bound : List String} (surrounds : Surrounds bound) (access : Access)
    (function : ByName) (read : access.read? (accessors state) = some function) (name : String)
    : (function.key name ∈ declaredLocals (declarations state)
        ↔ (placeScope state bound).cellOf? (Variable.luaText name)
          = some (.ofLocal (function.key name)))
      ↔ (name = "event" ∨ name = "evname" ∧ "evname" ∈ bound
        → name ∉ declaredLocals (declarations state))
  /-- Compiled code reaches what is reached by name, but for these names and for the plain globals
  of a game that has a variable called as the table of globals is.
  -/
  agrees_iff {bound : List String} (surrounds : Surrounds bound) (access : Access) (name : String)
    : (placeScope state bound).cellOf? (Variable.luaText name)
        = access.cell? (fileScope (declarations state)) (accessors state) name
      ↔ ¬ (name = "event" ∨ name = "evname" ∧ "evname" ∈ bound)
        ∧ (Lua.isIdentifier (Variable.luaText name) = true
          → Variable.luaText name ∈ declaredLocals (declarations state) ∨ "_G" ∉ state.uses)
  /-- All variables are set back, each once. -/
  reset
    : ∃ targets,
        resetTargets (accessors state) = some targets
        ∧ targets.Nodup
        ∧ ∀ text, text ∈ targets ↔ ∃ name ∈ state.uses, Variable.luaText name = text

end

/-- In every state that code generation can get into, access to variables by name is compared with
compiled code: the two agree but for variables that functions around the code bind, which can be the
event and its name only, and but for plain globals where `_G` is a variable.
-/
theorem access_by_name_agrees_iff_not_captured (state : State) (reachable : Reachable state)
    : Accessed state := by
  refine
    { ranked_once := nodup_variablesByUse state
      ranked_iff := fun _ => mem_variablesByUse
      ranked_by_use := pairwise_variablesByUse state
      declared := declaredLocals_declarations state
      keys := ?keys
      compiled := ?compiled
      shifted := ?shifted
      reached := ?reached
      globals := field_globals state
      local_iff := ?local_iff
      agrees_iff := ?agrees_iff
      reset := ?reset }
  case keys =>
    intro access
    rw [declaredLocals_declarations, tableKeys_accessors reachable]
  case compiled =>
    intro name known before
    exact Codegen.readVariable_of_counted (reachable.tracked.counted name known) before
  case shifted =>
    intro access
    refine ⟨access.byName, read_accessors reachable access, rfl, fun name => ?_⟩
    rw [key_byName]
    rfl
  case reached =>
    intro access function read name
    cases read.symm.trans (read_accessors reachable access)
    rw [key_byName, declaredLocals_declarations, cell_accessors reachable]
  case local_iff =>
    intro bound surrounds access function read name
    cases read.symm.trans (read_accessors reachable access)
    rw [key_byName, declaredLocals_declarations, local_iff_not_bound surrounds,
      surrounds.luaText_mem_iff]
    refine imp_congr_right (fun captured => ?_)
    rcases captured with rfl | ⟨rfl, -⟩
    all_goals exact Iff.rfl
  case agrees_iff =>
    intro bound surrounds access name
    rw [cellOf_luaText_eq_cell_iff surrounds reachable, declaredLocals_declarations,
      surrounds.luaText_mem_iff]
  case reset =>
    refine ⟨state.luaVariables.toList, resetTargets_accessors reachable, ?_, ?_⟩
    · exact Std.TreeSet.distinct_toList.imp
        (fun apart same => apart (Std.LawfulEqCmp.compare_eq_iff_eq.mpr same))
    · intro text
      rw [Std.TreeSet.mem_toList, reachable.tracked.mem_texts_iff text]

/-- A script whose handler counts up a variable called as its parameter is, a plain variable, one
with a reserved lead and one that is no identifier.
-/
def shadowed : Script where
  name := "hub"
  blocks := [[.inc "event", .inc "score", .inc "__c", .inc "foo bar"]]

/-- The state after this handler. -/
def shadowedState : State :=
  Codegen.finish (Codegen.handler shadowed "hub" "" ⟨"load", 0⟩) {}

/-- By name the variable `event` is a local, but the handler that counts it up changes its own
parameter; the other variables are the same both ways.
-/
theorem access_by_name_misses_event
    : Reachable shadowedState
      ∧ Surrounds ["__actor", "event", "__evname"]
      ∧ declaredLocals (declarations shadowedState) = ["___c", "event", "score"]
      ∧ ∀ access : Access,
          access.cell? (fileScope (declarations shadowedState)) (accessors shadowedState) "event"
            = some (.ofLocal "event")
          ∧ (placeScope shadowedState ["__actor", "event", "__evname"]).cellOf?
              (Variable.luaText "event")
            ≠ some (.ofLocal "event")
          ∧ ∀ name ∈ ["score", "__c", "foo bar"],
              (placeScope shadowedState ["__actor", "event", "__evname"]).cellOf?
                (Variable.luaText name)
              = access.cell? (fileScope (declarations shadowedState)) (accessors shadowedState)
                  name := by
  have reachable : Reachable shadowedState :=
    .after (.start {}) (.handler shadowed "hub" "" ⟨"load", 0⟩)
  have surrounds : Surrounds ["__actor", "event", "__evname"] := by
    obtain ⟨text, after, run⟩ := Codegen.exists_ok_of_succeeds
      (show Codegen.succeeds (Codegen.handler shadowed "hub" "" ⟨"load", 0⟩) {} = true by
        decide +kernel)
    exact .of_handler run
  have ranked : variablesByUse shadowedState = ["___c", "event", "score"] := by
    decide +kernel
  have free : "_G" ∉ shadowedState.uses := by
    decide +kernel
  have accessed := access_by_name_agrees_iff_not_captured shadowedState reachable
  have declared : declaredLocals (declarations shadowedState) = ["___c", "event", "score"] := by
    rw [accessed.declared, ranked]
    rfl
  have byName (access : Access)
      : access.cell? (fileScope (declarations shadowedState)) (accessors shadowedState) "event"
        = some (.ofLocal "event") := by
    have key : access.byName.key "event" = "event" := by
      rw [key_byName]
      decide
    rw [accessed.reached access _ (read_accessors reachable access), key, declared]
    decide
  refine ⟨reachable, surrounds, declared, fun access => ⟨byName access, ?_, ?_⟩⟩
  · rw [← byName access, ne_eq, accessed.agrees_iff surrounds]
    simp
  · intro name listed
    refine (accessed.agrees_iff surrounds access name).mpr ⟨?_, fun _ => .inr free⟩
    revert name
    decide

end TileLua.Game
