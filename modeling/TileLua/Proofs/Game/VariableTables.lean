import Mathlib.Data.List.Sort
import TileLua.Game.Variables
import TileLua.Proofs.Codegen.VariableUses
import TileLua.Proofs.Text.Lines

/-! The variables of a game in the code around its scripts.
The plain variables are ranked by use and text. The declarations, the two tables of functions and
the list of what is set back are made separately, from two tables of variables, and are read back
here from the generated text.
-/

namespace TileLua.Game

open Codegen (State Reachable Tracked)
open Text (linesOf linesOf_join between? between_eq_some rowsBetween rowsBetween_eq)

-----------------------------------------------------------------------------------------
-- The order of variables
-----------------------------------------------------------------------------------------

/-- A variable comes before another one: it is used more often, or it is used as often and has the
lesser text.
-/
def RanksAbove (state : State) (first second : String) : Prop :=
  ∀ name other,
    Variable.luaText name = first
    → Variable.luaText other = second
    → state.uses.getD other 0 < state.uses.getD name 0
      ∨ state.uses.getD name 0 = state.uses.getD other 0 ∧ first < second

/-- The order in which counted names are put. -/
abbrev Ranks (first second : String × Nat) : Prop :=
  ranksBefore first second = true

theorem ranks_iff {first second : String × Nat}
    : Ranks first second ↔ second.2 < first.2 ∨ first.2 = second.2 ∧ first.1 ≤ second.1 := by
  simp [Ranks, ranksBefore]

instance : Std.Total Ranks := by
  constructor
  intro first second
  rw [ranks_iff, ranks_iff]
  rcases Nat.lt_trichotomy first.2 second.2 with less | same | more
  · exact Or.inr (Or.inl less)
  · rcases String.le_total first.1 second.1 with le | ge
    · exact Or.inl (Or.inr ⟨same, le⟩)
    · exact Or.inr (Or.inr ⟨same.symm, ge⟩)
  · exact Or.inl (Or.inl more)

instance : IsTrans (String × Nat) Ranks := by
  constructor
  intro first second third left right
  rw [ranks_iff] at left right ⊢
  rcases left with more | ⟨same, le⟩
  · rcases right with evenMore | ⟨same, -⟩
    · exact Or.inl (Nat.lt_trans evenMore more)
    · exact Or.inl (same ▸ more)
  · rcases right with more | ⟨same', le'⟩
    · exact Or.inl (same ▸ more)
    · exact Or.inr ⟨same.trans same', String.le_trans le le'⟩

/-- Ranking is insertion sort. -/
theorem foldr_insertRanked (items : List (String × Nat))
    : items.foldr insertRanked [] = items.insertionSort Ranks := by
  have insertion (item : String × Nat) (list : List (String × Nat))
      : insertRanked item list = list.orderedInsert Ranks item := by
    induction list with
    | nil => rfl
    | cons first rest ih => simp only [insertRanked, List.orderedInsert_cons, ih]
  have same : insertRanked = List.orderedInsert Ranks := by
    funext item list
    exact insertion item list
  rw [same]
  rfl

/-- The texts of counted variables with their counts, as far as they are plain. -/
def plainCounts (state : State) : List (String × Nat) :=
  (state.uses.toList.map fun (name, count) => (Variable.luaText name, count)).filter
    fun (text, _) => Lua.isIdentifier text

theorem mem_plainCounts {state : State} {text : String} {count : Nat}
    : (text, count) ∈ plainCounts state
      ↔ Lua.isIdentifier text = true
        ∧ ∃ name, Variable.luaText name = text ∧ state.uses[name]? = some count := by
  simp only [plainCounts, List.mem_filter, List.mem_map, Prod.exists, Prod.mk.injEq,
    Std.TreeMap.mem_toList_iff_getElem?_eq_some]
  constructor
  · rintro ⟨⟨name, _, found, text, rfl⟩, plain⟩
    exact ⟨plain, name, text, found⟩
  · rintro ⟨plain, name, text, found⟩
    exact ⟨⟨name, count, found, text, rfl⟩, plain⟩

theorem nodup_plainCounts (state : State) : ((plainCounts state).map Prod.fst).Nodup := by
  have part : ((plainCounts state).map Prod.fst).Sublist
      (state.uses.keys.map Variable.luaText) := by
    rw [← Std.TreeMap.map_fst_toList_eq_keys, List.map_map]
    refine (List.filter_sublist.map Prod.fst).trans ?_
    simp [List.map_map, Function.comp_def]
  refine part.nodup ?_
  exact Std.TreeMap.nodup_keys.map (fun _ _ => Variable.luaText_injective)

theorem variablesByUse_eq (state : State)
    : variablesByUse state = ((plainCounts state).insertionSort Ranks).map Prod.fst := by
  rw [← foldr_insertRanked]
  rfl

theorem nodup_variablesByUse (state : State) : (variablesByUse state).Nodup := by
  rw [variablesByUse_eq]
  exact ((List.perm_insertionSort Ranks _).map Prod.fst).nodup_iff.mpr (nodup_plainCounts state)

theorem mem_variablesByUse {state : State} {text : String}
    : text ∈ variablesByUse state
      ↔ ∃ name ∈ state.uses, Variable.luaText name = text ∧ Lua.isIdentifier text = true := by
  rw [variablesByUse_eq, ((List.perm_insertionSort Ranks _).map Prod.fst).mem_iff, List.mem_map]
  constructor
  · rintro ⟨⟨_, count⟩, member, rfl⟩
    obtain ⟨plain, name, text, found⟩ := mem_plainCounts.mp member
    exact ⟨name, Std.TreeMap.mem_iff_isSome_getElem?.mpr (by simp [found]), text, plain⟩
  · rintro ⟨name, known, text, plain⟩
    obtain ⟨count, found⟩ := Option.isSome_iff_exists.mp
      (Std.TreeMap.mem_iff_isSome_getElem?.mp known)
    exact ⟨(_, count), mem_plainCounts.mpr ⟨plain, name, text, found⟩, rfl⟩

/-- The variables are in the order of their ranks. -/
theorem pairwise_variablesByUse (state : State)
    : (variablesByUse state).Pairwise (RanksAbove state) := by
  rw [variablesByUse_eq, List.pairwise_map]
  have ranked := List.pairwise_insertionSort Ranks (plainCounts state)
  have distinct : ((plainCounts state).insertionSort Ranks).Pairwise (fun a b => a.1 ≠ b.1) := by
    have nodup := nodup_variablesByUse state
    rw [variablesByUse_eq, List.Nodup, List.pairwise_map] at nodup
    exact nodup
  have count_of_mem {name : String} {count : Nat}
      (member : (Variable.luaText name, count) ∈ (plainCounts state).insertionSort Ranks)
      : state.uses.getD name 0 = count := by
    obtain ⟨-, known, text, found⟩ := mem_plainCounts.mp ((List.mem_insertionSort Ranks).mp member)
    rw [← Variable.luaText_injective text, Std.TreeMap.getD_eq_getD_getElem?, found]
    rfl
  refine (ranked.and distinct).imp_of_mem ?_
  rintro ⟨_, count⟩ ⟨_, count'⟩ first second ⟨ranks, apart⟩ name other rfl rfl
  rw [count_of_mem first, count_of_mem second]
  rcases ranks_iff.mp ranks with more | ⟨same, le⟩
  · exact Or.inl more
  · exact Or.inr ⟨same, String.not_le.mp (fun ge => apart (String.le_antisymm le ge))⟩

-----------------------------------------------------------------------------------------
-- Reading the declarations and the accessors
-----------------------------------------------------------------------------------------

/-- The variables that code declares as locals. -/
def declaredLocals (code : String) : List String :=
  (linesOf code).filterMap (between? "local " " = 0")

/-- The globals that code assigns. -/
def assignedGlobals (code : String) : List String :=
  (linesOf code).filterMap fun line => (between? "" " = 0" line).filter Lua.isIdentifier

/-- The function that sets a local. -/
def setterText (name : String) : String :=
  "function(__" ++ name ++ ") " ++ name ++ " = __" ++ name ++ " end"

/-- The function that gets a local. -/
def getterText (name : String) : String :=
  "function() return " ++ name ++ " end"

/-- What can be done with a variable by its name. -/
inductive Access
  | set
  | get
  deriving DecidableEq, Inhabited, Repr

namespace Access

/-- The table with a function for each local. -/
def table : Access → String
  | set => "__LOCVARSET"
  | get => "__LOCVARGET"

/-- The function for a local. -/
def function : Access → String → String
  | set => setterText
  | get => getterText

end Access

/-- The key of an entry of a table of functions, and the text of the function. -/
def entryOf? (row : String) : Option (String × String) := do
  let literal ← between? "  [" "," row
  let (key, rest) ← Lua.readQuoted literal.toList
  let function ← between? "] = " "" (String.ofList rest)
  return (String.ofList key, function)

/-- The entries of a table of functions in code, if it has nothing else. -/
def tableEntries (table code : String) : Option (List (String × String)) :=
  (rowsBetween ("local " ++ table ++ " = \x7b") "nil\x7d" (linesOf code)).mapM entryOf?

/-- The keys of a table of functions in code. -/
def tableKeys (table code : String) : Option (List String) :=
  (tableEntries table code).map fun entries => entries.map Prod.fst

/-- What code sets back to zero, if it does nothing else there. -/
def resetTargets (code : String) : Option (List String) :=
  (rowsBetween "function __pulp.resetvars()" "end" (linesOf code)).mapM (between? "  " " = 0")

/-- The lines of the declarations. -/
def declarationLines (state : State) : List String :=
  (localVariables state).map (fun name => "local " ++ name ++ " = 0")
    ++ ((variablesByUse state).drop maxLocals).map (fun name => name ++ " = 0")

theorem declarations_eq (state : State)
    : declarations state = String.join ((declarationLines state).map fun line => line ++ "\n") := by
  simp only [declarations, declarationLines, localVariables, List.map_append, List.map_map,
    String.join_append, Function.comp_def, String.append_assoc]
  rfl

/-- An entry of a table of functions. -/
def entryText (function : String → String) (name : String) : String :=
  "  [" ++ Lua.quote name ++ "] = " ++ function name ++ ","

theorem entryOf_entryText (function : String → String) (name : String)
    : entryOf? (entryText function name) = some (name, function name) := by
  have literal : between? "  [" "," (entryText function name)
      = some (Lua.quote name ++ ("] = " ++ function name)) := by
    rw [between_eq_some]
    simp only [entryText, String.append_assoc]
  have behind : between? "] = " "" ("] = " ++ function name) = some (function name) := by
    rw [between_eq_some, String.append_empty]
  have key := Lua.readQuoted_quote name ("] = " ++ function name).toList
  rw [← String.toList_append] at key
  simp only [entryOf?, literal, key, behind, Option.bind_eq_bind, Option.bind_some,
    String.ofList_toList, pure]

/-- The lines of a table of functions. -/
def tableLines (table : String) (function : String → String) (locals : List String)
    : List String :=
  ("local " ++ table ++ " = \x7b") :: (locals.map (entryText function) ++ ["nil\x7d"])

/-- The lines of the functions that access a variable by name. -/
def byNameLines : List String :=
  ["function __pulp.setvariable(varname, value)",
    "  if varname:sub(1, 2) == \"__\" then varname = \"_\" .. varname end",
    "  local __varsetter = __LOCVARSET[varname]",
    "  if __varsetter then __varsetter(value) else _G[varname] = value end",
    "end",
    "function __pulp.getvariable(varname)",
    "  if varname:sub(1, 2) == \"__\" then varname = \"_\" .. varname end",
    "  local __vargetter = __LOCVARGET[varname]",
    "  if __vargetter then return __vargetter() else return _G[varname] end",
    "end"]

/-- The lines of the function that sets all variables back. -/
def resetLines (texts : List String) : List String :=
  "function __pulp.resetvars()" :: (texts.map (fun text => "  " ++ text ++ " = 0") ++ ["end"])

/-- The lines of the accessors. -/
def accessorLines (locals texts : List String) : List String :=
  tableLines "__LOCVARSET" setterText locals ++ tableLines "__LOCVARGET" getterText locals
    ++ byNameLines ++ resetLines texts

theorem join_tableLines (table : String) (function : String → String) (locals : List String)
    : String.join ((tableLines table function locals).map fun line => line ++ "\n")
      = "local " ++ table ++ " = \x7b\n"
          ++ String.join (locals.map fun name => entryText function name ++ "\n")
          ++ "nil\x7d\n" := by
  have header : " = \x7b\n" = " = \x7b" ++ "\n" := by rfl
  have footer : "nil\x7d\n" = "nil\x7d" ++ "\n" := by rfl
  simp only [tableLines, List.map_cons, List.map_append, List.map_map, List.map_nil,
    Function.comp_def, String.join_cons, String.join_append, String.join_nil, String.append_empty,
    String.append_assoc, header, footer]

theorem setterTable_eq (locals : List String)
    : setterTable locals
      = String.join
          ((tableLines "__LOCVARSET" setterText locals).map fun line => line ++ "\n") := by
  have header : "local __LOCVARSET = \x7b\n" = "local " ++ "__LOCVARSET" ++ " = \x7b\n" := by rfl
  have lead : "] = function(__" = "] = " ++ "function(__" := by rfl
  have trail : " end,\n" = " end" ++ "," ++ "\n" := by rfl
  rewrite [join_tableLines]
  unfold setterTable entryText setterText
  rewrite [header]
  simp only [lead, trail, String.append_assoc]

theorem getterTable_eq (locals : List String)
    : getterTable locals
      = String.join
          ((tableLines "__LOCVARGET" getterText locals).map fun line => line ++ "\n") := by
  have header : "local __LOCVARGET = \x7b\n" = "local " ++ "__LOCVARGET" ++ " = \x7b\n" := by rfl
  have lead : "] = function() return " = "] = " ++ "function() return " := by rfl
  have trail : " end,\n" = " end" ++ "," ++ "\n" := by rfl
  rewrite [join_tableLines]
  unfold getterTable entryText getterText
  rewrite [header]
  simp only [lead, trail, String.append_assoc]

theorem resetFunction_eq (texts : List String)
    : resetFunction texts = String.join ((resetLines texts).map fun line => line ++ "\n") := by
  have header : "function __pulp.resetvars()\n" = "function __pulp.resetvars()" ++ "\n" := by rfl
  have trail : " = 0\n" = " = 0" ++ "\n" := by rfl
  have footer : "end\n" = "end" ++ "\n" := by rfl
  unfold resetFunction
  rw [header, footer]
  simp only [trail]
  simp only [resetLines, List.map_cons, List.map_append, List.map_map, List.map_nil,
    Function.comp_def, String.join_cons, String.join_append, String.join_nil, String.append_empty,
    String.append_assoc]

theorem accessors_eq (state : State)
    : accessors state
      = String.join
          ((accessorLines (localVariables state) state.luaVariables.toList).map
            fun line => line ++ "\n") := by
  have functions : setterFunction ++ getterFunction
      = String.join (byNameLines.map fun line => line ++ "\n") := by
    decide +kernel
  simp only [accessors, setterTable_eq, getterTable_eq, resetFunction_eq, accessorLines,
    List.map_append, String.join_append, ← functions, String.append_assoc]

theorem mapM_map_eq_some {α : Type} {write : String → String} {read : String → Option α}
    {result : String → α} {items : List String}
    (readBack : ∀ item ∈ items, read (write item) = some (result item))
    : (items.map write).mapM read = some (items.map result) := by
  induction items with
  | nil => rfl
  | cons first rest ih =>
      have head := readBack first List.mem_cons_self
      have tail := ih (fun item member => readBack item (List.mem_cons_of_mem first member))
      simp [head, tail]

theorem isIdentifier_of_mem_variablesByUse {state : State} {name : String}
    (member : name ∈ variablesByUse state)
    : Lua.isIdentifier name = true := by
  obtain ⟨_, -, -, plain⟩ := mem_variablesByUse.mp member
  exact plain

theorem isIdentifier_of_mem_localVariables {state : State} {name : String}
    (member : name ∈ localVariables state)
    : Lua.isIdentifier name = true :=
  isIdentifier_of_mem_variablesByUse (List.mem_of_mem_take member)

theorem single_declarationLines (state : State)
    : ∀ line ∈ declarationLines state, '\n' ∉ line.toList := by
  intro line member
  rcases List.mem_append.mp member with first | later
  · obtain ⟨name, listed, rfl⟩ := List.mem_map.mp first
    have plain := Lua.lineFeed_not_mem_identifier (isIdentifier_of_mem_localVariables listed)
    simp [String.toList_append, plain]
  · obtain ⟨name, listed, rfl⟩ := List.mem_map.mp later
    have plain := Lua.lineFeed_not_mem_identifier
      (isIdentifier_of_mem_variablesByUse (List.mem_of_mem_drop listed))
    simp [String.toList_append, plain]

/-- The assignment of a name is not the declaration of a local: a name has no blank. -/
theorem between_local_eq_none {name : String} (identifier : Lua.isIdentifier name = true)
    : between? "local " " = 0" (name ++ " = 0") = none := by
  rw [Option.eq_none_iff_forall_ne_some]
  intro middle found
  have whole := between_eq_some.mp found
  have same : name = "local " ++ middle := by
    have letters := congrArg String.toList whole
    rw [String.toList_append, String.toList_append] at letters
    exact String.toList_inj.mp (List.append_cancel_right letters)
  have letter : Lua.isNameChar ' ' = true :=
    Lua.isNameChar_of_mem identifier (by simp [same, String.toList_append])
  revert letter
  decide

/-- The lines of the declarations declare as locals the variables that are meant to be. -/
theorem locals_declarationLines (state : State)
    : (declarationLines state).filterMap (between? "local " " = 0") = localVariables state := by
  have declared (name : String)
      : between? "local " " = 0" ("local " ++ name ++ " = 0") = some name :=
    between_eq_some.mpr rfl
  have others : ((variablesByUse state).drop maxLocals).filterMap
      (between? "local " " = 0" ∘ fun name => name ++ " = 0") = [] := by
    refine List.filterMap_eq_nil_iff.mpr (fun name listed => ?_)
    exact between_local_eq_none (isIdentifier_of_mem_variablesByUse (List.mem_of_mem_drop listed))
  rw [declarationLines, List.filterMap_append, List.filterMap_map, List.filterMap_map, others,
    List.append_nil]
  simp [declared]

/-- The lines of the declarations assign the other variables as globals: a declaration is no name,
since it has a blank.
-/
theorem globals_declarationLines (state : State)
    : (declarationLines state).filterMap
          (fun line => (between? "" " = 0" line).filter Lua.isIdentifier)
      = (variablesByUse state).drop maxLocals := by
  have read (text : String) : between? "" " = 0" (text ++ " = 0") = some text :=
    between_eq_some.mpr (by rw [String.empty_append])
  have declaration (name : String) : Lua.isIdentifier ("local " ++ name) = false :=
    Lua.isIdentifier_eq_false (c := ' ') (by simp [String.toList_append]) (by decide)
  have locals : (localVariables state).filterMap
      ((fun line => (between? "" " = 0" line).filter Lua.isIdentifier)
        ∘ fun name => "local " ++ name ++ " = 0") = [] := by
    refine List.filterMap_eq_nil_iff.mpr (fun name _ => ?_)
    simp only [Function.comp_apply, read, Option.filter_some, declaration]
    rfl
  have others : ∀ name ∈ (variablesByUse state).drop maxLocals,
      ((fun line => (between? "" " = 0" line).filter Lua.isIdentifier)
        ∘ fun name => name ++ " = 0") name = some name := by
    intro name listed
    have plain := isIdentifier_of_mem_variablesByUse (List.mem_of_mem_drop listed)
    simp only [Function.comp_apply, read, Option.filter_some, plain, ↓reduceIte]
  rw [declarationLines, List.filterMap_append, List.filterMap_map, List.filterMap_map, locals,
    List.nil_append, List.filterMap_congr others, List.filterMap_some]

theorem assignedGlobals_declarations (state : State)
    : assignedGlobals (declarations state) = (variablesByUse state).drop maxLocals := by
  rw [assignedGlobals, declarations_eq, linesOf_join (single_declarationLines state),
    globals_declarationLines]

theorem declaredLocals_declarations (state : State)
    : declaredLocals (declarations state) = localVariables state := by
  rw [declaredLocals, declarations_eq, linesOf_join (single_declarationLines state),
    locals_declarationLines]

section

variable {locals texts : List String}

theorem indented_ne {line : String} (solid : line.toList.head? ≠ some ' ') (rest : String)
    : line ≠ "  " ++ rest := by
  intro same
  apply solid
  rw [same]
  simp [String.toList_append]

theorem not_mem_entries {line : String} (solid : line.toList.head? ≠ some ' ')
    (function : String → String)
    : line ∉ locals.map (entryText function) := by
  intro member
  obtain ⟨name, -, entry⟩ := List.mem_map.mp member
  refine indented_ne solid ("[" ++ Lua.quote name ++ "] = " ++ function name ++ ",") ?_
  rw [← entry]
  simp [← String.toList_inj, entryText, String.toList_append]

theorem single_tableLines {table : String} {function : String → String}
    (header : '\n' ∉ table.toList)
    (body : ∀ name, '\n' ∉ name.toList → '\n' ∉ (function name).toList)
    (plain : ∀ name ∈ locals, Lua.isIdentifier name = true)
    : ∀ line ∈ tableLines table function locals, '\n' ∉ line.toList := by
  intro line member
  rcases List.mem_cons.mp member with rfl | member
  · simp [String.toList_append, header]
  rcases List.mem_append.mp member with entry | footer
  · obtain ⟨name, listed, rfl⟩ := List.mem_map.mp entry
    have text := body name (Lua.lineFeed_not_mem_identifier (plain name listed))
    simp [entryText, String.toList_append, Lua.lineFeed_not_mem_quote, text]
  · cases List.mem_singleton.mp footer
    decide

/-- Every line of the accessors is one line. -/
theorem single_accessorLines (plain : ∀ name ∈ locals, Lua.isIdentifier name = true)
    (single : ∀ text ∈ texts, '\n' ∉ text.toList)
    : ∀ line ∈ accessorLines locals texts, '\n' ∉ line.toList := by
  have setter : ∀ name : String, '\n' ∉ name.toList → '\n' ∉ (setterText name).toList := by
    intro name single
    unfold setterText
    simp [String.toList_append, single]
  have getter : ∀ name : String, '\n' ∉ name.toList → '\n' ∉ (getterText name).toList := by
    intro name single
    unfold getterText
    simp [String.toList_append, single]
  have setters := @single_tableLines locals "__LOCVARSET" setterText (by decide) setter plain
  have getters := @single_tableLines locals "__LOCVARGET" getterText (by decide) getter plain
  have byName : ∀ line ∈ byNameLines, '\n' ∉ line.toList := by decide +kernel
  have resets : ∀ line ∈ resetLines texts, '\n' ∉ line.toList := by
    intro line member
    rcases List.mem_cons.mp member with rfl | member
    · decide
    rcases List.mem_append.mp member with row | footer
    · obtain ⟨text, listed, rfl⟩ := List.mem_map.mp row
      simp [String.toList_append, single text listed]
    · cases List.mem_singleton.mp footer
      decide
  intro line member
  rcases List.mem_append.mp member with member | reset
  · rcases List.mem_append.mp member with member | access
    · rcases List.mem_append.mp member with set | get
      · exact setters line set
      · exact getters line get
    · exact byName line access
  · exact resets line reset

theorem not_mem_tableLines {table line : String} {function : String → String}
    (solid : line.toList.head? ≠ some ' ') (header : line ≠ "local " ++ table ++ " = \x7b")
    (footer : line ≠ "nil\x7d")
    : line ∉ tableLines table function locals := by
  intro member
  rcases List.mem_cons.mp member with same | member
  · exact header same
  rcases List.mem_append.mp member with entry | last
  · exact not_mem_entries solid function entry
  · exact footer (List.mem_singleton.mp last)

/-- The line that opens a function is in none of the tables. -/
theorem not_mem_tables {line : String} (opens : line.toList.head? = some 'f')
    : line ∉ tableLines "__LOCVARSET" setterText locals
        ++ tableLines "__LOCVARGET" getterText locals := by
  have solid : line.toList.head? ≠ some ' ' := by simp [opens]
  have apart {other : String} (start : other.toList.head? ≠ some 'f') : line ≠ other := by
    rintro rfl
    exact start opens
  intro member
  rcases List.mem_append.mp member with set | get
  · exact not_mem_tableLines solid (apart (by decide)) (apart (by decide)) set
  · exact not_mem_tableLines solid (apart (by decide)) (apart (by decide)) get

theorem rows_setters
    : rowsBetween ("local " ++ "__LOCVARSET" ++ " = \x7b") "nil\x7d" (accessorLines locals texts)
      = locals.map (entryText setterText) := by
  have last := @not_mem_entries locals "nil\x7d" (by decide) setterText
  have rows := rowsBetween_eq
    (tableLines "__LOCVARGET" getterText locals ++ byNameLines ++ resetLines texts)
    (@List.not_mem_nil _ ("local " ++ "__LOCVARSET" ++ " = \x7b")) last
  rw [← rows]
  simp only [accessorLines, tableLines, List.cons_append, List.append_assoc, List.nil_append]

theorem rows_getters
    : rowsBetween ("local " ++ "__LOCVARGET" ++ " = \x7b") "nil\x7d" (accessorLines locals texts)
      = locals.map (entryText getterText) := by
  have first := @not_mem_tableLines locals "__LOCVARSET" ("local " ++ "__LOCVARGET" ++ " = \x7b")
    setterText (by decide) (by decide) (by decide)
  have last := @not_mem_entries locals "nil\x7d" (by decide) getterText
  have rows := rowsBetween_eq (byNameLines ++ resetLines texts) first last
  rw [← rows]
  simp only [accessorLines, tableLines, List.cons_append, List.append_assoc, List.nil_append]

theorem rows_resets
    : rowsBetween "function __pulp.resetvars()" "end" (accessorLines locals texts)
      = texts.map (fun text => "  " ++ text ++ " = 0") := by
  have byName : "function __pulp.resetvars()" ∉ byNameLines := by decide +kernel
  have first : "function __pulp.resetvars()"
      ∉ tableLines "__LOCVARSET" setterText locals ++ tableLines "__LOCVARGET" getterText locals
        ++ byNameLines :=
    fun member => (List.mem_append.mp member).elim (not_mem_tables (by decide)) byName
  have last : "end" ∉ texts.map (fun text => "  " ++ text ++ " = 0") := by
    intro member
    obtain ⟨text, -, row⟩ := List.mem_map.mp member
    refine indented_ne (by decide) (text ++ " = 0") (row.symm.trans ?_)
    rw [String.append_assoc]
  exact rowsBetween_eq [] first last

end

section

variable {state : State}

/-- The lines of the accessors in a state that code generation can get into. -/
theorem linesOf_accessors (reachable : Reachable state)
    : linesOf (accessors state)
      = accessorLines (localVariables state) state.luaVariables.toList := by
  have plain : ∀ name ∈ localVariables state, Lua.isIdentifier name = true :=
    fun _ => isIdentifier_of_mem_localVariables
  have single : ∀ text ∈ state.luaVariables.toList, '\n' ∉ text.toList := by
    intro text member
    obtain ⟨name, -, rfl⟩ :=
      (reachable.tracked.mem_texts_iff text).mp (Std.TreeSet.mem_toList.mp member)
    exact Variable.lineFeed_not_mem_luaText name
  rw [accessors_eq, linesOf_join (single_accessorLines plain single)]

theorem tableEntries_accessors (reachable : Reachable state) (access : Access)
    : tableEntries access.table (accessors state)
      = some ((localVariables state).map fun name => (name, access.function name)) := by
  have rows : rowsBetween ("local " ++ access.table ++ " = \x7b") "nil\x7d"
      (accessorLines (localVariables state) state.luaVariables.toList)
        = (localVariables state).map (entryText access.function) := by
    cases access with
    | set => exact rows_setters
    | get => exact rows_getters
  rw [tableEntries, linesOf_accessors reachable, rows]
  exact mapM_map_eq_some (fun name _ => entryOf_entryText access.function name)

theorem tableKeys_accessors (reachable : Reachable state) (access : Access)
    : tableKeys access.table (accessors state) = some (localVariables state) := by
  rw [tableKeys, tableEntries_accessors reachable access]
  simp [Function.comp_def]

theorem resetTargets_accessors (reachable : Reachable state)
    : resetTargets (accessors state) = some state.luaVariables.toList := by
  have rows : (state.luaVariables.toList.map fun text => "  " ++ text ++ " = 0").mapM
      (between? "  " " = 0") = some (state.luaVariables.toList.map id) :=
    mapM_map_eq_some (fun _ _ => between_eq_some.mpr rfl)
  rw [resetTargets, linesOf_accessors reachable, rows_resets, rows, List.map_id]

end

end TileLua.Game
