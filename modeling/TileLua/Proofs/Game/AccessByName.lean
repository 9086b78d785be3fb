import TileLua.Json.Number
import TileLua.Proofs.Game.VariableTables
import TileLua.Proofs.Lua.Scoping

/-! Access to variables by name.
The functions that access a variable by its name are read back from the generated text: they give
some names another lead, look for a function in a table and otherwise go to the table of globals.
What they reach follows from the lines that they are made of.
-/

namespace TileLua

-----------------------------------------------------------------------------------------
-- Strings as bytes
-----------------------------------------------------------------------------------------

namespace Lua

/-- The bytes of a text, which is what Lua counts in a string. -/
def bytes (text : String) : List UInt8 :=
  text.toList.flatMap String.utf8EncodeChar

/-- An underscore is one byte, and no other character begins with that byte. -/
theorem utf8EncodeChar_eq_underscore (c : Char)
    : ∃ first rest,
        String.utf8EncodeChar c = first :: rest
        ∧ (first = 0x5f ↔ c = '_')
        ∧ (c = '_' → rest = []) := by
  have code : c = '_' ↔ c.val.toNat = 0x5f := by
    rw [Char.ext_iff, ← UInt32.toNat_inj]
    rfl
  have first (n : Nat) (small : n < 256) : UInt8.ofNat n = 0x5f ↔ n = 0x5f := by
    rw [← UInt8.toNat_inj, UInt8.toNat_ofNat_of_lt' small]
    rfl
  rw [code]
  unfold String.utf8EncodeChar
  dsimp only
  split
  · refine ⟨_, _, rfl, first _ (by omega), fun _ => rfl⟩
  split
  · refine ⟨_, _, rfl, ?_, by omega⟩
    rw [first _ (by omega)]
    omega
  split
  · refine ⟨_, _, rfl, ?_, by omega⟩
    rw [first _ (by omega)]
    omega
  · refine ⟨_, _, rfl, ?_, by omega⟩
    rw [first _ (by omega)]
    omega

theorem take_bytes_cons_iff (c : Char) (others : List Char) (count : Nat) (bytes : List UInt8)
    : ((c :: others).flatMap String.utf8EncodeChar).take (count + 1) = 0x5f :: bytes
      ↔ c = '_' ∧ (others.flatMap String.utf8EncodeChar).take count = bytes := by
  obtain ⟨first, rest, encoded, underscore, alone⟩ := utf8EncodeChar_eq_underscore c
  rw [List.flatMap_cons, encoded, List.cons_append, List.take_succ_cons, List.cons.injEq,
    underscore]
  refine and_congr_right (fun same => ?_)
  rw [alone same, List.nil_append]

/-- Two bytes tell whether a text begins with two underscores. -/
theorem take_bytes_eq_iff (name : String)
    : (bytes name).take 2 = bytes "__" ↔ Text.startsWith name "__" = true := by
  have lead : bytes "__" = [0x5f, 0x5f] := by decide
  have begins : Text.startsWith name "__" = ['_', '_'].isPrefixOf name.toList := rfl
  rw [lead, begins, bytes]
  cases name.toList with
  | nil => decide
  | cons c others =>
      rw [take_bytes_cons_iff]
      cases others with
      | nil => simp
      | cons d others =>
          rw [take_bytes_cons_iff]
          simp only [List.take_zero, and_true, List.isPrefixOf, Bool.and_true, Bool.and_eq_true,
            beq_iff_eq]
          exact and_congr eq_comm eq_comm

end Lua

namespace Game

open Codegen (State Reachable)
open Lua (Cell)
open Text (after? after_append between? linesOf rowsBetween rowsBetween_eq)

-----------------------------------------------------------------------------------------
-- The functions that access variables by name
-----------------------------------------------------------------------------------------

/-- What a function that is given the name of a variable does with it. -/
structure ByName where
  /-- How much of the name is compared. -/
  count : Nat
  lead : String
  /-- What is put before a name that has the lead. -/
  added : String
  /-- The local for what is found in the table. -/
  found : String
  table : String
  /-- Where a name is looked for that the table does not have. -/
  globals : String
  deriving DecidableEq, Inhabited, Repr

namespace ByName

/-- Reads the line that compares the start of the name. -/
def readShift (row : List Char) : Option (Nat × String × String) := do
  let rest ← after? "  if varname:sub(1, " row
  let count := Json.naturalOf (rest.takeWhile Char.isDigit)
  let (lead, rest) ← Lua.readQuoted (← after? ") == " (rest.dropWhile Char.isDigit))
  let (added, rest) ← Lua.readQuoted (← after? " then varname = " rest)
  if rest = " .. varname end".toList then
    return (count, String.ofList lead, String.ofList added)
  else none

/-- Reads the line that looks for a function in a table. -/
def readLookup (row : List Char) : Option (String × String) := do
  let (found, rest) ← Lua.readName (← after? "  local " row)
  let (table, rest) ← Lua.readName (← after? " = " rest)
  if rest = "[varname]".toList then return (found, table) else none

/-- The key that a name becomes. -/
def key (function : ByName) (name : String) : String :=
  if (Lua.bytes name).take function.count = Lua.bytes function.lead then function.added ++ name
  else name

end ByName

namespace Access

/-- The parameters of the function that does it by name. -/
def parameters : Access → List String
  | set => ["varname", "value"]
  | get => ["varname"]

/-- The line that opens this function. -/
def header (access : Access) : String :=
  let name := match access with
    | set => "setvariable"
    | get => "getvariable"
  "function __pulp." ++ name ++ "(" ++ ", ".intercalate access.parameters ++ ")"

/-- The line that calls what was found, up to the table of globals. -/
def useLead (found : String) : Access → String
  | set => "  if " ++ found ++ " then " ++ found ++ "(value) else "
  | get => "  if " ++ found ++ " then return " ++ found ++ "() else return "

/-- The same line from there on. -/
def useTrail : Access → String
  | set => "[varname] = value end"
  | get => "[varname] end"

/-- The function that code has for access by name. -/
def read? (access : Access) (code : String) : Option ByName :=
  match rowsBetween access.header "end" (linesOf code) with
  | [shift, lookup, use] => do
      let (count, lead, added) ← ByName.readShift shift.toList
      let (found, table) ← ByName.readLookup lookup.toList
      let globals ← between? (access.useLead found) access.useTrail use
      return { count, lead, added, found, table, globals }
  | _ => none

/-- What the function for a local sets or gets: one sets it to the value of its parameter, the other
one has no parameters.
-/
def target? (access : Access) (scope : Lua.Scope) (function : String) : Option Cell := do
  let (parameters, body) ← Lua.readFunction function.toList
  match access, parameters with
  | set, [parameter] => do
      let (name, rest) ← Lua.readName (← after? " " body)
      if rest = (" = " ++ parameter ++ " end").toList then
        return { scope with bound := [parameter] }.cell name
      else none
  | get, [] => do
      let (name, rest) ← Lua.readName (← after? " return " body)
      if rest = " end".toList then return { scope with bound := [] }.cell name else none
  | _, _ => none

/-- What access by name reaches: what the function in the table sets or gets, and otherwise a field
of the table of globals.
-/
def cell? (access : Access) (scope : Lua.Scope) (code name : String) : Option Cell := do
  let function ← access.read? code
  let entries ← tableEntries function.table code
  match entries.lookup (function.key name) with
  | some text => access.target? scope text
  | none =>
      let inside := { scope with bound := function.found :: access.parameters }
      return inside.field function.globals (function.key name)

end Access

-----------------------------------------------------------------------------------------
-- What access by name reaches
-----------------------------------------------------------------------------------------

/-- The function that the accessors have for access by name. -/
def Access.byName (access : Access) : ByName where
  count := 2
  lead := "__"
  added := "_"
  found := match access with
    | set => "__varsetter"
    | get => "__vargetter"
  table := access.table
  globals := "_G"

theorem key_byName (access : Access) (name : String)
    : access.byName.key name = Variable.shifted name := by
  unfold ByName.key Variable.shifted
  exact if_congr (Lua.take_bytes_eq_iff name) rfl rfl

/-- The lines of the function that does something by name. -/
def Access.lines (access : Access) : List String :=
  ["  if varname:sub(1, 2) == \"__\" then varname = \"_\" .. varname end",
    "  local " ++ access.byName.found ++ " = " ++ access.table ++ "[varname]",
    access.useLead access.byName.found ++ "_G" ++ access.useTrail]

theorem byNameLines_eq
    : byNameLines
      = Access.set.header :: (Access.set.lines ++ "end"
        :: Access.get.header :: (Access.get.lines ++ ["end"])) := by
  decide +kernel

theorem rows_byName {locals texts : List String} (access : Access)
    : rowsBetween access.header "end" (accessorLines locals texts) = access.lines := by
  have last : "end" ∉ access.lines := by cases access <;> decide +kernel
  have tables : access.header ∉ tableLines "__LOCVARSET" setterText locals
      ++ tableLines "__LOCVARGET" getterText locals :=
    not_mem_tables (by cases access <;> decide)
  cases access with
  | set =>
      have whole : accessorLines locals texts
          = (tableLines "__LOCVARSET" setterText locals
              ++ tableLines "__LOCVARGET" getterText locals)
            ++ Access.set.header :: (Access.set.lines ++ "end"
              :: (Access.get.header :: (Access.get.lines ++ ["end"]) ++ resetLines texts)) := by
        rw [accessorLines, byNameLines_eq]
        simp only [List.append_assoc, List.cons_append]
      rw [whole]
      exact rowsBetween_eq _ tables last
  | get =>
      have first : Access.get.header ∉ Access.set.header :: (Access.set.lines ++ ["end"]) := by
        decide +kernel
      have whole : accessorLines locals texts
          = (tableLines "__LOCVARSET" setterText locals
              ++ tableLines "__LOCVARGET" getterText locals
              ++ Access.set.header :: (Access.set.lines ++ ["end"]))
            ++ Access.get.header :: (Access.get.lines ++ "end" :: resetLines texts) := by
        rw [accessorLines, byNameLines_eq]
        simp only [List.append_assoc, List.cons_append, List.nil_append]
      rw [whole]
      exact rowsBetween_eq _ (fun member => (List.mem_append.mp member).elim tables first) last

/-- The lines are read back as the function that they are. -/
theorem read_accessors {state : State} (reachable : Reachable state) (access : Access)
    : access.read? (accessors state) = some access.byName := by
  rw [Access.read?, linesOf_accessors reachable, rows_byName]
  cases access <;> decide +kernel

/-- The function that sets a local sets that local: its parameter is longer than the name. -/
theorem target_setterText {scope : Lua.Scope} {name : String}
    (identifier : Lua.isIdentifier name = true) (declared : name ∈ scope.locals)
    : Access.set.target? scope (setterText name) = some (.ofLocal name) := by
  have letters : ("__" ++ name).toList = '_' :: '_' :: name.toList := by
    simp [String.toList_append]
  have parameter : Lua.isIdentifier ("__" ++ name) = true :=
    Lua.isIdentifier_of_underscore letters (List.forall_mem_cons.mpr
      ⟨by decide, fun c member => Lua.isNameChar_of_mem identifier member⟩)
  have closed : ')' ∉ ("__" ++ name).toList := by
    intro member
    exact absurd (Lua.isNameChar_of_mem parameter member) (by decide)
  have longer : name ∉ ["__" ++ name] := by
    intro member
    have same := congrArg List.length (congrArg String.toList (List.mem_singleton.mp member))
    rw [letters, List.length_cons, List.length_cons] at same
    omega
  have lead : "function(__" = "function(" ++ "__" := by decide
  have middle : ") " = ")" ++ " " := by decide
  have assigned : " = __" = " = " ++ "__" := by decide
  have split : setterText name
      = "function(" ++ ("__" ++ name) ++ ")"
        ++ (" " ++ (name ++ (" = " ++ ("__" ++ name) ++ " end"))) := by
    unfold setterText
    rewrite [lead, middle, assigned]
    simp only [String.append_assoc]
  have read := Lua.readFunction_eq closed (" " ++ (name ++ (" = " ++ ("__" ++ name) ++ " end")))
  rw [← split, Lua.parameterNames_of_identifier parameter, String.toList_append,
    String.toList_append] at read
  have named : Lua.readName (name.toList ++ (" = " ++ ("__" ++ name) ++ " end").toList)
      = some (name, (" = " ++ ("__" ++ name) ++ " end").toList) :=
    Lua.readName_append identifier (by simp [String.toList_append]; decide)
  have cell : { scope with bound := ["__" ++ name] }.cell name = .ofLocal name := by
    rw [Lua.Scope.cell_of_not_bound longer, if_pos declared]
  simp only [Access.target?, read, after_append, named, Option.bind_eq_bind, Option.bind_some,
    ↓reduceIte, cell, pure]

theorem target_getterText {scope : Lua.Scope} {name : String}
    (identifier : Lua.isIdentifier name = true) (declared : name ∈ scope.locals)
    : Access.get.target? scope (getterText name) = some (.ofLocal name) := by
  have lead : "function() return " = "function(" ++ "" ++ ")" ++ " return " := by decide
  have split : getterText name = "function(" ++ "" ++ ")" ++ (" return " ++ (name ++ " end")) := by
    unfold getterText
    rewrite [lead]
    simp only [String.append_assoc]
  have none : Lua.parameterNames "".toList = [] := by decide
  have read := Lua.readFunction_eq (show ')' ∉ "".toList by decide) (" return " ++ (name ++ " end"))
  rw [← split, none, String.toList_append, String.toList_append] at read
  have named : Lua.readName (name.toList ++ " end".toList) = some (name, " end".toList) :=
    Lua.readName_append identifier (by simp; decide)
  have cell : { scope with bound := [] }.cell name = .ofLocal name := by
    rw [Lua.Scope.cell_of_not_bound List.not_mem_nil, if_pos declared]
  simp only [Access.target?, read, after_append, named, Option.bind_eq_bind, Option.bind_some,
    ↓reduceIte, cell, pure]

theorem target_function {scope : Lua.Scope} {name : String}
    (identifier : Lua.isIdentifier name = true) (declared : name ∈ scope.locals) (access : Access)
    : access.target? scope (access.function name) = some (.ofLocal name) := by
  cases access with
  | set => exact target_setterText identifier declared
  | get => exact target_getterText identifier declared

theorem lookup_map (function : String → String) (names : List String) (key : String)
    : (names.map fun name => (name, function name)).lookup key
      = if key ∈ names then some (function key) else none := by
  induction names with
  | nil => rfl
  | cons first rest ih =>
      rw [List.map_cons, List.lookup_cons, ih]
      by_cases same : key = first
      · simp [same]
      · simp [same, beq_eq_false_iff_ne.mpr same]

/-- What the names of variables mean in a file with these declarations. -/
def fileScope (code : String) : Lua.Scope where
  locals := declaredLocals code
  assigned := assignedGlobals code

section

variable {state : State}

/-- The name of the table of globals stands for it unless a variable has the name: the variable is
a local, or else the declarations give the global another value.
-/
theorem field_globals (state : State) (key : String)
    : (fileScope (declarations state)).field "_G" key = .ofGlobal key ↔ "_G" ∉ state.uses := by
  have text : Variable.luaText "_G" = "_G" := by decide
  have used : "_G" ∈ variablesByUse state ↔ "_G" ∈ state.uses := by
    rw [mem_variablesByUse]
    constructor
    · rintro ⟨name, known, same, -⟩
      rwa [← Variable.luaText_injective (same.trans text.symm)]
    · intro known
      exact ⟨"_G", known, text, by decide⟩
  have parts : "_G" ∈ variablesByUse state
      ↔ "_G" ∈ localVariables state ∨ "_G" ∈ (variablesByUse state).drop maxLocals := by
    rw [← List.mem_append, localVariables, List.take_append_drop]
  have named : (fileScope (declarations state)).isGlobals "_G" = true
      ↔ "_G" ∉ localVariables state ∧ "_G" ∉ (variablesByUse state).drop maxLocals := by
    simp only [Lua.Scope.isGlobals, Lua.Scope.cell, fileScope, declaredLocals_declarations,
      assignedGlobals_declarations, List.not_mem_nil, ↓reduceIte]
    by_cases declared : "_G" ∈ localVariables state
    · simp [declared]
    · simp [declared]
  rw [← used, parts, not_or, ← named, Lua.Scope.field]
  by_cases globals : (fileScope (declarations state)).isGlobals "_G" = true
  · simp [globals]
  · simp [globals]

/-- Access by name reaches the local that has the key, and otherwise a field of the globals. -/
theorem cell_accessors (reachable : Reachable state) (access : Access) (name : String)
    : access.cell? (fileScope (declarations state)) (accessors state) name
      = some
          (if Variable.shifted name ∈ localVariables state then .ofLocal (Variable.shifted name)
          else (fileScope (declarations state)).field "_G" (Variable.shifted name)) := by
  have table : access.byName.table = access.table := rfl
  have globals : access.byName.globals = "_G" := rfl
  have free : "_G" ∉ access.byName.found :: access.parameters := by cases access <;> decide
  have outside : { fileScope (declarations state) with
        bound := access.byName.found :: access.parameters }.field "_G" (Variable.shifted name)
      = (fileScope (declarations state)).field "_G" (Variable.shifted name) :=
    (fileScope (declarations state)).field_of_not_bound List.not_mem_nil free _
  simp only [Access.cell?, read_accessors reachable, table, tableEntries_accessors reachable,
    key_byName, lookup_map, globals, outside, Option.bind_eq_bind, Option.bind_some]
  by_cases declared : Variable.shifted name ∈ localVariables state
  · have member : Variable.shifted name ∈ (fileScope (declarations state)).locals := by
      rwa [fileScope, declaredLocals_declarations]
    simp only [declared, ↓reduceIte]
    exact target_function (isIdentifier_of_mem_localVariables declared) member access
  · simp only [declared, ↓reduceIte, pure]

end

end Game

end TileLua
