import TileLua.Proofs.Text.Lines
import TileLua.Proofs.Variable.Names

/-! What a name in Lua code stands for.
A name stands for what the functions around it bind it to, innermost first, then for a local of the
file, and otherwise for a global. The globals are also the fields of a table that has a name itself,
so a field of `_G` is a global only where `_G` still stands for that table. What functions and
statements bind is read from their text.
-/

namespace TileLua.Lua

open Text (after? after_append)

-----------------------------------------------------------------------------------------
-- Reading what code binds
-----------------------------------------------------------------------------------------

/-- Reads an identifier, with what follows it. -/
def readName (text : List Char) : Option (String × List Char) :=
  let word := String.ofList (text.takeWhile isNameChar)
  if isIdentifier word then some (word, text.dropWhile isNameChar) else none

/-- The names in a list of parameters. -/
def parameterNames (inside : List Char) : List String :=
  ((inside.splitOnP fun c => !isNameChar c).filter fun word => !word.isEmpty).map String.ofList

/-- Reads the parameters of a function, with what follows the bracket that closes them. -/
def readFunction (text : List Char) : Option (List String × List Char) := do
  let rest ← after? "function(" text
  let body ← after? ")" (rest.dropWhile (· != ')'))
  return (parameterNames (rest.takeWhile (· != ')')), body)

/-- The name that the statement at the start of a text declares as a local, behind a margin. -/
def declaredLocal? (text : List Char) : Option String := do
  let (name, rest) ← readName (← after? "local " (text.dropWhile (· == ' ')))
  let _ ← after? " = " rest
  return name

/-- An identifier is read whole if what follows it does not go on with a name. -/
theorem readName_append {name : String} (identifier : isIdentifier name = true) {rest : List Char}
    (ends : ∀ c ∈ rest.head?, isNameChar c = false)
    : readName (name.toList ++ rest) = some (name, rest) := by
  have letters : ∀ c ∈ name.toList, isNameChar c = true :=
    fun _ member => isNameChar_of_mem identifier member
  have nothing : rest.takeWhile isNameChar = [] := by
    cases rest with
    | nil => rfl
    | cons c _ => exact List.takeWhile_cons_of_neg (by simp [ends c rfl])
  have whole : rest.dropWhile isNameChar = rest := by
    cases rest with
    | nil => rfl
    | cons c _ => exact List.dropWhile_cons_of_neg (by simp [ends c rfl])
  rw [readName, List.takeWhile_append_of_pos letters, List.dropWhile_append_of_pos letters, nothing,
    whole, List.append_nil, String.ofList_toList]
  simp [identifier]

theorem parameterNames_of_identifier {name : String} (identifier : isIdentifier name = true)
    : parameterNames name.toList = [name] := by
  have letters : ∀ c ∈ name.toList, (!isNameChar c) = false := by
    intro c member
    simp [isNameChar_of_mem identifier member]
  have nonempty : name.toList ≠ [] := by
    intro empty
    simp [isIdentifier, isNameShaped, empty] at identifier
  rw [parameterNames, List.splitOnP_eq_singleton letters]
  simp [nonempty]

theorem readFunction_eq {inside : String} (closed : ')' ∉ inside.toList) (body : String)
    : readFunction ("function(" ++ inside ++ ")" ++ body).toList
      = some (parameterNames inside.toList, body.toList) := by
  have other : ∀ c ∈ inside.toList, (c != ')') = true :=
    fun c member => bne_iff_ne.mpr (fun same => closed (same ▸ member))
  have parameters : (inside.toList ++ (")".toList ++ body.toList)).takeWhile (· != ')')
      = inside.toList := by
    simp [List.takeWhile_append_of_pos other]
  have behind : (inside.toList ++ (")".toList ++ body.toList)).dropWhile (· != ')')
      = ")".toList ++ body.toList := by
    simp [List.dropWhile_append_of_pos other]
  simp only [readFunction, String.toList_append, List.append_assoc, after_append, parameters,
    behind, Option.bind_eq_bind, Option.bind_some, pure]

theorem declaredLocal_eq {margin : String} (blank : ∀ c ∈ margin.toList, c = ' ') {name : String}
    (identifier : isIdentifier name = true) (rest : String)
    : declaredLocal? (margin ++ "local " ++ name ++ " = " ++ rest).toList = some name := by
  have skipped : ∀ c ∈ margin.toList, (c == ' ') = true := fun c member => by simp [blank c member]
  have statement (text : List Char)
      : (margin.toList ++ ("local ".toList ++ text)).dropWhile (· == ' ')
        = "local ".toList ++ text := by
    rw [List.dropWhile_append_of_pos skipped]
    rfl
  have named (value : List Char)
      : readName (name.toList ++ (" = ".toList ++ value)) = some (name, " = ".toList ++ value) :=
    readName_append identifier (by simp; decide)
  simp only [declaredLocal?, String.toList_append, List.append_assoc, statement, after_append,
    named, Option.bind_eq_bind, Option.bind_some, pure]

-----------------------------------------------------------------------------------------
-- What names stand for
-----------------------------------------------------------------------------------------

/-- What holds a value while Lua runs. -/
inductive Cell
  /-- The variable that a function around a place binds to a name. -/
  | bound (name : String)
  | ofLocal (name : String)
  | ofGlobal (name : String)
  | field (table : Cell) (key : String)
  deriving DecidableEq, Inhabited, Repr

/-- The names that mean something at a place of a file. -/
structure Scope where
  /-- The names that the functions around the place bind. -/
  bound : List String := []
  /-- The locals of the file. -/
  locals : List String
  /-- The globals that the file gives a value of its own. -/
  assigned : List String

namespace Scope

/-- What a name stands for. -/
def cell (scope : Scope) (name : String) : Cell :=
  if name ∈ scope.bound then .bound name
  else if name ∈ scope.locals then .ofLocal name
  else .ofGlobal name

/-- Whether a name stands for the table of globals: it is the global `_G`, and has the value that it
starts with.
-/
def isGlobals (scope : Scope) (table : String) : Bool :=
  scope.cell table = .ofGlobal "_G" && !scope.assigned.contains "_G"

/-- What a field of a table stands for. -/
def field (scope : Scope) (table key : String) : Cell :=
  if scope.isGlobals table then .ofGlobal key else .field (scope.cell table) key

/-- What an expression stands for: a name, or a field of a table with a name. -/
def cellOf? (scope : Scope) (expression : String) : Option Cell :=
  if isIdentifier expression then some (scope.cell expression)
  else do
    let (table, rest) ← readName expression.toList
    let (key, rest) ← readQuoted (← after? "[" rest)
    if rest = [']'] then some (scope.field table (String.ofList key)) else none

theorem cellOf_of_identifier (scope : Scope) {name : String}
    (identifier : isIdentifier name = true)
    : scope.cellOf? name = some (scope.cell name) := by
  rw [cellOf?, if_pos identifier]

/-- An index in quotes is read back, and stands for the field of that name. -/
theorem cellOf_index (scope : Scope) {table : String} (identifier : isIdentifier table = true)
    (key : String)
    : scope.cellOf? (table ++ "[" ++ quote key ++ "]") = some (scope.field table key) := by
  have bracket : isNameChar '[' = false := by decide
  have letters : (table ++ "[" ++ quote key ++ "]").toList
      = table.toList ++ ("[".toList ++ ((quote key).toList ++ [']'])) := by
    simp [String.toList_append]
  have other : isIdentifier (table ++ "[" ++ quote key ++ "]") = false :=
    isIdentifier_eq_false (by rw [letters]; simp) bracket
  have named : readName (table.toList ++ ("[".toList ++ ((quote key).toList ++ [']'])))
      = some (table, "[".toList ++ ((quote key).toList ++ [']'])) :=
    readName_append identifier (by simpa using bracket)
  rw [cellOf?, other, letters, named]
  simp only [Bool.false_eq_true, ↓reduceIte, after_append, readQuoted_quote, Option.bind_eq_bind,
    Option.bind_some, String.ofList_toList]

/-- A name that no function around a place binds stands for the same there as in the file. -/
theorem cell_of_not_bound {scope : Scope} {name : String} (free : name ∉ scope.bound)
    : scope.cell name = if name ∈ scope.locals then .ofLocal name else .ofGlobal name :=
  if_neg free

/-- A field of a table that is not bound stands for the same whatever else functions bind. -/
theorem field_of_not_bound (scope : Scope) {table : String} {bound : List String}
    (outer : table ∉ scope.bound) (inner : table ∉ bound) (key : String)
    : { scope with bound }.field table key = scope.field table key := by
  have same : { scope with bound }.cell table = scope.cell table := by
    rw [cell_of_not_bound inner, cell_of_not_bound outer]
  rw [field, field, isGlobals, isGlobals, same]

/-- A field of a table is neither what a function binds nor a local. -/
theorem field_apart (scope : Scope) (table key name : String)
    : scope.field table key ≠ .bound name ∧ scope.field table key ≠ .ofLocal name := by
  unfold field
  split <;> simp

end Scope

end TileLua.Lua
