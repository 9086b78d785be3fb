import TileLua.Proofs.Codegen.VariableUses
import TileLua.Proofs.Syntax.Encoding

/-! What the read of a variable looks like in Lua.
A variable expression is an identifier, a path of identifiers with dots between them, or a field of
the table of globals. The text of a script variable is one. A name that is used as it is has to be
one already, and nothing sees to that: every name can be read, and a text on the left of a condition
is read if it is a token, whatever else it holds.
-/

namespace TileLua

-----------------------------------------------------------------------------------------
-- Variable expressions
-----------------------------------------------------------------------------------------

namespace Lua

/-- A path through tables: one identifier or more, with dots between them. -/
def IsPath (text : String) : Prop :=
  ∃ names : List String,
    names ≠ [] ∧ (∀ name ∈ names, isIdentifier name = true) ∧ text = ".".intercalate names

/-- The field of the table of globals that has a quoted name. -/
def IsGlobalField (text : String) : Prop :=
  ∃ name, text = "_G[" ++ quote name ++ "]"

/-- A Lua expression for a variable. -/
inductive IsVariable (text : String) : Prop
  | name (identifier : isIdentifier text = true)
  | path (path : IsPath text)
  | global (field : IsGlobalField text)

/-- Whether the texts between dots are identifiers. -/
def isPath (text : String) : Bool :=
  (text.toList.splitOn '.').all fun letters => isIdentifier (String.ofList letters)

/-- Whether a text is that of the field whose name is read after its bracket. -/
def isGlobalField (text : String) : Bool :=
  match readQuoted (text.toList.drop 3) with
  | some (name, _) => text == "_G[" ++ quote (String.ofList name) ++ "]"
  | none => false

theorem dot_not_mem {name : String} (identifier : isIdentifier name = true)
    : '.' ∉ name.toList := by
  intro member
  have letter := isNameChar_of_mem identifier member
  revert letter
  decide

/-- The identifiers of a path are what stands between its dots, since none has a dot. -/
theorem isPath_iff {text : String} : isPath text = true ↔ IsPath text := by
  constructor
  · intro named
    refine ⟨(text.toList.splitOn '.').map String.ofList, ?_, ?_, ?_⟩
    · simp [List.splitOn_ne_nil]
    · intro name member
      obtain ⟨letters, piece, rfl⟩ := List.mem_map.mp member
      exact List.all_eq_true.mp named letters piece
    · rw [← String.toList_inj, String.toList_intercalate, List.map_map]
      have same : String.toList ∘ String.ofList = id := by
        funext letters
        exact String.toList_ofList
      rw [same, List.map_id]
      exact (List.intercalate_splitOn '.').symm
  · intro path
    obtain ⟨names, nonempty, named, rfl⟩ := path
    have pieces : (".".intercalate names).toList.splitOn '.' = names.map String.toList := by
      rw [String.toList_intercalate]
      apply List.splitOn_intercalate
      · intro letters member
        obtain ⟨name, listed, rfl⟩ := List.mem_map.mp member
        exact dot_not_mem (named name listed)
      · simpa using nonempty
    rw [isPath, pieces, List.all_map, List.all_eq_true]
    intro name listed
    simpa using named name listed

theorem isGlobalField_iff {text : String} : isGlobalField text = true ↔ IsGlobalField text := by
  unfold isGlobalField
  constructor
  · intro same
    split at same
    · rename_i name _ _
      exact ⟨String.ofList name, eq_of_beq same⟩
    · cases same
  · intro field
    obtain ⟨name, rfl⟩ := field
    have letters : ("_G[" ++ quote name ++ "]").toList.drop 3 = (quote name).toList ++ [']'] := by
      simp [String.toList_append]
    rw [letters, readQuoted_quote]
    simp

/-- An identifier is a path of its own. -/
theorem IsPath.of_identifier {name : String} (identifier : isIdentifier name = true)
    : IsPath name :=
  ⟨[name], by simp, by simpa using identifier, by simp⟩

theorem isVariable_iff {text : String}
    : IsVariable text ↔ isPath text = true ∨ isGlobalField text = true := by
  rw [isPath_iff, isGlobalField_iff]
  constructor
  · intro shape
    cases shape with
    | name identifier => exact Or.inl (.of_identifier identifier)
    | path path => exact Or.inl path
    | global field => exact Or.inr field
  · intro shape
    rcases shape with path | field
    · exact .path path
    · exact .global field

instance (text : String) : Decidable (IsVariable text) :=
  decidable_of_iff _ isVariable_iff.symm

example : IsVariable "event.score" ∧ IsVariable "_G[\"a b\"]" ∧ ¬ IsVariable "Wait..." := by
  decide +kernel

end Lua

/-- The text of a script variable is an identifier or a field of the table of globals. -/
theorem Variable.isVariable_luaText (name : String) : Lua.IsVariable (luaText name) := by
  cases plain : Lua.isIdentifier (shifted name) with
  | true => exact .name (by rw [isIdentifier_luaText, plain])
  | false => exact .global ⟨shifted name, luaText_of_not_identifier plain⟩

/-- A name that is used as it is has to be a variable expression already. -/
theorem Variable.isVariable_writtenText_iff (name : String)
    : Lua.IsVariable (writtenText name)
      ↔ (isVerbatim name = true → Lua.isPath name = true ∨ Lua.isGlobalField name = true) := by
  cases kind : isVerbatim name with
  | true => simp only [writtenText_of_verbatim kind, Lua.isVariable_iff, forall_const]
  | false => simp [writtenText_of_counted kind, isVariable_luaText]

-----------------------------------------------------------------------------------------
-- Reads that can be written in an export
-----------------------------------------------------------------------------------------

open Decoding

/-- On the left of a condition a text is read as a variable exactly if it is a token. -/
theorem Condition.ofJson_text (comparison : Comparison) (text : String) {value : Json}
    {right : Expr} (read : Expr.ofJson value = .ok right)
    : Condition.ofJson (.arr [.str comparison.tag, .str text, value])
      = .ok
          { comparison
            left := if Lua.isToken text then .get text else .str text
            right } := by
  simp only [Condition.ofJson, Json.tagText, comparison.ofTag_tag]
  exact bind_eq_ok.mpr ⟨_, rfl, bind_eq_ok.mpr ⟨_, rfl, bind_eq_ok.mpr ⟨_, rfl,
    bind_eq_ok.mpr ⟨_, read, rfl⟩⟩⟩⟩

namespace Codegen

/-- Every name can be read, and every token by standing on the left of a condition. The read of a
name that is not special is a variable expression exactly if the name is not used as it is, or is
a path of identifiers or a quoted field of the table of globals to begin with. A name that is used
as it is becomes code letter by letter.
-/
theorem read_is_variable_iff (name : String) (plain : Variable.special? name = none)
    : Expr.ofJson (.arr [.str "get", .str name]) = .ok (.get name)
      ∧ (∀ comparison value right,
          Expr.ofJson value = .ok right
          → Condition.ofJson (.arr [.str (Comparison.tag comparison), .str name, value])
            = .ok
                { comparison
                  left := if Lua.isToken name then .get name else .str name
                  right })
      ∧ ∀ write before,
          ∃ text after,
            expr write (.get name) before = .ok text after
            ∧ (Lua.IsVariable text
              ↔ (Variable.isVerbatim name = true
                → Lua.isPath name = true ∨ Lua.isGlobalField name = true))
            ∧ (Variable.isVerbatim name = true → text = name) := by
  refine ⟨Expr.ofJson_toJson (.get name) rfl, ?_, ?_⟩
  · intro comparison value right read
    exact Condition.ofJson_text comparison name read
  · intro write before
    have run := useVariable_apply name before
    rw [← readVariable_eq_useVariable plain] at run
    refine ⟨_, _, by simpa only [expr] using run, ?_, Variable.writtenText_of_verbatim⟩
    exact Variable.isVariable_writtenText_iff name

/-- A word with dots after it, compared with a number, becomes code that is no Lua expression, and
so does a name with a call in it. A field of the event stays a path.
-/
theorem read_of_dotted_text
    : (∃ text after,
        Condition.ofJson (.arr [.str "eq", .str "Wait...", .int 1])
          = .ok ⟨.equal, .get "Wait...", .int 1⟩
        ∧ expr (block { name := "hub" }) (.get "Wait...") {} = .ok text after
        ∧ text = "Wait..."
        ∧ ¬ Lua.IsVariable text)
      ∧ (∃ text after,
          expr (block { name := "hub" }) (.get "x.y()") {} = .ok text after
          ∧ ¬ Lua.IsVariable text)
      ∧ ∃ text after,
          expr (block { name := "hub" }) (.get "event.score") {} = .ok text after
          ∧ Lua.IsVariable text := by
  refine ⟨?_, ?_, ?_⟩
  · obtain ⟨-, tokens, reads⟩ := read_is_variable_iff "Wait..." (by decide +kernel)
    obtain ⟨text, after, run, shape, verbatim⟩ := reads (block { name := "hub" }) {}
    refine ⟨text, after, ?_, run, verbatim (by decide), ?_⟩
    · exact tokens .equal (.int 1) (.int 1) (by rfl)
    · rw [shape]
      decide +kernel
  · obtain ⟨-, -, reads⟩ := read_is_variable_iff "x.y()" (by decide +kernel)
    obtain ⟨text, after, run, shape, -⟩ := reads (block { name := "hub" }) {}
    refine ⟨text, after, run, ?_⟩
    rw [shape]
    decide +kernel
  · obtain ⟨-, -, reads⟩ := read_is_variable_iff "event.score" (by decide +kernel)
    obtain ⟨text, after, run, shape, -⟩ := reads (block { name := "hub" }) {}
    refine ⟨text, after, run, ?_⟩
    rw [shape]
    decide +kernel

end Codegen

end TileLua
