import TileLua.Syntax.Operator

/-! The trees of game scripts: expressions, call operands, conditions and commands.
Blocks are not nested in the trees; a tree refers to a block by its index in the script's table.
-/

namespace TileLua

mutual

/-- An expression. -/
inductive Expr
  | str (text : String)
  | int (value : Int64)
  | float (value : Float)
  | nil
  /-- A variable read. -/
  | get (name : String)
  /-- A reference to a tile by number, with the name it was written as. -/
  | tile (id : Int64) (name : String)
  /-- A text put together from literal and computed parts. -/
  | format (parts : List Expr)
  | embed (content : Expr)
  | apply (builtin : Builtin) (operands : List Operand)
  /-- A subroutine, by the index of its block. -/
  | block (index : Nat)
  /-- An expression whose tag is not known. -/
  | unknown (tag : String)

/-- An operand of a call. Points and areas fill named argument slots. -/
inductive Operand
  | point (x y : Expr)
  | area (x y width : Expr) (height : Option Expr)
  | value (content : Expr)

end

instance : Inhabited Expr := ⟨.nil⟩

instance : Inhabited Operand := ⟨.value .nil⟩

/-- A comparison of two expressions. -/
structure Condition where
  comparison : Comparison
  left : Expr
  right : Expr
  deriving Inhabited

/-- A continuation of an `if`. A further condition can carry continuations of its own. -/
inductive Branch
  | orElseIf (condition : Condition) (body : Nat) (branches : List Branch)
  | orElse (body : Nat)
  deriving Inhabited

/-- What a call names: a fixed event, or an expression that gives it. -/
inductive Callee
  | name (event : String)
  | computed (event : Expr)
  deriving Inhabited

/-- A command. -/
inductive Command
  /-- An empty line. -/
  | blank
  /-- An early return from the handler. -/
  | done
  | assign (assignment : Assignment) (target : String) (value : Expr)
  | inc (name : String)
  | dec (name : String)
  | random (low : Expr) (high : Option Expr)
  | choose (condition : Condition) (body : Nat) (branches : List Branch)
  | repeatWhile (condition : Condition) (body : Nat)
  | call (callee : Callee)
  | emit (event : Expr)
  | mimic (target : Expr)
  | tell (target : Operand) (rest : List Operand)
  | perform (verb : Verb) (operands : List Operand)
  /-- A comment by its index; `inline` when it ends a line of code. -/
  | comment (index : Nat) (inline : Bool)
  /-- A command whose tag is not known. -/
  | unknown (tag : String)
  deriving Inhabited

/-- Blank lines and comments carry no behaviour. -/
def Command.isInert : Command → Bool
  | blank => true
  | comment _ _ => true
  | _ => false

end TileLua
