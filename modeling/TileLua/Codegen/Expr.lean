import TileLua.Codegen.Call
import TileLua.Codegen.State
import TileLua.Decimal.Layout
import TileLua.Lua
import TileLua.Variable

/-! Lua text of variables, of expressions and of call operands.
A subroutine refers to a block of the script; how the text of a block is made is a parameter here,
so that expressions are handled by recursion on the tree alone.
-/

namespace TileLua.Codegen

/-- The state after one more use of a script variable. -/
def State.countUse (state : State) (name : String) : State :=
  { state with
    uses := state.uses.insert name (state.uses.getD name 0 + 1)
    luaVariables := state.luaVariables.insert (Variable.luaText name) }

/-- The Lua text of a variable, whose use is counted unless the name is used as it is. -/
def useVariable (name : String) : Codegen String :=
  if Variable.isVerbatim name then return name
  else do
    modify fun state => state.countUse name
    return Variable.luaText name

/-- The expression that reads a name, with the local declaration it needs; a name that is not
special reads as itself.
-/
def readSpecial (name : String) : Codegen String :=
  match Variable.special? name with
  | some special => do
      special.binding.forM bindLocal
      return special.text
  | none => return name

/-- The expression that reads a variable. -/
def readVariable (name : String) : Codegen String := do
  readSpecial (← useVariable name)

/-- Whether a block is part of the function around it or the body of a function of its own. -/
inductive Scope
  | shared
  | own
  deriving DecidableEq, Inhabited, Repr

/-- How the text of the block at an index is made. -/
abbrev BlockWriter :=
  Scope → Nat → Codegen String

/-- Doubles in Lua are plain from `0.0001` and below ten to the sixteenth, and keep `.0`. -/
def numberLayout : Decimal.Layout :=
  { plainFrom := -4, plainBelow := 16, positiveMark := "", tie := .up, infinity := "inf",
    notANumber := "NaN" }

/-- A part of a text: literals as they are, anything else converted to text. -/
def partText (part : Expr) (text : String) : String :=
  match part with
  | .str _ => text
  | _ => "__tostring(" ++ text ++ ")"

/-- The text of a subroutine around the text of its body. -/
def subroutineText (margin body : String) : String :=
  "function(__actor, event, evname)\n" ++ body ++ margin ++ "  end"

mutual

/-- The Lua text of an expression. -/
def expr (write : BlockWriter) : Expr → Codegen String
  | .str text => return Lua.quote text
  | .int value => return toString value
  | .float value => return numberLayout.render value
  | .nil => return "nil"
  | .get name => readVariable name
  | .tile id name => return toString id ++ " --[[(" ++ Lua.loosen name ++ ")]]"
  | .format [] => return "\"\""
  | .format parts => return " .. ".intercalate (List.zipWith partText parts (← exprs write parts))
  | .embed content => return "__pulp.__ex_embed(" ++ (← expr write content) ++ ")"
  | .apply .name (.point x y :: _) => do
      let x ← expr write x
      let y ← expr write y
      return "__roomtiles[" ++ y ++ "][" ++ x ++ "].name"
  | .apply builtin operands =>
      return callText .expression builtin.word (← operandTexts write operands)
  | .block index => do
      let body ← indented 2 (write .own index)
      return subroutineText (← margin) body
  | .unknown tag => do
      meet (.unknownExpression tag)
      return "nil --[[unknown expression code '" ++ Lua.loosen tag ++ "']]"

/-- The Lua texts of expressions, in order. -/
def exprs (write : BlockWriter) : List Expr → Codegen (List String)
  | [] => return []
  | first :: rest => return (← expr write first) :: (← exprs write rest)

/-- The Lua text of a call operand. -/
def operandText (write : BlockWriter) : Operand → Codegen OperandText
  | .point x y => return .point (← expr write x) (← expr write y)
  | .area x y width height => do
      let x ← expr write x
      let y ← expr write y
      let width ← expr write width
      match height with
      | some height => return .area x y width (some (← expr write height))
      | none => return .area x y width none
  | .value content => do
      let text ← expr write content
      match content with
      | .block _ => return .body text
      | _ => return .scalar text

/-- The Lua texts of call operands, in order. -/
def operandTexts (write : BlockWriter) : List Operand → Codegen (List OperandText)
  | [] => return []
  | first :: rest => return (← operandText write first) :: (← operandTexts write rest)

end

/-- The text of a call of a built-in operation. -/
def call (write : BlockWriter) (role : CallRole) (operation : String) (operands : List Operand)
    : Codegen String :=
  return callText role operation (← operandTexts write operands)

end TileLua.Codegen
