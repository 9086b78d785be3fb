import TileLua.Defect
import TileLua.Lua
import TileLua.Syntax.Tree

/-! Reading expressions and call operands from an export.
A compound expression is an array led by a tag. A tag that is not known is kept in the tree, to be
reported later; a known tag with an operand missing or of the wrong kind is a defect. Points and
areas are recognised as call operands only.
-/

namespace TileLua

/-- The text of the first item of an array, which should be a tag: a string as it is, anything else
as JSON text.
-/
def Json.tagText : List Json → String
  | [] => ""
  | .str tag :: _ => tag
  | other :: _ => other.compact

/-- The operand at an index. -/
def operandAt (tag : String) (payload : List Json) (index : Nat) : Except Defect Json :=
  match payload[index]? with
  | some value => .ok value
  | none => .error (.missingOperand tag index)

/-- The operand at an index, a name. -/
def nameAt (tag : String) (payload : List Json) (index : Nat) : Except Defect String := do
  match ← operandAt tag payload index with
  | .str name => return name
  | other => throw (.nameExpected tag index other)

/-- The operand at an index, an index itself. -/
def indexAt (tag : String) (payload : List Json) (index : Nat) : Except Defect Nat := do
  let value ← operandAt tag payload index
  match value.asIndex? with
  | some number => return number
  | none => throw (.indexExpected tag index value)

/-- A number in expression position; one beyond 64-bit words is a double. -/
def Expr.ofInt (value : Int) : Expr :=
  match (Json.int value).asWord? with
  | some word => .int word
  | none =>
      let magnitude := Float.ofScientific value.natAbs false 0
      .float (if value < 0 then -magnitude else magnitude)

/-- A tile reference: a number and a name. -/
def Expr.tileOfJson (tag : String) (payload : List Json) : Except Defect Expr := do
  match (← operandAt tag payload 0).asWord? with
  | some id => return .tile id (← nameAt tag payload 1)
  | none => throw .tileIdExpected

mutual

/-- Reads an expression. -/
def Expr.ofJson : Json → Except Defect Expr
  | .str text => .ok (.str text)
  | .int value => .ok (Expr.ofInt value)
  | .float value => .ok (.float value)
  | .null => .ok .nil
  | .bool value => .ok (.unknown (if value then "true" else "false"))
  | .obj _ => .ok (.unknown "object")
  | .arr (.str tag :: payload) =>
      if tag = "get" then return .get (← nameAt tag payload 0)
      else if tag = "optimized-id" then Expr.tileOfJson tag payload
      else if tag = "format" then return .format (← Expr.listOfJson payload)
      else if tag = "embed" then
        match payload with
        | content :: _ => return .embed (← Expr.ofJson content)
        | [] => throw (.missingOperand tag 0)
      else if tag = "block" then return .block (← indexAt tag payload 0)
      else match Builtin.ofWord? tag with
        | some builtin => return .apply builtin (← Operand.listOfJson payload)
        | none => return .unknown tag
  | .arr items => .ok (.unknown (Json.tagText items))

/-- Reads expressions in order. -/
def Expr.listOfJson : List Json → Except Defect (List Expr)
  | [] => .ok []
  | value :: rest => return (← Expr.ofJson value) :: (← Expr.listOfJson rest)

/-- Reads the two coordinates of a point. -/
def Operand.pointOfJson : List Json → Except Defect Operand
  | [] => throw (.missingOperand "xy" 0)
  | x :: rest => do
      let x ← Expr.ofJson x
      match rest with
      | [] => throw (.missingOperand "xy" 1)
      | y :: _ => return .point x (← Expr.ofJson y)

/-- Reads the coordinates and the extent of an area, whose height may be left out. -/
def Operand.areaOfJson : List Json → Except Defect Operand
  | [] => throw (.missingOperand "rect" 0)
  | x :: rest => do
      let x ← Expr.ofJson x
      match rest with
      | [] => throw (.missingOperand "rect" 1)
      | y :: rest => do
          let y ← Expr.ofJson y
          match rest with
          | [] => throw (.missingOperand "rect" 2)
          | width :: rest => do
              let width ← Expr.ofJson width
              match rest with
              | [] => return .area x y width none
              | height :: _ => return .area x y width (some (← Expr.ofJson height))

/-- Reads operands in order. -/
def Operand.listOfJson : List Json → Except Defect (List Operand)
  | [] => .ok []
  | .arr (.str tag :: payload) :: rest => do
      let operand ←
        if tag = "xy" then Operand.pointOfJson payload
        else if tag = "rect" then Operand.areaOfJson payload
        else Operand.value <$> Expr.ofJson (.arr (.str tag :: payload))
      return operand :: (← Operand.listOfJson rest)
  | value :: rest => do
      let operand ← Operand.value <$> Expr.ofJson value
      return operand :: (← Operand.listOfJson rest)

end

/-- Reads one operand. -/
def Operand.ofJson : Json → Except Defect Operand
  | .arr (.str tag :: payload) =>
      if tag = "xy" then Operand.pointOfJson payload
      else if tag = "rect" then Operand.areaOfJson payload
      else Operand.value <$> Expr.ofJson (.arr (.str tag :: payload))
  | other => Operand.value <$> Expr.ofJson other

end TileLua
