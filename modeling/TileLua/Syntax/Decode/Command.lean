import TileLua.Syntax.Decode.Expr

/-! Reading conditions, commands and blocks from an export.
An entry of a block that is not an array carries nothing and is skipped.
-/

namespace TileLua

/-- Reads the left side of a condition, where a bare token is a variable read. -/
def Condition.leftOfJson : Json → Except Defect Expr
  | .str text => .ok (if Lua.isToken text then .get text else .str text)
  | other => Expr.ofJson other

/-- Reads a condition. -/
def Condition.ofJson : Json → Except Defect Condition
  | .arr items => do
      let tag := Json.tagText items
      match Comparison.ofTag? tag with
      | none => throw (.unknownComparison tag)
      | some comparison =>
          let left ← Condition.leftOfJson (← operandAt tag items.tail 0)
          let right ← Expr.ofJson (← operandAt tag items.tail 1)
          return { comparison, left, right }
  | other => .error (.conditionExpected other)

/-- Reads a reference to a block. -/
def blockIndexOfJson : Json → Except Defect Nat
  | .arr (.str tag :: payload) =>
      if tag = "block" then indexAt tag payload 0
      else .error (.blockExpected (.arr (.str tag :: payload)))
  | other => .error (.blockExpected other)

/-- Reads a condition and the block it guards. -/
def guardOfJson (tag : String) (payload : List Json) : Except Defect (Condition × Nat) := do
  let condition ← Condition.ofJson (← operandAt tag payload 0)
  let body ← blockIndexOfJson (← operandAt tag payload 1)
  return (condition, body)

mutual

/-- Reads a continuation of an `if`. -/
def Branch.ofJson : Json → Except Defect Branch
  | .arr (.str tag :: payload) =>
      if tag = "elseif" then do
        let (condition, body) ← guardOfJson tag payload
        match payload with
        | _ :: _ :: more => return .orElseIf condition body (← Branch.listOfJson more)
        | _ => return .orElseIf condition body []
      else if tag = "else" then
        return .orElse (← blockIndexOfJson (← operandAt tag payload 0))
      else .error (.unknownContinuation tag)
  | .arr items => .error (.unknownContinuation (Json.tagText items))
  | other => .error (.continuationExpected other)

/-- Reads the continuations of an `if` in order. -/
def Branch.listOfJson : List Json → Except Defect (List Branch)
  | [] => .ok []
  | value :: rest => return (← Branch.ofJson value) :: (← Branch.listOfJson rest)

end

/-- Reads what a call names, where a bare token is the event itself. -/
def Callee.ofJson : Json → Except Defect Callee
  | .str text => .ok (if Lua.isToken text then .name text else .computed (.str text))
  | other => Callee.computed <$> Expr.ofJson other

/-- Reads the one or two bounds of a random number. -/
def Command.randomOfJson : List Json → Except Defect Command
  | [low] => return .random (← Expr.ofJson low) none
  | [low, high] => return .random (← Expr.ofJson low) (some (← Expr.ofJson high))
  | payload => .error (.randomArity payload.length)

/-- Reads a command that is neither an assignment nor a built-in verb. -/
def Command.ofTagged (tag : String) (payload : List Json) : Except Defect Command :=
  if tag = "_" then .ok .blank
  else if tag = "done" then .ok .done
  else if tag = "inc" then return .inc (← nameAt tag payload 0)
  else if tag = "dec" then return .dec (← nameAt tag payload 0)
  else if tag = "random" then Command.randomOfJson payload
  else if tag = "if" then do
    let (condition, body) ← guardOfJson tag payload
    return .choose condition body (← Branch.listOfJson (payload.drop 2))
  else if tag = "while" then do
    if 2 < payload.length then throw .whileContinued
    let (condition, body) ← guardOfJson tag payload
    return .repeatWhile condition body
  else if tag = "call" then return .call (← Callee.ofJson (← operandAt tag payload 0))
  else if tag = "emit" then return .emit (← Expr.ofJson (← operandAt tag payload 0))
  else if tag = "mimic" then return .mimic (← Expr.ofJson (← operandAt tag payload 0))
  else if tag = "tell" then do
    let target ← Operand.ofJson (← operandAt tag payload 0)
    return .tell target (← Operand.listOfJson payload.tail)
  else if tag = "#" then return .comment (← indexAt tag payload 0) false
  else if tag = "#$" then return .comment (← indexAt tag payload 0) true
  else match Verb.ofWord? tag with
    | some verb => return .perform verb (← Operand.listOfJson payload)
    | none => .ok (.unknown tag)

/-- Reads a command; nothing for an entry that is not an array. -/
def Command.ofJson? : Json → Except Defect (Option Command)
  | .arr (.str tag :: payload) =>
      match Assignment.ofTag? tag with
      | some assignment => do
          let target ← nameAt tag payload 0
          let value ← Expr.ofJson (← operandAt tag payload 1)
          return some (.assign assignment target value)
      | none => some <$> Command.ofTagged tag payload
  | .arr items => .ok (some (.unknown (Json.tagText items)))
  | _ => .ok none

/-- A block: commands in order. -/
abbrev Block :=
  List Command

/-- Reads the commands of a block. -/
def Block.ofJson : List Json → Except Defect Block
  | [] => .ok []
  | value :: rest => do
      let command ← Command.ofJson? value
      return command.toList ++ (← Block.ofJson rest)

end TileLua
