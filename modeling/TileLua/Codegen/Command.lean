import TileLua.Codegen.CallSite

/-! Lua text of commands.
Every command becomes one statement, which may span lines, or nothing. The text has neither a margin
before its first line nor a line feed after its last.
-/

namespace TileLua.Codegen

/-- The text of a condition. -/
def condition (write : BlockWriter) (condition : Condition) : Codegen String := do
  let left ← expr write condition.left
  let right ← expr write condition.right
  return left ++ " " ++ condition.comparison.symbol ++ " " ++ right

mutual

/-- The text of a continuation, at the margin of the `if`. -/
def branch (write : BlockWriter) : Branch → Codegen String
  | .orElseIf test body nested => do
      let margin ← margin
      let test ← condition write test
      let body ← indented 1 (write .shared body)
      let nested ← branches write nested
      return margin ++ "elseif " ++ test ++ " then\n" ++ body ++ nested
  | .orElse body => do
      let margin ← margin
      let body ← indented 1 (write .shared body)
      return margin ++ "else\n" ++ body

/-- The text of continuations, in order. -/
def branches (write : BlockWriter) : List Branch → Codegen String
  | [] => return ""
  | first :: rest => return (← branch write first) ++ (← branches write rest)

end

/-- Whether a tile is referred to by number. -/
def isById : Expr → Bool
  | .tile _ _ => true
  | .int _ => true
  | _ => false

/-- The text of handing the current event to another script. -/
def mimic (write : BlockWriter) (target : Expr) : Codegen String := do
  let target ← foldTile target
  let value ← expr write target
  let script :=
    if isById target then "(__pulp.tiles[" ++ value ++ "] or __pulp.EMPTY).script;"
    else "__pulp:getScript(" ++ value ++ ") or __pulp.EMPTY;"
  let inner ← indented 1 margin
  return "do -- (mimic)\n"
    ++ inner ++ "local __mimic_target__ = " ++ script ++ "\n"
    ++ inner ++ "(__mimic_target__[__evname] or __mimic_target__.any)(__actor, event, __evname)\n"
    ++ (← margin) ++ "end"

/-- A `tell` whose actor is known where it stands: how it is called, the actor as an expression, and
the condition under which there is someone to tell.
-/
structure KnownActor where
  label : String
  actor : String
  guard : String
  deriving DecidableEq, Inhabited, Repr

/-- The actor of a position in the room. -/
def KnownActor.atPoint (x y : String) : KnownActor :=
  { label := "x,y", actor := "__roomtiles[" ++ y ++ "][" ++ x ++ "]"
    guard := "__actor and __actor.tile" }

/-- The actor of a variable that always names one. -/
def KnownActor.ofVariable? (name : String) : Option KnownActor :=
  if name = "event.player" then
    some { label := "__pulp.player", actor := "__pulp.player", guard := "__actor" }
  else if name = "event.room" ∨ name = "event.game" then
    some { label := name, actor := name, guard := "__actor" }
  else none

/-- The text of a `tell` in place: the actor is bound locally around the text of the block. -/
def tellInPlace (write : BlockWriter) (known : KnownActor) : List Operand → Codegen String
  | .value (.block index) :: _ => do
      let inner ← indented 1 do
        let margin ← margin
        let body ← indented 1 (dispatchingOn Engine.actorObject (write .own index))
        return margin ++ "local __actor = " ++ known.actor ++ "\n"
          ++ margin ++ "if " ++ known.guard ++ " then\n" ++ body ++ margin ++ "end\n"
      return "do --[tell " ++ known.label ++ " to]\n" ++ inner ++ (← margin) ++ "end"
  | _ => throw (.tellWithoutBlock known.label)

/-- The text of a `tell` that the engine carries out. -/
def tellThroughEngine (write : BlockWriter) (target : Operand) (rest : List Operand)
    : Codegen String := do
  let target ← foldTileOperand target
  dispatchingOn Engine.actorObject (call write .statement "tell" (target :: rest))

/-- The text of a `tell`. -/
def tell (write : BlockWriter) (target : Operand) (rest : List Operand) : Codegen String :=
  match target with
  | .point x y => do
      let x ← expr write x
      let y ← expr write y
      tellInPlace write (.atPoint x y) rest
  | .value (.get name) =>
      match KnownActor.ofVariable? name with
      | some known => tellInPlace write known rest
      | none => tellThroughEngine write target rest
  | _ => tellThroughEngine write target rest

/-- A text on one line: a space for each line feed. -/
def onOneLine (text : String) : String :=
  String.ofList (text.toList.map fun c => if c = '\n' then ' ' else c)

/-- The text of a command that has the given tags; nothing for one that leaves no text. -/
def command (script : Script) (write : BlockWriter) (tags : Annotations)
    : Command → Codegen (Option String)
  | .blank => return none
  | .done => return some "do return end"
  | .assign assignment target value => do
      let target ← useVariable target
      let value ← expr write value
      return some (target ++ " " ++ assignment.symbol ++ " " ++ value)
  | .inc name => return some ((← useVariable name) ++ " += 1")
  | .dec name => return some ((← useVariable name) ++ " -= 1")
  | .random low none => return some ("__random(" ++ (← expr write low) ++ ")")
  | .random low (some high) => do
      let low ← expr write low
      let high ← expr write high
      return some ("__random(" ++ low ++ ", " ++ high ++ ")")
  | .choose test body continuations => do
      let test ← condition write test
      let body ← indented 1 (write .shared body)
      let continuations ← branches write continuations
      return some ("if " ++ test ++ " then\n" ++ body ++ continuations ++ (← margin) ++ "end")
  | .repeatWhile test body => do
      let test ← condition write test
      let body ← indented 1 (write .shared body)
      return some ("while " ++ test ++ " do\n" ++ body ++ (← margin) ++ "end")
  | .call callee => some <$> callSite write tags callee
  | .emit event => return some ("__pulp:emit(" ++ (← expr write event) ++ ", event)")
  | .mimic target => some <$> mimic write target
  | .tell target rest => some <$> tell write target rest
  | .perform verb operands => some <$> call write .statement verb.word operands
  | .comment index inline => comment script index inline
  | .unknown tag => do
      meet (.unknownCommand tag)
      return some ("--unknown command code '" ++ onOneLine tag ++ "'")

end TileLua.Codegen
