import TileLua.Codegen.Command

/-! Lua text of blocks and of event handlers.
A block that is a function's body gets the local declarations that its text needs ahead of it.
Blocks refer to each other by index; the depth to which they may be nested is bounded by the size
of the table, which only a block nested in itself can exceed.
-/

namespace TileLua.Codegen

/-- The lines of the commands of a block from the one with that index. -/
def commands (script : Script) (write : BlockWriter) (block : Nat)
    : (index : Nat) → List Command → Codegen (List String)
  | _, [] => return []
  | index, first :: rest => do
      let text ← atLocation { script := script.name, block, command := index }
        (command script write (Annotations.after script rest) first)
      let margin ← margin
      let others ← commands script write block (index + 1) rest
      return (text.map fun text => margin ++ text ++ "\n").toList ++ others

/-- The text of a block, given how the blocks inside it are written. -/
def blockText (script : Script) (write : BlockWriter) (scope : Scope) (index : Nat)
    : Codegen String := do
  let body ← ofExcept (script.block index)
  match scope with
  | .shared => String.join <$> commands script write index 0 body
  | .own => do
      let (lines, bindings) ← inFunction (commands script write index 0 body)
      let margin ← margin
      return String.join (bindings.map fun binding => margin ++ binding ++ "\n")
        ++ String.join lines

/-- The text of a block with other blocks nested in it to a depth below the given one. -/
def blockWithin (script : Script) : (depth : Nat) → BlockWriter
  | 0 => fun _ index => throw (.endlessBlock script.name index)
  | depth + 1 => blockText script (blockWithin script depth)

/-- The text of a block of a script. A path through blocks none of which is nested in itself visits
each block once at most, and may end in a reference to a block that is missing.
-/
def block (script : Script) : BlockWriter :=
  blockWithin script (script.blocks.length + 1)

/-- What a block mimics if, blank lines and comments apart, it is a single `mimic`. -/
def soleMimic? (body : Block) : Option Expr :=
  match body.filter fun command => !command.isInert with
  | [.mimic target] => some target
  | _ => none

/-- The tile that a block hands its event to, if that is all it does. -/
def delegationTarget? (body : Block) : Codegen (Option (Int64 × String)) :=
  match soleMimic? body with
  | none => return none
  | some target => do
      match ← foldTile target with
      | .tile id name => return some (id, name)
      | _ => return none

/-- The left side of the assignment of a handler to the table of its script. -/
def handlerField (table event : String) : String :=
  if Lua.isIdentifier event then table ++ "." ++ event
  else table ++ "[" ++ Lua.quote event ++ "]"

/-- Records that a handler only delegates, if it does. -/
def recordDelegation (owner event : String) (body : Block) : Codegen Unit := do
  match ← delegationTarget? body with
  | none => return ()
  | some (id, name) =>
      note (.handlerDelegates owner event id name)
      modify fun state =>
        let delegation := { owner, event, targetId := id, targetName := name }
        { state with delegations := state.delegations ++ [delegation] }

/-- The text of a handler, assigned to the table of its owner. The script's own object is an alias
of `root`, or of the owner's table when `root` is empty.
-/
def handler (script : Script) (owner root : String) (handler : Handler) : Codegen String := do
  note (.compilingHandler owner handler.event)
  let table := Engine.scriptTable owner
  modify fun state => { state with root := if root.isEmpty then table else root }
  let body ← dispatchingOn Engine.ownObject (block script .own handler.block)
  recordDelegation owner handler.event (← ofExcept (script.block handler.block))
  return handlerField table handler.event ++ " = function(__actor, event, __evname)\n" ++ body
    ++ "end\n"

end TileLua.Codegen
