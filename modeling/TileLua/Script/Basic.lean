import TileLua.Syntax.Decode.Command
import TileLua.Text

/-! Scripts as an export holds them: handlers by event, a table of blocks and a table of comments.
Names with two leading underscores in a script's object are not events.
-/

namespace TileLua

/-- A handler: an event and the index of the block that is its body. -/
structure Handler where
  event : String
  block : Nat
  deriving DecidableEq, Inhabited, Repr

/-- A script. -/
structure Script where
  /-- The name that messages give. -/
  name : String
  handlers : List Handler := []
  blocks : List Block := []
  comments : List String := []
  deriving Inhabited

namespace Script

/-- Reads the blocks of a table from the one with that index. -/
def blocksOfJson (script : String) : (index : Nat) → List Json → Except Defect (List Block)
  | _, [] => .ok []
  | index, .arr commands :: rest =>
      return (← Block.ofJson commands) :: (← blocksOfJson script (index + 1) rest)
  | index, _ :: _ => .error (.blockNotArray script index)

/-- The text of a comment: an absent one is empty, one that is no text is shown as JSON. -/
def commentOfJson : Json → String
  | .str text => text
  | .null => ""
  | other => other.compact

/-- Reads the handlers of a script in the order of its members. -/
def handlersOfJson : List (String × Json) → Except Defect (List Handler)
  | [] => .ok []
  | (event, value) :: rest =>
      if Text.startsWith event "__" then handlersOfJson rest
      else do
        let block ← blockIndexOfJson value
        return { event, block } :: (← handlersOfJson rest)

/-- Reads a script; an absent one is empty. -/
def ofJson (name : String) : Json → Except Defect Script
  | .obj members => do
      let object := Json.obj members
      let blocks ← match object.get? "__blocks" with
        | some (.arr blocks) => blocksOfJson name 0 blocks
        | _ => pure []
      let comments := match object.get? "__comments" with
        | some (.arr comments) => comments.map commentOfJson
        | _ => []
      let handlers ← handlersOfJson object.entries
      return { name, handlers, blocks, comments }
  | .null => .ok { name }
  | other => .error (.scriptNotObject name other)

/-- The block at an index of the table. -/
def block (script : Script) (index : Nat) : Except Defect Block :=
  match script.blocks[index]? with
  | some commands => .ok commands
  | none => .error (.missingBlock script.name index script.blocks.length)

/-- The comment at an index of the table. -/
def comment? (script : Script) (index : Nat) : Option String :=
  script.comments[index]?

/-- The events that the script handles, in order. -/
def events (script : Script) : List String :=
  script.handlers.map Handler.event

end Script

end TileLua
