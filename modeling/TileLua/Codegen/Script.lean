import TileLua.Codegen.Handler
import TileLua.Script.Registry

/-! Lua text of whole scripts, and of all scripts of an export. -/

namespace TileLua

/-- The statements that register a script with the engine. -/
def Registry.Entry.header (entry : Registry.Entry) : String :=
  let name := Lua.quote entry.name
  "\n----------------- " ++ entry.name ++ " ----------------------------\n\n"
    ++ "__pulp:newScript(" ++ name ++ ")\n"
    ++ entry.slot ++ " = " ++ Engine.scriptTable entry.name ++ "\n"
    ++ "__pulp:associateScript(" ++ name ++ ", \"" ++ entry.kind.word ++ "\", " ++ toString entry.id
    ++ ")\n"

namespace Codegen

/-- The texts of handlers, each after a blank line. -/
def handlers (script : Script) (entry : Registry.Entry) : List Handler → Codegen String
  | [] => return ""
  | first :: rest => do
      let text ← handler script entry.name entry.slot first
      return "\n" ++ text ++ (← handlers script entry rest)

/-- The text of a script: its registration, then its handlers. All of its events are known before
the first handler is compiled, so calls of later ones are resolved too.
-/
def script (entry : Registry.Entry) (script : Script) : Codegen String := do
  note (.compilingScript entry.name entry.kind.word entry.id script.handlers.length)
  modify fun state => { state with ownEvents := .ofList script.events }
  let text ← handlers script entry script.handlers
  modify fun state => { state with ownEvents := {} }
  return entry.header ++ text

/-- Reads a script. -/
def readScript (name : String) (data : Json) : Codegen Script := do
  let script ← ofExcept (Script.ofJson name data)
  if data.isObject then
    note (.scriptDecoded name script.handlers.length script.blocks.length)
  return script

/-- Registers a script; an owner without a name is a problem. -/
def register (registry : Registry) (kind : ScriptKind) (id : Int64)
    : Codegen (Registry.Entry × Registry) := do
  if (registry.ownerName? kind id).isNone then meet (.unknownOwner kind.code id)
  return registry.register kind id

/-- The text of an entry of the script table that is an object, with the registry after it. -/
def scriptEntry (registry : Registry) (object : Json) : Codegen (String × Registry) := do
  let id := ((object.get? "id").bind Json.asWord?).getD 0
  let code := ((object.get? "type").bind Json.asWord?).getD (-1)
  match ScriptKind.ofCode? code with
  | none =>
      meet (.unknownScriptType code id)
      return ("", registry)
  | some kind =>
      let (entry, registry) ← register registry kind id
      let source ← match object.get? "data" with
        | some data => readScript entry.name data
        | none => pure { name := entry.name }
      return (← script entry source, registry)

/-- The texts of the entries of the script table from the one with that index. -/
def scriptEntries (registry : Registry) : (index : Nat) → List Json → Codegen String
  | _, [] => return ""
  | index, first :: rest =>
      if first.isObject then do
        let (text, registry) ← scriptEntry registry first
        return text ++ (← scriptEntries registry (index + 1) rest)
      else do
        note (.scriptSkipped index)
        scriptEntries registry (index + 1) rest

/-- The text of all scripts of an export, in the order of its script table. -/
def scripts (game : Json) : Codegen String :=
  match game.get? "scripts" with
  | some (.arr entries) => scriptEntries (Registry.ofJson game) 0 entries
  | _ => do
      note .scriptTableMissing
      return ""

end Codegen

end TileLua
