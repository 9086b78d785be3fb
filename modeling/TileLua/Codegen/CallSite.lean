import TileLua.Codegen.Comment
import TileLua.Codegen.Expr

/-! Calls of event handlers.
A call looks the event up on the object that the surrounding code dispatches on, and falls back to
that object's handler for any event. On the script's own object the events are known, so a fixed
name is resolved at once. Tags can drop the fallback or route the call to another script.
-/

namespace TileLua.Codegen

/-- The parts of a call that depend on what it names. -/
structure CallForm where
  /-- The handler looked up on the dispatch object. -/
  callee : String
  /-- The event as an argument. -/
  event : String
  /-- The name of the handler. -/
  handler : String
  /-- Whether the name is fixed. -/
  isFixed : Bool
  deriving DecidableEq, Inhabited, Repr

/-- How a call is dispatched: the function that it calls, and the remark after it. -/
structure Dispatch where
  function : String
  remark : String
  deriving DecidableEq, Inhabited, Repr

/-- The form of a call on an object. -/
def callForm (write : BlockWriter) (object : String) : Callee → Codegen CallForm
  | .name event =>
      let callee :=
        if Lua.isIdentifier event then object ++ "." ++ event
        else object ++ "[" ++ Lua.quote event ++ "]"
      return { callee, event := Lua.quote event, handler := event, isFixed := true }
  | .computed event => do
      let text ← expr write event
      let handler := match event with
        | .str name => name
        | _ => text
      return { callee := object ++ "[" ++ text ++ "]", event := text, handler, isFixed := false }

/-- The dispatch before what is known about the script: to the handler or else to the one for any
event, or with the tag for it to the handler alone.
-/
def lookupDispatch (tags : Annotations) (object : String) (form : CallForm) : Dispatch :=
  let remark := "--[call \"" ++ Lua.escape form.handler ++ "\"]"
  if tags.direct then { function := form.callee, remark := remark ++ " [DIRECT]" }
  else { function := ";(" ++ form.callee ++ " or " ++ object ++ ".any)", remark }

/-- The dispatch on the script's own object, where it is known whether the script handles the
event.
-/
def ownDispatch (tags : Annotations) (known : Bool) (form : CallForm) (found : Dispatch)
    : Dispatch :=
  if !form.isFixed then found
  else if known then { function := form.callee, remark := "" }
  else if tags.direct then found
  else
    { function := Engine.ownObject ++ ".any"
      remark := found.remark ++ " [doesn't exist, so any]" }

/-- The local declaration of the script's own object. -/
def ownBinding (root : String) : String :=
  "local " ++ Engine.ownObject ++ " = " ++ root ++ " --[this script]"

/-- The dispatch after the routing tags, of which the last decides. -/
def routedDispatch (handler : String) (found : Dispatch) : List RouteTag → Codegen Dispatch
  | [] => return found
  | tag :: rest => do
      let function ← route { script := tag.script, handler }
      routedDispatch handler { function, remark := found.remark ++ " " ++ tag.text } rest

/-- The text of a call, with its remark if there is one. -/
def Dispatch.text (dispatch : Dispatch) (event : String) : String :=
  let statement := dispatch.function ++ "(__actor, event, " ++ event ++ ") " ++ dispatch.remark
  String.ofList (Text.trimEnd statement.toList)

/-- The text of a call of an event handler. -/
def callSite (write : BlockWriter) (tags : Annotations) (callee : Callee) : Codegen String := do
  let object := (← get).dispatchObject
  let form ← callForm write object callee
  let found := lookupDispatch tags object form
  let dispatch ←
    if object = Engine.ownObject then do
      bindLocal (ownBinding (← get).root)
      pure (ownDispatch tags ((← get).ownEvents.contains form.handler) form found)
    else pure found
  let dispatch ← routedDispatch form.handler dispatch tags.routes
  return dispatch.text form.event

end TileLua.Codegen
