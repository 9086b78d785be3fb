import TileLua.Codegen.State
import TileLua.Lua
import TileLua.Script.Basic

/-! Comments in generated code, and the tags that comments attach to calls. -/

namespace TileLua

/-- A tag that routes a call: the script it names, and the text of the tag. -/
structure RouteTag where
  script : String
  text : String
  deriving DecidableEq, Inhabited, Repr

/-- The tags of a call. -/
structure Annotations where
  direct : Bool := false
  routes : List RouteTag := []
  deriving DecidableEq, Inhabited, Repr

namespace Annotations

/-- Whether there is no tag. -/
def isEmpty (tags : Annotations) : Bool :=
  !tags.direct && tags.routes.isEmpty

/-- Adds the tag of an earlier comment. -/
def add (tags : Annotations) (text : String) : Directive → Annotations
  | .direct => { tags with direct := true }
  | .script name => { tags with routes := { script := name, text } :: tags.routes }
  | _ => tags

/-- The tags in the run of comments that the given commands start with. -/
def after (script : Script) : List Command → Annotations
  | .comment index _ :: rest =>
      let tags := after script rest
      match script.comment? index with
      | some text => tags.add (Text.trim text) (Directive.parse (Text.trim text))
      | none => tags
  | _ => {}

end Annotations

namespace Codegen

/-- Takes over a setting that a directive gives; one without a key or a value is a problem. -/
def applySetting (directive : String) (group : SettingGroup) (key : String)
    : Option String → Codegen Unit
  | some value =>
      if key.isEmpty then meet (.malformedSetting directive)
      else do
        note (.settingRead group key value)
        modify fun state => { state with settings := state.settings.set group key value }
  | none => meet (.malformedSetting directive)

/-- The text of a comment, or its effect: settings and call tags leave no text. -/
def comment (script : Script) (index : Nat) (inline : Bool) : Codegen (Option String) :=
  match script.comment? index with
  | none => return some (Lua.comment "<comment missing>" inline)
  | some text =>
      match Directive.parse (Text.trim text) with
      | .lua code => return some code
      | .setting group key value => do
          applySetting (Text.trim text) group key value
          return none
      | .direct => return none
      | .script _ => return none
      | .tag _ => return some (Lua.comment text inline)
      | .text => return some (Lua.comment text inline)

end Codegen

end TileLua
