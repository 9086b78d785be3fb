import TileLua.Directive

/-! What a run tells while it works. -/

namespace TileLua

/-- What happened. -/
inductive Notice
  | tileTableNotArray
  | tileSkipped (index : Nat)
  | tileFolded (name : String) (id : Int64)
  | scriptTableMissing
  | scriptSkipped (index : Nat)
  | scriptDecoded (name : String) (handlers blocks : Nat)
  | compilingScript (name kind : String) (id : Int64) (handlers : Nat)
  | compilingHandler (owner event : String)
  | handlerDelegates (owner event : String) (id : Int64) (name : String)
  | bindingCached (binding : String)
  | bindingOutsideFunction (binding : String)
  | settingRead (group : SettingGroup) (key value : String)
  | routeAdded (name script handler : String)
  /-- A problem when it is met. -/
  | problem (message : String)
  /-- A problem listed at the end of the run. -/
  | listed (message : String)
  deriving DecidableEq, Inhabited, Repr

/-- How much attention a notice asks for, most first. -/
inductive Notice.Level
  | warn
  | info
  | debug
  | trace
  deriving DecidableEq, Inhabited, Repr

/-- Levels by number, the most severe first. -/
def Notice.Level.rank : Notice.Level → Nat
  | warn => 0
  | info => 1
  | debug => 2
  | trace => 3

/-- A level as log lines show it. -/
def Notice.Level.label : Notice.Level → String
  | warn => "WARN"
  | info => "INFO"
  | debug => "DEBUG"
  | trace => "TRACE"

namespace Notice

/-- The level of a notice. -/
def level : Notice → Level
  | tileTableNotArray | tileSkipped _ | scriptTableMissing | scriptSkipped _
  | bindingOutsideFunction _ | problem _ => .warn
  | listed _ => .info
  | scriptDecoded .. | compilingScript .. | compilingHandler .. | handlerDelegates ..
  | settingRead .. => .debug
  | tileFolded .. | bindingCached _ | routeAdded .. => .trace

/-- The wording of a notice. -/
def text : Notice → String
  | tileTableNotArray => "tile table is not an array; no tile names will be folded"
  | tileSkipped index => "skipping peculiar entry " ++ toString index ++ " in tiles table"
  | tileFolded name id => "folded tile '" ++ name ++ "' to id " ++ toString id
  | scriptTableMissing => "export has no script table"
  | scriptSkipped index =>
      "peculiar entry " ++ toString index ++ " in script table, expected an object"
  | scriptDecoded name handlers blocks =>
      "decoded script '" ++ name ++ "': " ++ toString handlers ++ " handlers, " ++ toString blocks
        ++ " blocks"
  | compilingScript name kind id handlers =>
      "compiling script '" ++ name ++ "' (" ++ kind ++ " " ++ toString id ++ ") with "
        ++ toString handlers ++ " handlers"
  | compilingHandler owner event => "compiling handler " ++ owner ++ "." ++ event
  | handlerDelegates owner event id name =>
      "handler " ++ owner ++ "." ++ event ++ " delegates entirely to tile " ++ toString id ++ " ("
        ++ name ++ ")"
  | bindingCached binding => "cached binding: " ++ binding
  | bindingOutsideFunction binding =>
      "binding '" ++ binding ++ "' requested outside any function scope"
  | settingRead group key value =>
      "extension setting " ++ group.name ++ " " ++ key ++ " = " ++ value
  | routeAdded name script handler =>
      "registered script tag " ++ name ++ " -> " ++ script ++ "." ++ handler
  | problem message => message
  | listed message => "--" ++ message

end Notice

end TileLua
