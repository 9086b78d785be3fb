/-! Problems that a run reports and survives.
A problem is a cause; a diagnostic is its record, with a severity and the position of the command
being compiled.
-/

namespace TileLua

/-- The position of a command: the script, the index of the block in the script's table, and
the index of the command in the block.
-/
structure Location where
  script : String
  block : Nat
  command : Nat
  deriving DecidableEq, Inhabited, Repr

/-- A position as messages show it. -/
def Location.text (location : Location) : String :=
  location.script ++ ":" ++ toString location.block ++ ":" ++ toString location.command

/-- How severe a message is. -/
inductive Severity
  | info
  | warning
  | error
  | critical
  deriving DecidableEq, Inhabited, Repr

/-- A severity as messages show it. -/
def Severity.label : Severity → String
  | info => "INFO"
  | warning => "WARNING"
  | error => "ERROR"
  | critical => "CRITICAL"

/-- A severity as reports name it. -/
def Severity.name : Severity → String
  | info => "Info"
  | warning => "Warning"
  | error => "Error"
  | critical => "Critical"

/-- The record of a problem. -/
structure Diagnostic where
  severity : Severity
  message : String
  /-- The part of the compiler that noticed the problem. -/
  issuer : String
  location : Option Location
  deriving DecidableEq, Inhabited, Repr

/-- A diagnostic as a line of text. -/
def Diagnostic.text (diagnostic : Diagnostic) : String :=
  match diagnostic.location with
  | some location =>
      diagnostic.severity.label ++ " | " ++ location.text ++ " | " ++ diagnostic.message
  | none => diagnostic.severity.label ++ " | " ++ diagnostic.message

/-- A problem that does not stop the run. -/
inductive Problem
  | unknownCommand (tag : String)
  | unknownExpression (tag : String)
  /-- A setting directive without a key or without a value. -/
  | malformedSetting (directive : String)
  | unknownScriptType (code id : Int64)
  /-- A script whose owner has no name. -/
  | unknownOwner (code id : Int64)
  deriving DecidableEq, Inhabited, Repr

/-- The wording of a problem. -/
def Problem.message : Problem → String
  | unknownCommand tag => "unknown command code: " ++ tag
  | unknownExpression tag => "unknown expression code: " ++ tag
  | malformedSetting directive => "malformed setting directive: " ++ directive
  | unknownScriptType code id =>
      "unknown script type " ++ toString code ++ " for script " ++ toString id
  | unknownOwner code id => "unknown script, type " ++ toString code ++ ", id " ++ toString id

/-- The part of the compiler that notices a problem. -/
def Problem.issuer : Problem → String
  | unknownCommand _ => "pulplua.lower.stmt"
  | unknownExpression _ => "pulplua.lower.expr"
  | malformedSetting _ => "pulplua.lower.directive"
  | unknownScriptType _ _ => "pulplua.script"
  | unknownOwner _ _ => "pulplua.script"

/-- The record of a problem met at a position. -/
def Problem.diagnostic (problem : Problem) (location : Option Location) : Diagnostic :=
  { severity := .error, message := problem.message, issuer := problem.issuer, location }

end TileLua
