import TileLua.Json.Printer
import TileLua.Problem

/-! Defects that stop a run.
A defect is a cause: either the export breaks a shape that decoding relies on, or a decoded script
breaks an invariant of its block table. A failure is how a defect is told.
-/

namespace TileLua

/-- What kind of rule a failure breaks. -/
inductive Failure.Kind
  | decoding
  | structural
  deriving DecidableEq, Inhabited, Repr

/-- A fatal error as it is told. -/
structure Failure where
  kind : Failure.Kind
  message : String
  /-- The part of the compiler that noticed the defect. -/
  issuer : String
  location : Option Location
  deriving DecidableEq, Inhabited, Repr

/-- Every failure is critical. -/
def Failure.severity (_ : Failure) : Severity :=
  .critical

/-- The message with its position, if any. -/
def Failure.sentence (failure : Failure) : String :=
  match failure.location, failure.kind with
  | some location, .decoding => failure.message ++ " (at " ++ location.text ++ ")"
  | some location, .structural => failure.message ++ " at " ++ location.text
  | none, _ => failure.message

/-- The failure as one line with all of its parts. -/
def Failure.line (failure : Failure) : String :=
  let place := (failure.location.map Location.text).getD "unknown"
  "PULPLUA | " ++ failure.severity.label ++ " | " ++ place ++ " | " ++ failure.issuer ++ " | "
    ++ failure.message

/-- The failure as an error report for the user. -/
def Failure.report (failure : Failure) : String :=
  let place := (failure.location.map Location.text).getD "unknown location"
  "PULPLUA | " ++ failure.severity.label ++ " | " ++ place ++ " | " ++ failure.message

/-- A defect of an export. -/
inductive Defect
  | missingOperand (tag : String) (index : Nat)
  | nameExpected (tag : String) (index : Nat) (found : Json)
  | indexExpected (tag : String) (index : Nat) (found : Json)
  /-- A folded tile reference without a number. -/
  | tileIdExpected
  | conditionExpected (found : Json)
  | unknownComparison (tag : String)
  | blockExpected (found : Json)
  | randomArity (count : Nat)
  /-- A `while` with continuations. -/
  | whileContinued
  | continuationExpected (found : Json)
  | unknownContinuation (tag : String)
  | scriptNotObject (script : String) (found : Json)
  | blockNotArray (script : String) (index : Nat)
  /-- A reference to a block that the table of `count` blocks does not have. -/
  | missingBlock (script : String) (index count : Nat)
  /-- A `tell` compiled in place whose first operand is not a block. -/
  | tellWithoutBlock (label : String)
  /-- A block nested in itself: its text would have no end. -/
  | endlessBlock (script : String) (index : Nat)
  deriving Inhabited

namespace Defect

/-- The kind of rule that a defect breaks. -/
def kind : Defect → Failure.Kind
  | missingBlock .. | tellWithoutBlock _ | endlessBlock .. => .structural
  | _ => .decoding

/-- The wording of a defect. -/
def message : Defect → String
  | missingOperand tag index => "'" ++ tag ++ "' is missing operand " ++ toString index
  | nameExpected tag index found =>
      "'" ++ tag ++ "' expects a name at operand " ++ toString index ++ ", found " ++ found.compact
  | indexExpected tag index found =>
      "'" ++ tag ++ "' expects an index at operand " ++ toString index ++ ", found "
        ++ found.compact
  | tileIdExpected => "'optimized-id' expects a numeric id"
  | conditionExpected found => "condition must be an array, found " ++ found.compact
  | unknownComparison tag => "unrecognized comparison operator '" ++ tag ++ "'"
  | blockExpected found => "expected a block reference, found " ++ found.compact
  | randomArity count => "wrong number of arguments for 'random': " ++ toString count
  | whileContinued => "'while' does not take elseif/else continuations"
  | continuationExpected found => "unrecognized block followup " ++ found.compact
  | unknownContinuation tag => "unrecognized block followup '" ++ tag ++ "'"
  | scriptNotObject script found =>
      "script '" ++ script ++ "' data must be an object, found " ++ found.compact
  | blockNotArray _ index => "block " ++ toString index ++ " is not an array"
  | missingBlock _ index count =>
      "block " ++ toString index ++ " does not exist (table has " ++ toString count ++ " blocks)"
  | tellWithoutBlock label => "'tell " ++ label ++ " to' must be followed by a block"
  | endlessBlock _ index => "block " ++ toString index ++ " is nested in itself"

/-- The part of the compiler that notices a defect. -/
def issuer : Defect → String
  | missingOperand .. | nameExpected .. | indexExpected .. | tileIdExpected
  | conditionExpected _ | unknownComparison _ | blockExpected _ => "pulplua.ast.expr"
  | randomArity _ | whileContinued | continuationExpected _
  | unknownContinuation _ => "pulplua.ast.stmt"
  | scriptNotObject .. | blockNotArray .. => "pulplua.ast.node"
  | missingBlock .. => "pulplua.ast.node.block"
  | tellWithoutBlock _ | endlessBlock .. => "pulplua.lower.stmt"

/-- The position that a defect is told with: the start of the block it concerns. -/
def location : Defect → Option Location
  | blockNotArray script index | missingBlock script index _ | endlessBlock script index =>
      some { script, block := index, command := 0 }
  | _ => none

/-- A defect as it is told. -/
def failure (defect : Defect) : Failure :=
  { kind := defect.kind, message := defect.message, issuer := defect.issuer,
    location := defect.location }

end Defect

end TileLua
