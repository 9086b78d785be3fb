import TileLua.Delegation
import TileLua.Json.Printer
import TileLua.Problem
import TileLua.Route
import TileLua.Settings

/-! What a run hands back besides the generated code. -/

namespace TileLua

/-- A position as JSON. -/
def Location.toJson (location : Location) : Json :=
  .obj [("script", .str location.script), ("block", .int location.block),
    ("command", .int location.command)]

/-- A diagnostic as JSON. -/
def Diagnostic.toJson (diagnostic : Diagnostic) : Json :=
  .obj [("level", .str diagnostic.severity.name), ("message", .str diagnostic.message),
    ("issuer", .str diagnostic.issuer),
    ("location", (diagnostic.location.map Location.toJson).getD .null)]

/-- The results of a run that are not code. -/
structure Report where
  diagnostics : List Diagnostic := []
  settings : Settings := {}
  routes : Routes := {}
  delegations : List Delegation := []
  deriving Inhabited

namespace Report

/-- Whether there was no problem. -/
def isClean (report : Report) : Bool :=
  report.diagnostics.isEmpty

/-- The number of diagnostics of a severity. -/
def count (report : Report) (severity : Severity) : Nat :=
  report.diagnostics.countP fun diagnostic => diagnostic.severity == severity

/-- The messages in order, each where it first occurs. -/
def messages (report : Report) : List String :=
  (report.diagnostics.map Diagnostic.message).eraseDups

/-- The report as JSON; the pretty text of it lists the parts in this order. -/
def toJson (report : Report) : Json :=
  .obj [("diagnostics", .arr (report.diagnostics.map Diagnostic.toJson)),
    ("extension_config", report.settings.toJson),
    ("script_tags", report.routes.toJson),
    ("full_delegation_records", .arr (report.delegations.map Delegation.toJson))]

/-- An overview of the report in numbers. -/
def summary (report : Report) : Json :=
  .obj [("diagnostics", .int report.diagnostics.length),
    ("errors", .int (report.count .error)),
    ("script_tags", .int report.routes.size),
    ("delegations", .int report.delegations.length),
    ("pdxinfo", report.settings.pdxInfoJson),
    ("ptl", report.settings.ptlJson)]

end Report

end TileLua
