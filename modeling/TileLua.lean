import TileLua.Game.Compile
import TileLua.Json.Reader
import TileLua.Proofs.Codegen.CallArguments
import TileLua.Proofs.Codegen.CallRemarks
import TileLua.Proofs.Codegen.CallResolution
import TileLua.Proofs.Codegen.CallTags
import TileLua.Proofs.Codegen.ChainOrder
import TileLua.Proofs.Codegen.ComposedExpressions
import TileLua.Proofs.Codegen.ComposedScripts
import TileLua.Proofs.Codegen.DelegatingHandler
import TileLua.Proofs.Codegen.EmbeddedComments
import TileLua.Proofs.Codegen.FlatChains
import TileLua.Proofs.Codegen.Fragments
import TileLua.Proofs.Codegen.Journal
import TileLua.Proofs.Codegen.LeftoverEvents
import TileLua.Proofs.Codegen.LineComments
import TileLua.Proofs.Codegen.Noninterference
import TileLua.Proofs.Codegen.RoutedCalls
import TileLua.Proofs.Codegen.Run
import TileLua.Proofs.Codegen.ScopeBindings
import TileLua.Proofs.Codegen.Sequential
import TileLua.Proofs.Codegen.StackDiscipline
import TileLua.Proofs.Codegen.StepInvariant
import TileLua.Proofs.Codegen.StructuralDefects
import TileLua.Proofs.Codegen.Surroundings
import TileLua.Proofs.Codegen.Tour
import TileLua.Proofs.Codegen.UseCounts
import TileLua.Proofs.Codegen.VariableReads
import TileLua.Proofs.Codegen.VariableUses
import TileLua.Proofs.Codegen.Visit
import TileLua.Proofs.Directive.Forms
import TileLua.Proofs.Directive.Grammar
import TileLua.Proofs.Directive.ParsingExpressions
import TileLua.Proofs.Directive.Settings
import TileLua.Proofs.Game.AccessByName
import TileLua.Proofs.Game.CapturedNames
import TileLua.Proofs.Game.DelegationOrder
import TileLua.Proofs.Game.DelegationTable
import TileLua.Proofs.Game.Diagnostics
import TileLua.Proofs.Game.JunkEntries
import TileLua.Proofs.Game.VariableAccess
import TileLua.Proofs.Game.VariableTables
import TileLua.Proofs.Json.CompactTexts
import TileLua.Proofs.Lua.CarriageReturns
import TileLua.Proofs.Lua.CommentLexing
import TileLua.Proofs.Lua.QuotedLiterals
import TileLua.Proofs.Lua.Scoping
import TileLua.Proofs.Lua.WrittenComments
import TileLua.Proofs.Route.Names
import TileLua.Proofs.Script.RegistryNames
import TileLua.Proofs.Script.RegistryRuns
import TileLua.Proofs.Syntax.Encoding
import TileLua.Proofs.Syntax.Reading
import TileLua.Proofs.Syntax.Unambiguous
import TileLua.Proofs.Text.Lines
import TileLua.Proofs.Variable.Names
