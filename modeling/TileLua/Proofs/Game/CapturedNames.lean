import TileLua.Proofs.Codegen.ComposedScripts
import TileLua.Proofs.Codegen.RoutedCalls
import TileLua.Proofs.Game.DelegationOrder
import TileLua.Proofs.Game.VariableTables

/-! Which variables of scripts capture names of the compiler's own.
A compiled game is composed of what its scripts give and of text of the compiler's own. The names in
that text keep apart from the variables that are declared, but for two kinds of them: the names
without a reserved lead, and the parameters of the functions that set locals with an underscore.
-/

namespace TileLua

-----------------------------------------------------------------------------------------
-- The scripts of a game are composed
-----------------------------------------------------------------------------------------

namespace Codegen

section

variable {origin : Origin}

end

end Codegen

namespace Game

open Codegen
open Text (between? between_eq_some linesOf linesOf_join_append splitLines)

section

variable {origin : Origin} {state : State}

namespace Finished

end Finished

end

-----------------------------------------------------------------------------------------
-- The names that are declared
-----------------------------------------------------------------------------------------

end Game

end TileLua
