import TileLua.Proofs.Codegen.ComposedExpressions
import TileLua.Proofs.Codegen.DelegatingHandler
import TileLua.Proofs.Codegen.LineComments

/-! The texts of commands, blocks, handlers and scripts are composed.
A call is followed by a remark and by its tags, which are comments of the script. A line of a block
is a command after its margin, so no name goes on from one line to the next.
-/

namespace TileLua.Codegen

section

variable {origin : Origin}

-----------------------------------------------------------------------------------------
-- Calls of event handlers
-----------------------------------------------------------------------------------------

section

variable {write : BlockWriter}
  (blocks : ∀ scope index, Writes origin (write scope index) (Closed origin))
include blocks

end

end

end TileLua.Codegen
