import Dataflow.Proofs.Decimal.Accepted
import Dataflow.Proofs.Interpreter.Reread
import Dataflow.Proofs.Literal.Escape
import Dataflow.Proofs.Module.Literals
import Dataflow.Proofs.Module.Nesting
import Dataflow.Proofs.Module.Settled
import Mathlib.Data.List.DropRight
set_option autoImplicit false

-- A literal that is bound to a port evaluates to what its text spells.
namespace Dataflow

namespace Interpreter
open Literal Dataflow.Module TypeTable

/-! ### Decimals -/

section Marks
variable {front tail : List Char}

end Marks

section Functions
variable {m changed : Module} {id : NodeId} {name : String}

end Functions

end Interpreter

end Dataflow
