import Dataflow.Proofs.Module.Nesting
import Dataflow.Proofs.Module.Writable
set_option autoImplicit false

-- Every type that something refers to was made at some time, so that one which is not in the list was
-- deleted. Requests other than deletions only refer to types in the list, or to those that were referred to.
namespace Dataflow.Module
open Edit TypeTable

section Steps
variable {m changed : Module}

end Steps

/-! ### Requests -/

section Known
variable {m changed : Module}

end Known

end Dataflow.Module
