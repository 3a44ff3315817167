import Dataflow.Proofs.Module.Literals
import Dataflow.Proofs.Module.Stepwise
import Dataflow.Proofs.Module.Used
set_option autoImplicit false

-- A step of construction that is refused leaves the module as it was. Most steps look before they change
-- anything; a literal is bound after its type was added, so there the steps after that have to succeed.
namespace Dataflow.Module
open Edit TypeTable

section Literals
variable {m changed : Module} {value : HostValue} {error : Error}

end Literals

/-! ### Requests -/

section Requests
variable {m : Module} {request : Request}

end Requests

end Dataflow.Module
