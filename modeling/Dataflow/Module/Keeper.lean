import Dataflow.Module
set_option autoImplicit false

namespace Dataflow.Module

def bind (inlet : Inlet) (binding : Binding) : Module → Module :=
  modifyNode inlet.node
    (Node.modifyInput inlet.port fun input => { input with binding := some binding })

def unbind (inlet : Inlet) : Module → Module :=
  modifyNode inlet.node (Node.modifyInput inlet.port fun input => { input with binding := none })

def connect (source : Outlet) (target : Inlet) (m : Module) : Module :=
  let bound := bind target (.wire source m.stamp) m
  { modifyNode source.node (Node.modifyOutput source.port id) bound with stamp := m.stamp + 1 }

def hold (inlet : Inlet) (literal : Literal) : Module → Module :=
  bind inlet (.literal literal)

def register (id : NodeId) (_ : String) (m : Module) : Module :=
  { m with functions := m.functions ++ [id] }

/-- What keeps a module. Its frame are the types, the nodes with their ports and the functions; what
feeds an input is not looked up there. -/
class Keeper (σ : Type) (τ : outParam Type) where
  start : Module → σ
  frame : σ → Module
  mapFrame : (Module → Module) → σ → σ
  onFrame : {α : Type} → Change α → Edit σ α
  types : σ → τ
  onTypes : {α : Type} → Edit τ α → Edit σ α
  register : NodeId → String → σ → σ
  connect : Outlet → Inlet → σ → σ
  hold : Inlet → Literal → σ → σ
  inputType? : σ → Inlet → Option TypeId
  view : σ → Module

instance : Keeper Module TypeTable where
  start m := m
  frame m := m
  mapFrame change := change
  onFrame change := change
  types m := m.types
  onTypes change := onTypes change
  register := register
  connect := connect
  hold := hold
  inputType? := inputType?
  view m := m

end Dataflow.Module
