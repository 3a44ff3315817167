import Dataflow.Module.Request
set_option autoImplicit false

/- Modules as they are kept: wires are edges apart from the ports, an input holds a literal or nothing,
each type has a mark that says whether it is live, and the latest function of a name is looked up. -/
namespace Dataflow

structure LiveTable where
  table : TypeTable
  live : Array Bool

namespace LiveTable

def isLive (types : LiveTable) (id : TypeId) : Bool :=
  types.live[id]?.getD false

def find (types : LiveTable) (id : TypeId) : Except Error TypeDef :=
  if types.isLive id then
    match types.table.arena[id]? with
    | some definition => .ok definition
    | none => .error (.typeNotFound id)
  else .error (.typeNotFound id)

def intern (types : LiveTable) (signature : Signature) : TypeId × LiveTable :=
  match types.table.index.lookup signature with
  | some id => (id, types)
  | none =>
      let (id, table) := types.table.intern signature
      (id, ⟨table, types.live.push true⟩)

def delete (id : TypeId) : Edit LiveTable Unit := do
  Edit.within (·.table) (fun table types => { types with table := table }) (TypeTable.delete id)
  modify fun types => { types with live := types.live.setIfInBounds id false }

instance : TypeTable.Keeper LiveTable where
  find := find
  intern := intern
  modifyPragmas change id types := { types with table := types.table.modifyPragmas change id }
  delete := delete

end LiveTable

def Node.fed (feed : Nat → Option Binding) (node : Node) : Node :=
  { node with inputs := node.inputs.mapValues fun port input => { input with binding := feed port } }

def Module.fed (feed : Inlet → Option Binding) (m : Module) : Module :=
  { m with nodes := m.nodes.mapIdx fun id node => node.fed fun port => feed ⟨id, port⟩ }

structure Edge where
  source : Outlet
  target : Inlet
  stamp : Nat
deriving DecidableEq

structure Store where
  /-- All but the wires. An input holds a literal or nothing. -/
  frame : Module
  live : Array Bool
  names : SortedMap String NodeId
  /-- The latest edge comes first. -/
  edges : List Edge

namespace Store

def start (m : Module) : Store :=
  ⟨m, Array.replicate m.types.arena.size true, .empty, []⟩

def types (s : Store) : LiveTable :=
  ⟨s.frame.types, s.live⟩

def withTypes (types : LiveTable) (s : Store) : Store :=
  { s with frame := { s.frame with types := types.table }, live := types.live }

def mapFrame (change : Module → Module) (s : Store) : Store :=
  { s with frame := change s.frame }

def register (id : NodeId) (name : String) (s : Store) : Store :=
  { s with frame := s.frame.register id name, names := s.names.insert name id }

def function? (s : Store) (name : String) : Option NodeId :=
  s.names.get? name

def literal? (s : Store) (inlet : Inlet) : Option Literal :=
  s.frame.literal? inlet

def edgeInto? (s : Store) (inlet : Inlet) : Option Edge :=
  s.edges.find? fun edge => edge.target = inlet

def source? (s : Store) (inlet : Inlet) : Option Outlet :=
  (s.edgeInto? inlet).map Edge.source

/-- A literal goes before an edge. -/
def binding? (s : Store) (inlet : Inlet) : Option Binding :=
  match s.literal? inlet with
  | some literal => some (.literal literal)
  | none => (s.edgeInto? inlet).map fun edge => .wire edge.source edge.stamp

def inputType? (s : Store) (inlet : Inlet) : Option TypeId :=
  match s.binding? inlet with
  | some (.literal literal) => literal.type
  | some (.wire source _) => s.frame.outputType? source
  | none => none

def outEdges (s : Store) (outlet : Outlet) : List Inlet :=
  let edges := s.edges.filter fun edge => edge.source = outlet
  (edges.mergeSort fun first second => first.stamp ≤ second.stamp).map Edge.target

/-- Drops whatever feeds an input port, which is added where it is new. -/
def detach (inlet : Inlet) (s : Store) : Store :=
  { s with
    frame := s.frame.unbind inlet
    edges := s.edges.filter fun edge => edge.target ≠ inlet }

def connect (source : Outlet) (target : Inlet) (s : Store) : Store :=
  let detached := s.detach target
  let declared := detached.frame.modifyNode source.node (Node.modifyOutput source.port id)
  { detached with
    frame := { declared with stamp := declared.stamp + 1 }
    edges := ⟨source, target, declared.stamp⟩ :: detached.edges }

def hold (inlet : Inlet) (literal : Literal) (s : Store) : Store :=
  (s.detach inlet).mapFrame (Module.bind inlet (.literal literal))

def view (s : Store) : Module :=
  s.frame.fed s.binding?

instance : Module.Keeper Store LiveTable where
  start := start
  frame := frame
  mapFrame := mapFrame
  onFrame change := Edit.within frame (fun frame s => { s with frame := frame }) change
  types := types
  onTypes change := Edit.within types withTypes change
  register := register
  connect := connect
  hold := hold
  inputType? := inputType?
  view := view

end Store

end Dataflow
