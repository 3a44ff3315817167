import Dataflow.Graph.Node
import Dataflow.Type.Table
set_option autoImplicit false

/- A module: its types, its nodes and its functions. Nodes are kept in the order of creation, and a
node's place is its id. -/
namespace Dataflow

structure Module where
  types : TypeTable
  nodes : Array Node
  functions : List NodeId
  pragmas : SortedMap Char String
  stamp : Nat
deriving DecidableEq

namespace Module

def withTypes (types : TypeTable) : Module :=
  ⟨types, #[], [], .empty, 0⟩

def empty : Module :=
  withTypes .empty

def initial : Module :=
  withTypes .builtin

instance : Inhabited Module := ⟨empty⟩

def node (m : Module) (id : NodeId) : Except Error Node :=
  match m.nodes[id]? with
  | some node => .ok node
  | none => .error (.nodeNotFound id)

def graph (m : Module) (id : NodeId) : Except Error Node := do
  let node ← m.node id
  if node.isGraph then pure node else throw (.notAGraph id)

def owner (m : Module) (id : NodeId) : Except Error (Option NodeId) := do
  let node ← m.node id
  match node.role with
  | .node graph => pure (some graph)
  | .subgraph compound => pure (some compound)
  | .function _ => pure none

/-- The graph in which a node's ports carry values: a graph's own, and else the one that holds
the node. -/
def scopeOf (m : Module) (id : NodeId) : Except Error NodeId := do
  let node ← m.node id
  match node.role with
  | .node graph => pure graph
  | _ => pure id

/-- The place of a node in its graph, from 1; a graph calls itself 0. -/
def label (m : Module) (id : NodeId) : Except Error Nat := do
  let node ← m.node id
  match node.role with
  | .node graph =>
      let owner ← m.graph graph
      match owner.nodes.idxOf? id with
      | some place => pure (place + 1)
      | none => throw (.invalidGraph (.unlisted id graph))
  | _ => pure 0

def input? (m : Module) (inlet : Inlet) : Option Input :=
  m.nodes[inlet.node]?.bind (·.inputs.get? inlet.port)

def output? (m : Module) (outlet : Outlet) : Option Output :=
  m.nodes[outlet.node]?.bind (·.outputs.get? outlet.port)

def binding? (m : Module) (inlet : Inlet) : Option Binding :=
  (m.input? inlet).bind (·.binding)

def literal? (m : Module) (inlet : Inlet) : Option Literal :=
  (m.input? inlet).bind Input.literal?

def source? (m : Module) (inlet : Inlet) : Option Outlet :=
  (m.input? inlet).bind Input.source?

def outputType? (m : Module) (outlet : Outlet) : Option TypeId :=
  (m.output? outlet).bind (·.type)

def inputType? (m : Module) (inlet : Inlet) : Option TypeId :=
  match m.binding? inlet with
  | some (.literal literal) => literal.type
  | some (.wire source _) => m.outputType? source
  | none => none

def consumers (m : Module) (outlet : Outlet) : List Inlet :=
  let wires := m.nodes.toList.zipIdx.flatMap fun (node, id) =>
    (node.wiresFrom outlet.node).map fun wire => (wire, (⟨id, wire.targetPort⟩ : Inlet))
  let here := wires.filter (·.1.sourcePort = outlet.port)
  (here.mergeSort fun first second => first.1.stamp ≤ second.1.stamp).map (·.2)

/-- The latest function of a name. -/
def function? (m : Module) (name : String) : Option NodeId :=
  m.functions.reverse.find? fun id => (m.nodes[id]?.bind Node.functionName?) == some name

def functionName (m : Module) (id : NodeId) : Except Error String := do
  let node ← m.node id
  match node.functionName? with
  | some name => pure name
  | none => throw (.notAFunction id)

abbrev Change (α : Type) := Edit Module α

def onTypes {α : Type} (change : TypeTable.Change α) : Change α :=
  Edit.within (·.types) (fun types m => { m with types := types }) change

def modifyNode (id : NodeId) (change : Node → Node) (m : Module) : Module :=
  { m with nodes := m.nodes.modify id change }

def setPragma (key : Char) (text : String) (m : Module) : Module :=
  { m with pragmas := m.pragmas.insert key text }

def removePragma (key : Char) (m : Module) : Module :=
  { m with pragmas := m.pragmas.erase key }

end Module

end Dataflow
