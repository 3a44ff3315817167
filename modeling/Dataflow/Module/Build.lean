import Dataflow.Module.Keeper
set_option autoImplicit false

namespace Dataflow.Module

def append (node : Node) : Change NodeId := fun m =>
  .ok m.nodes.size { m with nodes := m.nodes.push node }

section Functions
variable {σ τ : Type} [Keeper σ τ]

def addFunctionOf (op : Opcode) (name : String) : Edit σ NodeId := do
  let id ← Keeper.onFrame (append { opcode := op, role := .function name })
  modify (Keeper.register id name)
  pure id

/-- Registers an empty function. It takes over its name from an earlier function. -/
def addFunction (name : String) : Edit σ NodeId :=
  addFunctionOf .xGraph name

def addFunctionWith (name : String) (op : Opcode) : Edit σ NodeId :=
  if op.isGraph then addFunctionOf op name else throw (.invalidGraph (.notAGraphKind op))

end Functions

def addNode (graph : NodeId) (op : Opcode) : Change NodeId := do
  let _ ← Edit.query (·.graph graph)
  let id ← append { opcode := op, role := .node graph }
  modify (modifyNode graph fun owner => { owner with nodes := owner.nodes ++ [id] })
  pure id

def appendChild (node graph : NodeId) : Module → Module :=
  modifyNode node fun owner => { owner with children := owner.children ++ [graph] }

def addGraph (node : NodeId) : Change NodeId := do
  let owner ← Edit.query (·.node node)
  if owner.isGraph then throw (.invalidGraph (.ownerIsGraph node))
  let id ← append { opcode := .xGraph, role := .subgraph node }
  modify (appendChild node id)
  pure id

def pushChild (node graph : NodeId) : Change Unit := do
  let child ← Edit.query (·.node graph)
  if child.role = .subgraph node then modify (appendChild node graph)
  else throw (.invalidGraph (.notAChild graph node))

def checkPort (port : Nat) : Except Error Unit :=
  if port = 0 then throw (.invalidPort port) else pure ()

def setOutput {σ τ : Type} [TypeTable.Keeper τ] [Keeper σ τ] (outlet : Outlet) (type : TypeId) : Edit σ Unit := do
  Edit.ofExcept (checkPort outlet.port)
  let _ ← Edit.query fun s : σ => TypeTable.Keeper.find (Keeper.types s) type
  let _ ← Edit.query fun s : σ => (Keeper.frame s).node outlet.node
  modify (Keeper.mapFrame (modifyNode outlet.node
    (Node.modifyOutput outlet.port fun output => { output with type := some type })))

def addInput (inlet : Inlet) : Change Unit := do
  Edit.ofExcept (checkPort inlet.port)
  let _ ← Edit.query (·.node inlet.node)
  modify (modifyNode inlet.node (Node.modifyInput inlet.port id))

def addOutput (outlet : Outlet) : Change Unit := do
  Edit.ofExcept (checkPort outlet.port)
  let _ ← Edit.query (·.node outlet.node)
  modify (modifyNode outlet.node (Node.modifyOutput outlet.port id))

def setNodePragmas (id : NodeId) (pragmas : Pragmas) : Module → Module :=
  modifyNode id fun node => { node with pragmas := pragmas }

def setInputPragmas (inlet : Inlet) (pragmas : Pragmas) : Module → Module :=
  modifyNode inlet.node (Node.modifyInput inlet.port fun input => { input with pragmas := pragmas })

def setOutputPragmas (outlet : Outlet) (pragmas : Pragmas) : Module → Module :=
  modifyNode outlet.node
    (Node.modifyOutput outlet.port fun output => { output with pragmas := pragmas })

def changeNodePragmas (id : NodeId) (change : PragmaChange) : Change Unit := do
  let node ← Edit.query (·.node id)
  let pragmas ← Edit.ofExcept (change.apply node.pragmas)
  modify (setNodePragmas id pragmas)

/-- The port is added first and stays when the change is refused. -/
def changeInputPragmas (inlet : Inlet) (change : PragmaChange) : Change Unit := do
  addInput inlet
  let old := (← get).input? inlet |>.getD {}
  let pragmas ← Edit.ofExcept (change.apply old.pragmas)
  modify (setInputPragmas inlet pragmas)

def changeOutputPragmas (outlet : Outlet) (change : PragmaChange) : Change Unit := do
  addOutput outlet
  let old := (← get).output? outlet |>.getD {}
  let pragmas ← Edit.ofExcept (change.apply old.pragmas)
  modify (setOutputPragmas outlet pragmas)

def setNodePragma (id : NodeId) (key : String) (value : PragmaValue) : Change Unit :=
  changeNodePragmas id (.set key value)

def setInputPragma (inlet : Inlet) (key : String) (value : PragmaValue) : Change Unit :=
  changeInputPragmas inlet (.set key value)

def setOutputPragma (outlet : Outlet) (key : String) (value : PragmaValue) : Change Unit :=
  changeOutputPragmas outlet (.set key value)

end Dataflow.Module
