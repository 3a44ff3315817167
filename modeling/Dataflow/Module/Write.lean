import Dataflow.Module.FunctionType
import Dataflow.Record
set_option autoImplicit false

namespace Dataflow.Module

def typeLabel (m : Module) : Option TypeId → Except Error Nat
  | none => .ok 0
  | some type => m.types.label type

def labelled (m : Module) : Signature → Except Error Signature
  | .basic kind => .ok (.basic kind)
  | .wild => .ok .wild
  | .container kind base => do
      let base ← m.types.label base
      pure (.container kind base)
  | .link kind element rest => do
      let element ← m.types.label element
      let rest ← rest.mapM m.types.label
      pure (.link kind element rest)
  | .function arguments results => do
      let arguments ← arguments.mapM m.types.label
      let results ← m.types.label results
      pure (.function arguments results)

def typeRecord (m : Module) (type : TypeId) : Except Error TypeRecord := do
  let definition ← m.types.find type
  let label ← m.types.label type
  let signature ← m.labelled definition.signature
  pure ⟨label, signature, definition.pragmas⟩

def bindingRecord (m : Module) (label port : Nat) (input : Input) : Except Error (Option Record) :=
  match input.binding with
  | none => .ok none
  | some (.literal literal) => do
      let type ← m.typeLabel literal.type
      pure (some (.literal ⟨label, port, type, literal.text, input.pragmas⟩))
  | some (.wire source _) => do
      let sourceLabel ← m.label source.node
      let type ← m.typeLabel (m.outputType? source)
      let produced := (m.output? source).getD {}
      let pragmas := produced.pragmas.merge input.pragmas
      pure (some (.edge ⟨sourceLabel, source.port, label, port, type, pragmas⟩))

def bindingRecords (m : Module) (label : Nat) (node : Node) : Except Error (List Record) := do
  let records ← node.inputs.entries.mapM fun (port, input) => m.bindingRecord label port input
  pure (records.filterMap id)

def bodyRecords (m : Module) (inner : NodeId → Except Error (List Record)) (id : NodeId) :
    Except Error (List Record) := do
  let graph ← m.graph id
  let results ← m.bindingRecords 0 graph
  let nodes ← graph.nodes.mapM inner
  pure (results ++ nodes.flatten)

def subgraphRecords (m : Module) (inner : NodeId → Except Error (List Record)) (id : NodeId) :
    Except Error (List Record) := do
  let graph ← m.node id
  let body ← m.bodyRecords inner id
  pure (.graph graph.pragmas :: body)

/-- The records of a node that holds no graphs nested deeper than `depth`. Child graphs that are
listed more than once are written once, and the trailer says where they are listed. -/
def nodeRecords (m : Module) : Nat → NodeId → Except Error (List Record)
  | 0, id => .error (.nodeNotFound id)
  | depth + 1, id => do
      let node ← m.node id
      let label ← m.label id
      if node.children.isEmpty then
        let bindings ← m.bindingRecords label node
        pure (.node ⟨label, node.opcode, node.pragmas⟩ :: bindings)
      else
        let graphs := node.distinctChildren
        let bodies ← graphs.mapM (m.subgraphRecords (m.nodeRecords depth))
        let bindings ← m.bindingRecords label node
        let offsets := node.children.map fun child => graphs.idxOf child
        pure (.compound ⟨label, node.opcode⟩ :: bodies.flatten
          ++ .trailer ⟨label, node.opcode, offsets, node.pragmas⟩ :: bindings)

/-- Every nesting leads to a later node, so it is bounded by the number of nodes. -/
def depthBound (m : Module) : Nat :=
  m.nodes.size

def functionRecords (m : Module) (id : NodeId) (type : Option TypeId) :
    Except Error (List Record) := do
  let function ← m.node id
  let name ← m.functionName id
  let type ← m.typeLabel type
  let body ← m.bodyRecords (m.nodeRecords m.depthBound) id
  pure (.function ⟨type, name, function.pragmas⟩ :: body)

def preamble (m : Module) : Except Error (List Record) := do
  let types ← m.types.order.mapM m.typeRecord
  let pragmas := m.pragmas.entries.map fun (key, text) => Record.pragma key text
  pure (types.map Record.type ++ pragmas)

def renderLines (records : List Record) : String :=
  "\n".intercalate (records.map Record.render)

def textWith (m : Module) (types : List (Option TypeId)) : Except Error String := do
  let preamble ← m.preamble
  let functions ← (m.functions.zip types).mapM fun (id, type) => m.functionRecords id type
  let header := String.join (preamble.map fun record => record.render ++ "\n")
  pure (header ++ renderLines functions.flatten)

/-- The text of the module. The types of the functions become part of the module. -/
def toText {σ τ : Type} [TypeTable.Keeper τ] [Keeper σ τ] : Edit σ String := do
  let s : σ ← get
  let types ← (Keeper.frame s).functions.mapM functionType
  Edit.query fun s : σ => (Keeper.view s).textWith types

def typeText (m : Module) (type : TypeId) : Except Error String := do
  let record ← m.typeRecord type
  pure (Record.type record).render

def nodeText {σ τ : Type} [TypeTable.Keeper τ] [Keeper σ τ] (id : NodeId) : Edit σ String := do
  let node ← Edit.query fun s : σ => (Keeper.frame s).node id
  match node.role with
  | .function _ => do
      let type ← functionType id
      let records ← Edit.query fun s : σ => (Keeper.view s).functionRecords id type
      pure (renderLines records)
  | .subgraph _ => do
      let records ← Edit.query fun s : σ =>
        (Keeper.view s).subgraphRecords ((Keeper.view s).nodeRecords (Keeper.view s).depthBound) id
      pure (renderLines records)
  | .node _ => do
      let records ← Edit.query fun s : σ => (Keeper.view s).nodeRecords (Keeper.view s).depthBound id
      pure (renderLines records)

end Dataflow.Module
