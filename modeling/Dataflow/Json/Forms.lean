import Dataflow.Graph.Node
import Dataflow.Interpreter
import Dataflow.Json
import Dataflow.Literal.Kind
import Dataflow.Type.Description
set_option autoImplicit false

namespace Dataflow
open Json JsonForm

instance : JsonForm Opcode where
  encode op := string op.name
  decode? := choose? Opcode.all Opcode.name

def Opcode.Kind.name : Opcode.Kind → String
  | simple => "Simple"
  | compound => "Compound"
  | graph => "Graph"

instance : JsonForm Opcode.Kind where
  encode kind := string kind.name
  decode? := choose? [.simple, .compound, .graph] Opcode.Kind.name

instance : JsonForm TypeCode where
  encode code := string code.name
  decode? := choose? TypeCode.all TypeCode.name

instance : JsonForm BasicKind where
  encode kind := string kind.name
  decode? := choose? BasicKind.all BasicKind.name

instance : JsonForm LiteralKind where
  encode kind := string kind.name
  decode? := choose?
    [.boolean, .character, .doubleReal, .integer, .null, .real, .string] LiteralKind.name

instance : JsonForm Inlet where
  encode inlet := object [("node", encode inlet.node), ("port", encode inlet.port)]
  decode? json := do
    let members ← members? ["node", "port"] json
    pure ⟨← required members "node", ← required members "port"⟩

instance : JsonForm Outlet where
  encode outlet := object [("node", encode outlet.node), ("port", encode outlet.port)]
  decode? json := do
    let members ← members? ["node", "port"] json
    pure ⟨← required members "node", ← required members "port"⟩

instance : JsonForm Port where
  encode
    | .inlet port => object [("In", encode port)]
    | .outlet port => object [("Out", encode port)]
  decode?
    | object [("In", port)] => (decode? port).map .inlet
    | object [("Out", port)] => (decode? port).map .outlet
    | _ => none

def stamp? : Json → Option Nat
  | int (.ofNat value) => if value < Nat.pow 2 64 then some value else none
  | _ => none

instance : JsonForm Wire where
  encode wire := object
    [("source_port", encode wire.sourcePort), ("target_port", encode wire.targetPort),
      ("seq", int wire.stamp)]
  decode? json := do
    let members ← members? ["source_port", "target_port", "seq"] json
    let stamp ← (members.lookup "seq").bind stamp?
    pure ⟨← required members "source_port", ← required members "target_port", stamp⟩

instance : JsonForm PragmaValue where
  encode
    | .int value => object [("Int", encode value)]
    | .text value => object [("Str", encode value)]
  decode?
    | object [("Int", value)] => (decode? value).map .int
    | object [("Str", value)] => (decode? value).map .text
    | _ => none

instance : JsonForm Pragmas where
  encode pragmas := object [("entries", encode pragmas.entries)]
  decode? json := do
    let members ← members? ["entries"] json
    pure ⟨← required members "entries"⟩

instance : JsonForm TypeDescription where
  encode type := object
    [("code", encode type.code), ("aux", encode type.selector),
      ("parameter1", encodeOption type.first), ("parameter2", encodeOption type.second),
      ("pragmas", encode type.pragmas)]
  decode? json := do
    let members ← members? ["code", "aux", "parameter1", "parameter2", "pragmas"] json
    pure ⟨← required members "code", ← required members "aux", ← optional members "parameter1",
      ← optional members "parameter2", ← required members "pragmas"⟩

instance : JsonForm Literal where
  encode literal := object
    [("text", encode literal.text), ("ty", encodeOption literal.type)]
  decode? json := do
    let members ← members? ["text", "ty"] json
    pure ⟨← required members "text", ← optional members "ty"⟩

/-- The form of an input holds its literal, and no wire. -/
instance : JsonForm Input where
  encode input := object
    [("pragmas", encode input.pragmas), ("literal", encodeOption input.literal?)]
  decode? json := do
    let members ← members? ["pragmas", "literal"] json
    let literal : Option Literal ← optional members "literal"
    pure ⟨← required members "pragmas", literal.map .literal⟩

instance : JsonForm Output where
  encode output := object
    [("ty", encodeOption output.type), ("pragmas", encode output.pragmas)]
  decode? json := do
    let members ← members? ["ty", "pragmas"] json
    pure ⟨← optional members "ty", ← required members "pragmas"⟩

instance : JsonForm Role where
  encode
    | .function name => object [("Function", object [("name", encode name)])]
    | .subgraph compound => object [("Subgraph", object [("compound", encode compound)])]
    | .node graph => object [("Node", object [("graph", encode graph)])]
  decode?
    | object [("Function", object members)] => (required members "name").map .function
    | object [("Subgraph", object members)] => (required members "compound").map .subgraph
    | object [("Node", object members)] => (required members "graph").map .node
    | _ => none

instance : JsonForm Node where
  encode node := object
    [("opcode", encode node.opcode), ("role", encode node.role), ("inputs", encode node.inputs),
      ("outputs", encode node.outputs), ("children", encode node.children),
      ("nodes", encode node.nodes), ("pragmas", encode node.pragmas)]
  decode? json := do
    let members ← members?
      ["opcode", "role", "inputs", "outputs", "children", "nodes", "pragmas"] json
    pure ⟨← required members "opcode", ← required members "role", ← required members "inputs",
      ← required members "outputs", ← required members "children", ← required members "nodes",
      ← required members "pragmas"⟩

namespace Value

mutual
def toJson : Value → Json
  | bool value => object [("Bool", encode value)]
  | char value => object [("Char", encode value)]
  | int value => object [("Int", encode value)]
  | real value => object [("Real", encode value)]
  | double value => object [("Double", encode value)]
  | null => string "Null"
  | array items => object [("Array", .array (allToJson items))]
  | function id => object [("Function", encode id)]

def allToJson : List Value → List Json
  | [] => []
  | item :: items => toJson item :: allToJson items
end

mutual
def ofJson? : Json → Option Value
  | string "Null" | object [("Null", .null)] => some null
  | object [("Array", .array items)] => (allOfJson? items).map array
  | object [("Bool", value)] => (decode? value).map bool
  | object [("Char", value)] => (decode? value).map char
  | object [("Int", value)] => (decode? value).map int
  | object [("Real", value)] => (decode? value).map real
  | object [("Double", value)] => (decode? value).map double
  | object [("Function", value)] => (decode? value).map function
  | _ => none

def allOfJson? : List Json → Option (List Value)
  | [] => some []
  | item :: items => do
      let value ← ofJson? item
      let values ← allOfJson? items
      pure (value :: values)
end

end Value

instance : JsonForm Value where
  encode := Value.toJson
  decode? := Value.ofJson?

instance : JsonForm TraceEntry where
  encode entry := object
    [("node_id", encode entry.node), ("opcode", encode entry.opcode),
      ("inputs", encode entry.inputs), ("outputs", encode entry.outputs)]
  decode? json := do
    let members ← members? ["node_id", "opcode", "inputs", "outputs"] json
    pure ⟨← required members "node_id", ← required members "opcode", ← required members "inputs",
      ← required members "outputs"⟩

end Dataflow
