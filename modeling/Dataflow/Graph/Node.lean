import Dataflow.Pragma
set_option autoImplicit false

namespace Dataflow

structure Literal where
  text : String
  type : Option TypeId
deriving DecidableEq

inductive Binding where
  | literal (literal : Literal)
  /-- A wire from a producer; a later wire of the module has a greater stamp. -/
  | wire (source : Outlet) (stamp : Nat)
deriving DecidableEq

structure Input where
  pragmas : Pragmas := .empty
  binding : Option Binding := none
deriving DecidableEq

instance : Inhabited Input := ⟨{}⟩

def Input.literal? (input : Input) : Option Literal :=
  match input.binding with
  | some (.literal literal) => some literal
  | _ => none

def Input.source? (input : Input) : Option Outlet :=
  match input.binding with
  | some (.wire source _) => some source
  | _ => none

structure Output where
  type : Option TypeId := none
  pragmas : Pragmas := .empty
deriving DecidableEq

instance : Inhabited Output := ⟨{}⟩

inductive Role where
  | function (name : String)
  | subgraph (compound : NodeId)
  | node (graph : NodeId)
deriving DecidableEq

structure Node where
  opcode : Opcode
  role : Role
  inputs : SortedMap Nat Input := .empty
  outputs : SortedMap Nat Output := .empty
  /-- The child graphs of a compound; a graph may be listed more than once. -/
  children : List NodeId := []
  nodes : List NodeId := []
  pragmas : Pragmas := .empty
deriving DecidableEq

structure Wire where
  sourcePort : Nat
  targetPort : Nat
  stamp : Nat
deriving DecidableEq

namespace Node

def isGraph (node : Node) : Bool :=
  match node.role with
  | .node _ => false
  | _ => true

def functionName? (node : Node) : Option String :=
  match node.role with
  | .function name => some name
  | _ => none

def isFunction (node : Node) : Bool :=
  node.functionName?.isSome

def distinctChildren (node : Node) : List NodeId :=
  node.children.eraseDups

def maxInput (node : Node) : Nat :=
  node.inputs.lastKey?.getD 0

def maxOutput (node : Node) : Nat :=
  node.outputs.lastKey?.getD 0

def outputType? (node : Node) (port : Nat) : Option TypeId :=
  (node.outputs.get? port).bind (·.type)

def binding? (node : Node) (port : Nat) : Option Binding :=
  (node.inputs.get? port).bind (·.binding)

def wiresFrom (node : Node) (producer : NodeId) : List Wire :=
  node.inputs.entries.filterMap fun (port, input) =>
    match input.binding with
    | some (.wire source stamp) =>
        if source.node = producer then some ⟨source.port, port, stamp⟩ else none
    | _ => none

def modifyInput (port : Nat) (change : Input → Input) (node : Node) : Node :=
  { node with inputs := node.inputs.update port {} change }

def modifyOutput (port : Nat) (change : Output → Output) (node : Node) : Node :=
  { node with outputs := node.outputs.update port {} change }

end Node

end Dataflow
