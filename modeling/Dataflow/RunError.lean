import Dataflow.Error
set_option autoImplicit false

namespace Dataflow

inductive OperationFault where
  | notImplemented (op : Opcode)
  | structured (op : Opcode)
  | arity (expected got : Nat)
  | mismatch (expected got : String)
  | divideByZero
  | overflow
deriving DecidableEq

inductive LiteralFault where
  | notALiteralType
  | notACharacter
  | notOneCharacter
  | notAnInteger
  | notAReal
  | notADouble
  | wildBasic
  | notAString
deriving DecidableEq

def LiteralFault.message : LiteralFault → String
  | .notALiteralType => "literals must have a basic, string or function type"
  | .notACharacter => "expected a quoted character"
  | .notOneCharacter => "expected exactly one character"
  | .notAnInteger => "not an integer"
  | .notAReal => "not a real"
  | .notADouble => "not a doublereal"
  | .wildBasic => "wildbasic has no values"
  | .notAString => "expected a quoted string"

inductive CompoundFault where
  | branches (count : Nat)
  | emptyTest (graph : NodeId)
  | noBody
  | noCarriedValue (port : Nat)
deriving DecidableEq

def CompoundFault.message : CompoundFault → String
  | .branches count =>
      s!"IfThenElse needs two or an odd number of at least three child graphs, has {count}"
  | .emptyTest graph => s!"test graph {graph} produced no value"
  | .noBody => "Iterate has no body graph"
  | .noCarriedValue port => s!"body result {port} has no carried value"

inductive RunError where
  | operation (node : NodeId) (fault : OperationFault)
  | unsetInputs (node : NodeId)
  | unusedInputs (node : NodeId)
  | iterationLimit (node : NodeId) (limit : Nat)
  | recursionLimit (node : NodeId) (limit : Nat)
  | functionNotFound (name : String)
  | missingValue (inlet : Inlet)
  | invalidLiteral (inlet : Inlet) (text : String) (fault : LiteralFault)
  | invalidCompound (node : NodeId) (fault : CompoundFault)
  | refused (error : Error)
deriving DecidableEq

def OperationFault.message (node : NodeId) : OperationFault → String
  | notImplemented op => "operation " ++ op.title ++ s!" is not implemented (node {node})"
  | structured op =>
      "internal error: " ++ op.title ++ " is evaluated by the interpreter, not eval_op"
  | arity expected got => s!"arity mismatch at node {node}: expected {expected} values, got {got}"
  | mismatch expected got =>
      s!"type mismatch at runtime: node {node}, expected " ++ expected ++ ", got " ++ got
  | divideByZero => s!"divide by zero at node {node}"
  | overflow => s!"integer overflow at node {node}"

def RunError.message : RunError → String
  | operation node fault => fault.message node
  | unsetInputs node => s!"not all inputs of node {node} were set"
  | unusedInputs node => s!"not all inputs of node {node} were used"
  | iterationLimit node limit => s!"iteration limit ({limit}) exceeded at node {node}"
  | recursionLimit node limit => s!"recursion depth limit ({limit}) exceeded at node {node}"
  | functionNotFound name => "function not found: " ++ name
  | missingValue inlet =>
      s!"missing value: node {inlet.node} input port {inlet.port} has no value"
  | invalidLiteral inlet text fault =>
      "invalid literal " ++ text ++ s!" at node {inlet.node} input port {inlet.port}: "
        ++ fault.message
  | invalidCompound node fault => s!"invalid compound at node {node}: " ++ fault.message
  | refused error => error.message

end Dataflow
