import Dataflow.Opcode
import Dataflow.Port
import Dataflow.Type.Code
set_option autoImplicit false

namespace Dataflow

inductive ConstructionFault where
  | basicHasKind
  | wildHasParameter
  | noBase
  | secondParameter
  | noElement
  | noOutput
  | notALink
  | nameCount (names links : Nat)
deriving DecidableEq

def ConstructionFault.message : ConstructionFault → String
  | .basicHasKind => "basic types are selected by aux"
  | .wildHasParameter => "wild takes no parameters"
  | .noBase => "missing base type"
  | .secondParameter => "takes a single parameter"
  | .noElement => "missing element type"
  | .noOutput => "missing output type"
  | .notALink => "chains are built from tuple, field or tag links"
  | .nameCount names links => s!"{names} names for {links} links"

inductive OwnershipFault where
  | notAGraphKind (op : Opcode)
  | unlisted (node graph : NodeId)
  | ownerIsGraph (graph : NodeId)
  | notAChild (graph node : NodeId)
deriving DecidableEq

def OwnershipFault.message : OwnershipFault → String
  | .notAGraphKind op => op.title ++ " is not a graph opcode"
  | .unlisted node graph => s!"node {node} is not listed in graph {graph}"
  | .ownerIsGraph graph => s!"graph {graph} cannot own child graphs"
  | .notAChild graph node => s!"graph {graph} is not a child of node {node}"

inductive Error where
  | invalidConstruction (code : TypeCode) (fault : ConstructionFault)
  | invalidPragmaKey (key : String)
  | literalFormat (text : String)
  | typeNotFound (id : TypeId)
  | unknownTypeName (name : String)
  | invalidChain (id : TypeId)
  | nodeNotFound (id : NodeId)
  | notAGraph (id : NodeId)
  | notAFunction (id : NodeId)
  | unknownOpcode (op : String)
  | disconnected (source : Outlet) (target : Inlet)
  | invalidGraph (fault : OwnershipFault)
  | invalidPort (port : Nat)
  | missingType (what : String)
deriving DecidableEq

def Error.message : Error → String
  | .invalidConstruction code fault => "invalid " ++ code.name ++ " construction: " ++ fault.message
  | .invalidPragmaKey key => "invalid pragma key '" ++ key ++ "'"
  | .literalFormat text => "invalid literal " ++ text
  | .typeNotFound id => s!"type not found: TypeId({id})"
  | .unknownTypeName name => "module does not define type " ++ name
  | .invalidChain id => s!"type {id} is not a chain type"
  | .nodeNotFound id => s!"node not found: NodeId({id})"
  | .notAGraph id => s!"node {id} is not a graph"
  | .notAFunction id => s!"node {id} is not a function"
  | .unknownOpcode op => "unknown opcode " ++ op
  | .disconnected source target =>
      "disconnected: " ++ source.render ++ " is not visible from " ++ target.render
  | .invalidGraph fault => "invalid graph structure: " ++ fault.message
  | .invalidPort port => s!"invalid port number {port}"
  | .missingType what => what ++ " does not have a type"

/-- A change of a state that may be refused. What was changed before a refusal stays changed. -/
abbrev Edit (σ α : Type) := EStateM Error σ α

namespace Edit

variable {σ τ α : Type}

def ofExcept : Except Error α → Edit σ α
  | .ok value => pure value
  | .error error => throw error

def query (find : σ → Except Error α) : Edit σ α := fun state =>
  match find state with
  | .ok value => .ok value state
  | .error error => .error error state

def within (part : σ → τ) (replace : τ → σ → σ) (edit : Edit τ α) : Edit σ α := fun state =>
  match edit (part state) with
  | .ok value changed => .ok value (replace changed state)
  | .error error changed => .error error (replace changed state)

def outcome (edit : Edit σ α) (state : σ) : Except Error α × σ :=
  match edit state with
  | .ok value changed => (.ok value, changed)
  | .error error changed => (.error error, changed)

def after (edit : Edit σ α) (state : σ) : σ :=
  (edit.outcome state).2

def result (edit : Edit σ α) (state : σ) : Except Error (α × σ) :=
  match edit state with
  | .ok value changed => .ok (value, changed)
  | .error error _ => .error error

end Edit

end Dataflow
