import Dataflow.Module.Literal
import Dataflow.Module.Read
import Dataflow.Module.Write
set_option autoImplicit false

namespace Dataflow.Module

inductive Request where
  | addType (code : TypeCode) (first second : Option TypeId)
  | addBasic (kind : BasicKind)
  | addChain (types : List TypeId) (code : TypeCode) (names : Option (List String))
  | deleteType (type : TypeId)
  | setTypeName (type : TypeId) (name : Option String)
  | setTypePragma (type : TypeId) (key : String) (value : PragmaValue)
  | removeTypePragma (type : TypeId) (key : String)
  | setPragma (key : Char) (text : String)
  | removePragma (key : Char)
  | addFunction (name : String)
  | addFunctionWith (name : String) (op : Opcode)
  | functionType (graph : NodeId)
  | addNode (graph : NodeId) (op : Opcode)
  | addGraph (node : NodeId)
  | pushChild (node graph : NodeId)
  | setOutput (outlet : Outlet) (type : TypeId)
  | addInput (inlet : Inlet)
  | wire (target : Inlet) (source : Outlet)
  | setLiteral (inlet : Inlet) (value : HostValue)
  | nodePragmas (id : NodeId) (change : PragmaChange)
  | inputPragmas (inlet : Inlet) (change : PragmaChange)
  | outputPragmas (outlet : Outlet) (change : PragmaChange)
  | toText
  | nodeText (id : NodeId)

def ignoring {σ α : Type} (change : Edit σ α) : Edit σ Unit :=
  change >>= fun _ => pure ()

section Keeper
variable {σ τ : Type} [TypeTable.Keeper τ] [Keeper σ τ]
open Keeper (mapFrame onFrame)

def Request.perform : Request → Edit σ Unit
  | .addType code first second => ignoring (Keeper.onTypes (TypeTable.add code first second))
  | .addBasic kind => ignoring (Keeper.onTypes (TypeTable.addBasic kind))
  | .addChain types code names => ignoring (Keeper.onTypes (TypeTable.addChain types code names))
  | .deleteType type => Keeper.onTypes (TypeTable.Keeper.delete type)
  | .setTypeName type name => Keeper.onTypes (TypeTable.setName type name)
  | .setTypePragma type key value => Keeper.onTypes (TypeTable.setPragma type key value)
  | .removeTypePragma type key => ignoring (Keeper.onTypes (TypeTable.removePragma type key))
  | .setPragma key text => modify (mapFrame (Module.setPragma key text))
  | .removePragma key => modify (mapFrame (Module.removePragma key))
  | .addFunction name => ignoring (Module.addFunction name)
  | .addFunctionWith name op => ignoring (Module.addFunctionWith name op)
  | .functionType graph => ignoring (Module.functionType graph)
  | .addNode graph op => ignoring (onFrame (Module.addNode graph op))
  | .addGraph node => ignoring (onFrame (Module.addGraph node))
  | .pushChild node graph => onFrame (Module.pushChild node graph)
  | .setOutput outlet type => Module.setOutput outlet type
  | .addInput inlet => onFrame (Module.addInput inlet)
  | .wire target source => ignoring (Module.wire target source)
  | .setLiteral inlet value => Module.setLiteral inlet value
  | .nodePragmas id change => onFrame (changeNodePragmas id change)
  | .inputPragmas inlet change => onFrame (changeInputPragmas inlet change)
  | .outputPragmas outlet change => onFrame (changeOutputPragmas outlet change)
  | .toText => ignoring Module.toText
  | .nodeText id => ignoring (Module.nodeText id)

def Request.after (request : Request) (s : σ) : σ :=
  request.perform.after s

inductive Origin where
  | initial
  | empty
  | text (text : String)

def Origin.start : Origin → Except ReadError σ
  | .initial => .ok (Keeper.start Module.initial)
  | .empty => .ok (Keeper.start Module.empty)
  | .text source => load source

def run (s : σ) (requests : List Request) : σ :=
  requests.foldl (fun s request => request.after s) s

end Keeper

end Dataflow.Module
