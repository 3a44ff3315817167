import Dataflow.Literal.Host
import Dataflow.Module.FunctionType
import Dataflow.Module.Wiring
set_option autoImplicit false

namespace Dataflow.Module

section Keeper
variable {σ τ : Type} [TypeTable.Keeper τ]

def literalType (kind : LiteralKind) : Edit τ TypeId :=
  match kind.basic? with
  | some basic => TypeTable.addBasic basic
  | none => do
      let character ← TypeTable.addBasic .character
      TypeTable.add .array (some character) none

variable [Keeper σ τ]
open Keeper (frame)

def bindLiteral (inlet : Inlet) (literal : Literal) : Edit σ Unit := do
  Keeper.onTypes (TypeTable.requireLive literal.type)
  let _ ← Edit.query fun s : σ => (frame s).node inlet.node
  modify (Keeper.hold inlet literal)

def functionLiteral (id : NodeId) : Edit σ Literal := do
  let name ← Edit.query fun s : σ => (frame s).functionName id
  match ← functionType id with
  | some type => pure ⟨name, some type⟩
  | none => throw (.missingType name)

def setLiteral (inlet : Inlet) (value : HostValue) : Edit σ Unit := do
  Edit.ofExcept (checkPort inlet.port)
  let _ ← Edit.query fun s : σ => (frame s).node inlet.node
  match ← Edit.ofExcept value.literal with
  | .text text kind => do
      let type ← Keeper.onTypes (literalType kind)
      bindLiteral inlet ⟨text, some type⟩
  | .function id => do
      let literal ← functionLiteral id
      bindLiteral inlet literal

end Keeper

end Dataflow.Module
