import Dataflow.Module.Request
import Dataflow.Proofs.Module.Wires
set_option autoImplicit false

-- What the requests of a run touch, and what they register.
namespace Dataflow.Module

@[simp] theorem on_frame_eq {α : Type} (change : Change α) : (Keeper.onFrame change : Change α) = change :=
  rfl

/-! ### Touches -/

section Keeper
variable {σ τ : Type} [TypeTable.Keeper τ] [Keeper σ τ]

-- The literal that stands for a host value, with the type that the module finds for it.
def literalOf (value : HostValue) : Edit σ Literal := do
  match ← Edit.ofExcept value.literal with
  | .text text kind => do
      let type ← Keeper.onTypes (literalType kind)
      pure ⟨text, some type⟩
  | .function id => functionLiteral id

-- A wire touches the inputs on its path, and a literal the port that it is bound to.
def Request.touches (s : σ) : Request → Touches Supply
  | .wire target source =>
      match Module.wire target source s with
      | .ok path _ => pathTouches source path
      | .error _ _ => []
  | .setLiteral inlet value =>
      match Module.setLiteral inlet value s, literalOf value s with
      | .ok _ _, .ok literal _ => [(inlet, .literal literal)]
      | _, _ => []
  | _ => []

-- The names of the functions that a request registers.
def Request.registers : Request → List String
  | .addFunction name => [name]
  | .addFunctionWith name op => if op.isGraph then [name] else []
  | _ => []

def runTouches (s : σ) : List Request → Touches Supply
  | [] => []
  | request :: rest => request.touches s ++ runTouches (request.after s) rest

end Keeper

end Dataflow.Module
