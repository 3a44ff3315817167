import Dataflow.Type.Table
set_option autoImplicit false

namespace Dataflow.TypeTable

section Keeper
variable {τ : Type} [Keeper τ]

def addLinks (code : TypeCode) : List (TypeId × Option String) → Edit τ (Option TypeId)
  | [] => pure none
  | (element, name) :: rest => do
      let tail ← addLinks code rest
      let link ← add code (some element) tail
      if name.isSome then modify (Keeper.modifyPragmas (·.setName name) link)
      pure (some link)

def addChain (types : List TypeId) (code : TypeCode) (names : Option (List String)) :
    Edit τ (Option TypeId) := do
  if code.isLink then
    match names with
    | none => addLinks code (types.map (·, none))
    | some names =>
        if names.length = types.length then addLinks code (types.zip (names.map some))
        else throw (.invalidConstruction code (.nameCount names.length types.length))
  else throw (.invalidConstruction code .notALink)

end Keeper

/-- The link and those after it. There can be no more of them than types. -/
def walk (table : TypeTable) (head : TypeId) : Nat → Option TypeId → Except Error (List TypeId)
  | _, none => .ok []
  | 0, some _ => .error (.invalidChain head)
  | steps + 1, some link => do
      let definition ← table.find link
      let rest ← walk table head steps definition.signature.second?
      pure (link :: rest)

def links (table : TypeTable) (head : TypeId) : Except Error (List TypeId) := do
  let definition ← table.find head
  let steps := table.arena.size + 1
  match definition.signature with
  | .link _ _ _ => walk table head steps (some head)
  | .container .record base | .container .union base => walk table head steps (some base)
  | _ => throw (.invalidChain head)

def chain (table : TypeTable) (head : TypeId) : Except Error (List TypeId) := do
  let found ← table.links head
  pure (found.filterMap fun link => (table.get? link).bind (·.signature.first?))

def chainNames (table : TypeTable) (head : TypeId) : Except Error (List (Option String)) := do
  let found ← table.links head
  pure (found.map table.name?)

end Dataflow.TypeTable
