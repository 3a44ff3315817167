import Dataflow.Type.Table
set_option autoImplicit false

namespace Dataflow.TypeTable

/-- Shows a type to a bounded depth; a type is not nested deeper than there are types. -/
def displayWithin (table : TypeTable) : Nat → Option TypeId → String
  | _, none => ""
  | 0, some _ => ""
  | depth + 1, some id =>
      let inner := displayWithin table depth
      match table.get? id with
      | none => s!"<TypeId({id})>"
      | some definition =>
          match definition.signature, definition.name? with
          | .link _ element rest, name =>
              let label := match name with
                | some name => name ++ ":"
                | none => ""
              let tail := if rest.isSome then "->" ++ inner rest else ""
              label ++ inner (some element) ++ tail
          | _, some name => name
          | .container kind base, none => kind.code.keyword ++ "[" ++ inner (some base) ++ "]"
          | .basic kind, none => s!"Basic({kind.code})"
          | .wild, none => "wild"
          | .function arguments results, none =>
              "function[" ++ inner arguments ++ " returns " ++ inner (some results) ++ "]"

def display (table : TypeTable) (id : TypeId) : String :=
  table.displayWithin (table.arena.size + 1) (some id)

end Dataflow.TypeTable
