import Dataflow.Type.Signature
set_option autoImplicit false

/- The types of a module. A type is asked for by its signature and created once; deleting one takes
it from the list of labels, but its id is never given to another type. -/
namespace Dataflow

structure TypeTable where
  /-- Every type that was ever created, by id. -/
  arena : Array TypeDef
  order : List TypeId
  /-- The type that is handed out for a signature. -/
  index : List (Signature × TypeId)
deriving DecidableEq

namespace TypeTable

def empty : TypeTable := ⟨#[], [], []⟩

instance : EmptyCollection TypeTable := ⟨empty⟩
instance : Inhabited TypeTable := ⟨empty⟩

def isLive (table : TypeTable) (id : TypeId) : Bool :=
  table.order.contains id

def get? (table : TypeTable) (id : TypeId) : Option TypeDef :=
  if table.isLive id then table.arena[id]? else none

def find (table : TypeTable) (id : TypeId) : Except Error TypeDef :=
  match table.get? id with
  | some definition => .ok definition
  | none => .error (.typeNotFound id)

def label? (table : TypeTable) (id : TypeId) : Option Nat :=
  (table.order.idxOf? id).map (· + 1)

def label (table : TypeTable) (id : TypeId) : Except Error Nat :=
  match table.label? id with
  | some label => .ok label
  | none => .error (.typeNotFound id)

def name? (table : TypeTable) (id : TypeId) : Option String :=
  (table.get? id).bind TypeDef.name?

def byName? (table : TypeTable) (name : String) : Option TypeId :=
  table.order.find? fun id => table.name? id == some name

def named (table : TypeTable) (name : String) : Except Error TypeId :=
  match table.byName? name with
  | some id => .ok id
  | none => .error (.unknownTypeName name)

def intern (table : TypeTable) (signature : Signature) : TypeId × TypeTable :=
  match table.index.lookup signature with
  | some id => (id, table)
  | none =>
      let id := table.arena.size
      (id, { arena := table.arena.push ⟨signature, .empty⟩
             order := table.order ++ [id]
             index := (signature, id) :: table.index })

def modifyPragmas (change : Pragmas → Pragmas) (id : TypeId) (table : TypeTable) : TypeTable :=
  { table with
    arena := table.arena.modify id fun definition =>
      { definition with pragmas := change definition.pragmas } }

/-- A table that lists these types in order. Of several types with one signature the first is the
one that is handed out. -/
def ofList (definitions : List TypeDef) : TypeTable :=
  let ids := List.range definitions.length
  let signed := (definitions.map (·.signature)).zip ids
  { arena := definitions.toArray
    order := ids
    index := signed.foldl (fun index entry =>
      if (index.lookup entry.1).isSome then index else entry :: index) [] }

def builtin : TypeTable :=
  let called (signature : Signature) (name : String) : TypeDef :=
    ⟨signature, Pragmas.empty.setName (some name)⟩
  ofList ((BasicKind.all.map fun kind => called (.basic kind) kind.typeName)
    ++ [called .wild "wild", called (.container .array BasicKind.character.code) "string"])

abbrev Change (α : Type) := Edit TypeTable α

/-- Takes a type from the list of labels; every later label moves down. -/
def delete (id : TypeId) : Change Unit := do
  let definition ← Edit.query (find · id)
  modify fun table =>
    let handedOut := table.index.lookup definition.signature = some id
    { table with
      order := table.order.erase id
      index :=
        if handedOut then table.index.filter (·.1 ≠ definition.signature) else table.index }

class Keeper (τ : Type) where
  find : τ → TypeId → Except Error TypeDef
  intern : τ → Signature → TypeId × τ
  modifyPragmas : (Pragmas → Pragmas) → TypeId → τ → τ
  delete : TypeId → Edit τ Unit

instance : Keeper TypeTable where
  find := find
  intern := intern
  modifyPragmas := modifyPragmas
  delete := delete

section Keeper
variable {τ : Type} [Keeper τ]
open Keeper

def internType (signature : Signature) : Edit τ TypeId := fun table =>
  let (id, changed) := Keeper.intern table signature
  .ok id changed

def addBasic (kind : BasicKind) : Edit τ TypeId :=
  internType (.basic kind)

def requireLive : Option TypeId → Edit τ Unit
  | none => pure ()
  | some id => do
      let _ ← Edit.query (Keeper.find · id)

def add (code : TypeCode) (first second : Option TypeId) : Edit τ TypeId := do
  match Signature.ofParameters code first second with
  | .error fault => throw (.invalidConstruction code fault)
  | .ok signature =>
      requireLive first
      requireLive second
      internType signature

def setName (id : TypeId) (name : Option String) : Edit τ Unit := do
  let _ ← Edit.query (Keeper.find · id)
  modify (Keeper.modifyPragmas (·.setName name) id)

def setPragma (id : TypeId) (key : String) (value : PragmaValue) : Edit τ Unit := do
  let definition ← Edit.query (Keeper.find · id)
  let pragmas ← Edit.ofExcept (definition.pragmas.set key value)
  modify (Keeper.modifyPragmas (fun _ => pragmas) id)

def removePragma (id : TypeId) (key : String) : Edit τ (Option PragmaValue) := do
  let definition ← Edit.query (Keeper.find · id)
  let (removed, pragmas) ← Edit.ofExcept (definition.pragmas.remove key)
  modify (Keeper.modifyPragmas (fun _ => pragmas) id)
  pure removed

end Keeper

end TypeTable

end Dataflow
