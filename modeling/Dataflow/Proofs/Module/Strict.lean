import Dataflow.Proofs.Type.Acyclic
set_option autoImplicit false

-- Reading with no look-up taken for granted. A key that is not there, an error of the module that is handed on
-- as it is, and a search that does not end are failures of their own, next to the refusal of a line.
namespace Dataflow.Module.Read.Strict
open Record (Word)

inductive Failure where
  | parse (error : ReadError)
  | core (error : Error)
  | missed
  | endless

abbrev Checked (α : Type) := Except Failure α

section Outcomes
variable {α : Type}

def parsed : Reading α → Checked α
  | .ok value => .ok value
  | .error error => .error (.parse error)

def core : Except Error α → Checked α
  | .ok value => .ok value
  | .error error => .error (.core error)

def found : Option α → Checked α
  | some value => .ok value
  | none => .error .missed

-- A change that is not tied to a line.
def bare (change : Change α) (m : Module) : Checked (α × Module) :=
  core (change.result m)

end Outcomes

/-! ### The search for types that hold themselves -/

inductive Mark where
  | entered | finished
deriving DecidableEq

abbrev Marks := SortedMap Nat Mark

-- Labels to look at, the next one first. One that comes with `true` was entered before.
abbrev Stack := List (Nat × Bool)

def pushReference (marks : Marks) (line : Word) (stack : Stack) (label : Nat) : Checked Stack :=
  if marks.get? label = some .entered then parsed (refuse line .cyclicType) else .ok ((label, false) :: stack)

def turn (types : TypeLines) (marks : Marks) (stack : Stack) : Nat × Bool → Checked (Marks × Stack)
  | (label, true) => .ok (marks.insert label .finished, stack)
  | (label, false) =>
      match marks.get? label with
      | some .finished => .ok (marks, stack)
      | some .entered => parsed (refuse ((types.get? label).elim [] TypeLine.line) .cyclicType)
      | none =>
          let marks := marks.insert label .entered
          match types.get? label with
          | some entry =>
              (entry.references.foldlM (pushReference marks entry.line) ((label, true) :: stack)).map (marks, ·)
          | none => .ok (marks, (label, true) :: stack)

def turns (types : TypeLines) : Nat → Marks → Stack → Checked Marks
  | _, marks, [] => .ok marks
  | 0, _, _ :: _ => .error .endless
  | steps + 1, marks, top :: stack => do
      let (marks, stack) ← turn types marks stack top
      turns types steps marks stack

-- Turns for a label: it is left once, and each of its references is looked at.
def turnsOf (types : TypeLines) (label : Nat) : Nat :=
  1 + (types.get? label).elim 0 fun entry => entry.references.length

def budget (types : TypeLines) : Nat :=
  (typeLabels types).foldr (fun label turns => turnsOf types label + turns) 1

def search (types : TypeLines) : Checked Unit := do
  let _ ← types.keys.foldlM (fun marks label => turns types (budget types) marks [(label, false)]) .empty

/-! ### Types -/

def place (labels : List Nat) (label : Nat) : Checked TypeId :=
  found (labels.idxOf? label)

def resolved (labels : List Nat) : Signature → Checked Signature
  | .basic kind => pure (.basic kind)
  | .wild => pure .wild
  | .container kind base => do
      let base ← place labels base
      pure (.container kind base)
  | .link kind element rest => do
      let element ← place labels element
      let rest ← rest.mapM (place labels)
      pure (.link kind element rest)
  | .function arguments results => do
      let arguments ← arguments.mapM (place labels)
      let results ← place labels results
      pure (.function arguments results)

def arenaAt {α : Type} (arena : List α) (id : TypeId) : Checked α :=
  core (match arena[id]? with
    | some value => .ok value
    | none => .error (.typeNotFound id))

def checkRest (labels : List Nat) (codes : List TypeCode) (entry : TypeLine) : Checked Unit :=
  match entry.record.signature with
  | .link kind _ (some rest) => do
      let id ← place labels rest
      let code ← arenaAt codes id
      if code = kind.code then pure () else parsed (refuse entry.line .mixedChain)
  | _ => pure ()

-- All types are made first, with no more than their codes; then each gets its parameters and pragmas.
def linkType (labels : List Nat) (codes : List TypeCode) (arena : List TypeDef) (entry : Nat × TypeLine) :
    Checked (List TypeDef) := do
  checkRest labels codes entry.2
  let id ← place labels entry.1
  let signature ← resolved labels entry.2.record.signature
  let _ ← arenaAt arena id
  pure (arena.set id ⟨signature, entry.2.record.pragmas⟩)

def typeTable (types : TypeLines) : Checked TypeTable := do
  let labels := typeLabels types
  let arena ← types.entries.foldlM (linkType labels (labels.map (codeAt types))) (labels.map fun _ => ⟨.wild, .empty⟩)
  pure (TypeTable.ofList arena)

/-! ### Functions -/

def outputTypeAt (m : Module) (outlet : Outlet) : Except Error (Option TypeId) := do
  let node ← m.node outlet.node
  pure ((node.outputs.get? outlet.port).bind Output.type)

-- The type of a wire goes to a producer that has none.
def offer (line : Word) (source : Outlet) (type : Option TypeId) (m : Module) : Checked Module :=
  match type with
  | none => pure m
  | some type => do
      match ← core (outputTypeAt m source) with
      | some _ => pure m
      | none =>
          let (_, m) ← parsed (apply line (setOutput source type) m)
          pure m

def resolve (graph : NodeId) (nodes : List NodeId) (m : Module) (pending : Pending) : Checked Module := do
  match pending.feed with
  | .wire label port =>
      let source ← parsed (onLine pending.line (nodeAt graph nodes label))
      let target ← parsed (onLine pending.line (nodeAt graph nodes pending.target))
      let m ← offer pending.line ⟨source, port⟩ pending.type m
      let (_, m) ← parsed (apply pending.line (wire ⟨target, pending.port⟩ ⟨source, port⟩) m)
      let (_, m) ← parsed (apply pending.line (replaceInputPragmas ⟨target, pending.port⟩ pending.pragmas) m)
      pure m
  | .text text =>
      let target ← parsed (onLine pending.line (nodeAt graph nodes pending.target))
      let (_, m) ← parsed (apply pending.line (bindLiteral ⟨target, pending.port⟩ ⟨text, pending.type⟩) m)
      let (_, m) ← parsed (apply pending.line (replaceInputPragmas ⟨target, pending.port⟩ pending.pragmas) m)
      pure m

def endGraph (id : NodeId) (pending : List Pending) (m : Module) : Checked Module := do
  let graph ← core (m.graph id)
  pending.foldlM (resolve id graph.nodes) m

def endSubgraph (state : State) : Checked State :=
  match state.scopes with
  | .graph id pending :: scopes => do
      let graph ← core (state.m.node id)
      match graph.role with
      | .subgraph _ =>
          let m ← endGraph id pending state.m
          pure ⟨m, scopes⟩
      | _ => pure state
  | _ => pure state

def endAll (line : Word) (m : Module) : List Scope → Checked Module
  | [] => pure m
  | .compound _ _ _ :: _ => parsed (refuse line .unterminated)
  | .graph id pending :: scopes => do
      let m ← endGraph id pending m
      endAll line m scopes

def notePragmas (id : NodeId) (pragmas : Pragmas) (m : Module) : Checked Module := do
  let _ ← core (m.node id)
  pure (setNodePragmas id pragmas m)

def declareArgument (id : NodeId) (m : Module) (argument : TypeId × Nat) : Checked Module := do
  let (_, m) ← bare (setOutput ⟨id, argument.2 + 1⟩ argument.1) m
  pure m

def declareArguments (line : Word) (id : NodeId) (type : Option TypeId) (m : Module) : Checked Module :=
  match type with
  | none => pure m
  | some type => do
      let definition ← core (m.types.find type)
      match definition.signature with
      | .function (some head) _ =>
          let (arguments, m) ← parsed (apply line (Edit.query (·.types.chain head)) m)
          arguments.zipIdx.foldlM (declareArgument id) m
      | _ => pure m

def beginFunction (labels : List Nat) (line : Word) (state : State) : Checked State := do
  let m ← endAll line state.m state.scopes
  let record ← parsed (onLine line (Record.parseFunction line))
  let type ← parsed (onLine line (typeAt labels record.type))
  let (id, m) ← bare (addFunction record.name) m
  let m ← notePragmas id record.pragmas m
  let m ← declareArguments line id type m
  pure ⟨m, [.graph id []]⟩

def addNodeAt (line : Word) (label : Nat) (op : Opcode) (state : State) : Checked (NodeId × Module) :=
  match state.scopes with
  | .graph graph _ :: _ => do
      let owner ← core (state.m.graph graph)
      let expected := owner.nodes.length + 1
      if label = expected then parsed (apply line (addNode graph op) state.m)
      else parsed (refuse line (.outOfSequence label expected))
  | _ => parsed (refuse line .outsideGraph)

def readNode (line : Word) (state : State) : Checked State := do
  let record ← parsed (onLine line (Record.parseNode line))
  let (id, m) ← addNodeAt line record.label record.opcode state
  let m ← notePragmas id record.pragmas m
  pure { state with m := m }

def beginCompound (line : Word) (state : State) : Checked State := do
  let header ← parsed (onLine line (Record.parseCompound line))
  let (id, m) ← addNodeAt line header.label header.opcode state
  pure ⟨m, .compound id header [] :: state.scopes⟩

def beginSubgraph (line : Word) (state : State) : Checked State := do
  let pragmas ← parsed (onLine line (Record.parseGraph line))
  let state ← endSubgraph state
  match state.scopes with
  | .compound compound header graphs :: scopes =>
      let (id, m) ← parsed (apply line (addGraph compound) state.m)
      let m ← notePragmas id pragmas m
      pure ⟨m, .graph id [] :: .compound compound header (graphs ++ [id]) :: scopes⟩
  | _ => parsed (refuse line .strayGraph)

def endCompound (line : Word) (state : State) : Checked State := do
  let state ← endSubgraph state
  match state.scopes with
  | .compound id header graphs :: scopes =>
      let (children, pragmas) ← parsed (onLine line (Record.parseTrailer header graphs line))
      let _ ← core (state.m.node id)
      let close (node : Node) : Node := { node with children := children, pragmas := pragmas }
      pure ⟨modifyNode id close state.m, scopes⟩
  | _ => parsed (refuse line .strayTrailer)

def step (labels : List Nat) (state : State) (entry : Kind × Word) : Checked State :=
  match entry.1 with
  | .function => beginFunction labels entry.2 state
  | .node => readNode entry.2 state
  | .compound => beginCompound entry.2 state
  | .graph => beginSubgraph entry.2 state
  | .trailer => endCompound entry.2 state
  | .edge => parsed (readEdge labels entry.2 state)
  | .literal => parsed (readLiteral labels entry.2 state)

/-! ### Texts -/

def build (document : Document) : Checked Module := do
  search document.types
  let table ← typeTable document.types
  let m := { withTypes table with pragmas := document.pragmas }
  let state ← document.body.foldlM (step (typeLabels document.types)) ⟨m, []⟩
  endAll endLine state.m state.scopes

def read (text : String) : Checked Module := do
  let document ← parsed ((Text.lines text.toList).foldlM addLine ⟨.empty, .empty, []⟩)
  build document

end Dataflow.Module.Read.Strict
