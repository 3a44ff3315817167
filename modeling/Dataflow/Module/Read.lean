import Dataflow.Module.Literal
import Dataflow.Record.Parse
import Dataflow.Type.Chain
set_option autoImplicit false

/- Reading a module. Records of types and pragmas of the module may stand anywhere; all other records
are read in order. What feeds an input may come from a node that is declared later, so it is
looked up when its graph ends. -/
namespace Dataflow.Module.Read
open Record (Word Parsed require)

abbrev Reading (α : Type) := Except ReadError α

def onLine {α : Type} (line : Word) : Parsed α → Reading α
  | .ok value => .ok value
  | .error fault => .error ⟨String.ofList line, fault⟩

def refuse {α : Type} (line : Word) (fault : Fault) : Reading α :=
  onLine line (.error fault)

def apply {σ α : Type} (line : Word) (change : Edit σ α) (m : σ) : Reading (α × σ) :=
  match change.result m with
  | .ok done => .ok done
  | .error error => refuse line (.refused error)

structure TypeLine where
  line : Word
  record : TypeRecord

abbrev TypeLines := SortedMap Nat TypeLine

def TypeLine.references (entry : TypeLine) : List Nat :=
  entry.record.signature.references

/-- Visits a type and all that it refers to, and adds them to those that are done. `path` leads to
the type. A path holds no label twice, so it is no longer than there are records. -/
def visit (types : TypeLines) : Nat → List Nat → List Nat → Nat → Reading (List Nat)
  | steps, path, done, label =>
      if done.contains label then .ok done
      else
        match types.get? label, steps with
        | none, _ => .ok (label :: done)
        | some _, 0 => .ok done
        | some entry, steps + 1 =>
            let path := label :: path
            if entry.references.any path.contains then refuse entry.line .cyclicType
            else do
              let done ← entry.references.reverse.foldlM (visit types steps path) done
              pure (label :: done)

def checkAcyclic (types : TypeLines) : Reading Unit := do
  let _ ← types.keys.foldlM (visit types (types.size + 1) []) []

def checkChain (types : TypeLines) (entry : TypeLine) : Reading Unit :=
  let signature := entry.record.signature
  match signature with
  | .link _ _ (some rest) =>
      let code := match types.get? rest with
        | some other => other.record.signature.code
        | none => .wild
      if code = signature.code then .ok () else refuse entry.line .mixedChain
  | _ => .ok ()

/-- All labels that are defined or referred to, in ascending order. -/
def typeLabels (types : TypeLines) : List Nat :=
  let labels := types.entries.flatMap fun (label, entry) => label :: entry.references
  (SortedMap.ofList (labels.map fun label => (label, ()))).keys

/-- The types in the order of their labels. A type that is referred to but not defined is wild. -/
def typeTable (types : TypeLines) : TypeTable :=
  let labels := typeLabels types
  TypeTable.ofList (labels.map fun label =>
    match types.get? label with
    | some entry => ⟨entry.record.signature.map fun label => labels.idxOf label, entry.record.pragmas⟩
    | none => ⟨.wild, .empty⟩)

/-- What feeds an input port, before labels of nodes are looked up. -/
inductive Feed where
  | wire (label port : Nat)
  | text (text : String)

structure Pending where
  line : Word
  target : Nat
  port : Nat
  feed : Feed
  type : Option TypeId
  pragmas : Pragmas

inductive Scope where
  | graph (id : NodeId) (pending : List Pending)
  | compound (id : NodeId) (header : CompoundRecord) (graphs : List NodeId)

structure StateOf (σ : Type) where
  m : σ
  scopes : List Scope

abbrev State := StateOf Module

section Keeper
variable {σ τ : Type} [TypeTable.Keeper τ] [Keeper σ τ]
open Keeper (frame mapFrame onFrame)

def replaceInputPragmas (inlet : Inlet) (pragmas : Pragmas) : Edit σ Unit := do
  onFrame (addInput inlet)
  modify (mapFrame (setInputPragmas inlet pragmas))

def nodeAt (graph : NodeId) (nodes : List NodeId) (label : Nat) : Parsed NodeId :=
  if label = 0 then .ok graph else require (.unknownNode label) nodes[label - 1]?

/-- A wire may give its type to a producer that has none. -/
def feedWire (source : Outlet) (target : Inlet) (type : Option TypeId) (pragmas : Pragmas) : Edit σ Unit := do
  match type, (frame (← get)).outputType? source with
  | some type, none => setOutput source type
  | _, _ => pure ()
  let _ ← wire target source
  replaceInputPragmas target pragmas

def feedText (target : Inlet) (literal : Literal) (pragmas : Pragmas) : Edit σ Unit := do
  bindLiteral target literal
  replaceInputPragmas target pragmas

def resolve (graph : NodeId) (nodes : List NodeId) (m : σ) (pending : Pending) : Reading σ := do
  match pending.feed with
  | .wire label port =>
      let source ← onLine pending.line (nodeAt graph nodes label)
      let target ← onLine pending.line (nodeAt graph nodes pending.target)
      let change := feedWire ⟨source, port⟩ ⟨target, pending.port⟩ pending.type pending.pragmas
      let (_, m) ← apply pending.line change m
      pure m
  | .text text =>
      let target ← onLine pending.line (nodeAt graph nodes pending.target)
      let change := feedText ⟨target, pending.port⟩ ⟨text, pending.type⟩ pending.pragmas
      let (_, m) ← apply pending.line change m
      pure m

/-- Ends a graph: its inputs and those of its nodes are fed in the order of the records. -/
def endGraph (id : NodeId) (pending : List Pending) (m : σ) : Reading σ :=
  let nodes := ((frame m).nodes[id]?.map Node.nodes).getD []
  pending.foldlM (resolve id nodes) m

def endSubgraph (state : StateOf σ) : Reading (StateOf σ) :=
  match state.scopes with
  | .graph id pending :: scopes =>
      match (frame state.m).nodes[id]?.map Node.role with
      | some (.subgraph _) => do
          let m ← endGraph id pending state.m
          pure ⟨m, scopes⟩
      | _ => .ok state
  | _ => .ok state

/-- Ends everything; a compound has to have its own end. -/
def endAll (line : Word) (m : σ) : List Scope → Reading σ
  | [] => .ok m
  | .compound _ _ _ :: _ => refuse line .unterminated
  | .graph id pending :: scopes => do
      let m ← endGraph id pending m
      endAll line m scopes

def typeAt (labels : List Nat) (label : Nat) : Parsed (Option TypeId) :=
  if label = 0 then .ok none else (require (.unknownType label) (labels.idxOf? label)).map some

def declareArguments (id : NodeId) (type : Option TypeId) : Edit σ Unit := do
  let m : σ ← get
  match (type.bind (frame m).types.get?).map TypeDef.signature with
  | some (.function (some arguments) _) =>
      let types ← Edit.query fun m : σ => (frame m).types.chain arguments
      types.zipIdx.forM fun (type, place) => setOutput ⟨id, place + 1⟩ type
  | _ => pure ()

def beginFunction (labels : List Nat) (line : Word) (state : StateOf σ) : Reading (StateOf σ) := do
  let m ← endAll line state.m state.scopes
  let record ← onLine line (Record.parseFunction line)
  let type ← onLine line (typeAt labels record.type)
  let (id, m) ← apply line (addFunction record.name) m
  let (_, m) ← apply line (declareArguments id type) (mapFrame (setNodePragmas id record.pragmas) m)
  pure ⟨m, [.graph id []]⟩

/-- Adds a node to the innermost graph, where it has to have the next label. -/
def addNodeAt (line : Word) (label : Nat) (op : Opcode) (state : StateOf σ) : Reading (NodeId × σ) :=
  match state.scopes with
  | .graph graph _ :: _ =>
      let expected := (((frame state.m).nodes[graph]?.map Node.nodes).getD []).length + 1
      if label = expected then apply line (onFrame (addNode graph op)) state.m
      else refuse line (.outOfSequence label expected)
  | _ => refuse line .outsideGraph

def readNode (line : Word) (state : StateOf σ) : Reading (StateOf σ) := do
  let record ← onLine line (Record.parseNode line)
  let (id, m) ← addNodeAt line record.label record.opcode state
  pure { state with m := mapFrame (setNodePragmas id record.pragmas) m }

def beginCompound (line : Word) (state : StateOf σ) : Reading (StateOf σ) := do
  let header ← onLine line (Record.parseCompound line)
  let (id, m) ← addNodeAt line header.label header.opcode state
  pure ⟨m, .compound id header [] :: state.scopes⟩

def beginSubgraph (line : Word) (state : StateOf σ) : Reading (StateOf σ) := do
  let pragmas ← onLine line (Record.parseGraph line)
  let state ← endSubgraph state
  match state.scopes with
  | .compound compound header graphs :: scopes =>
      let (id, m) ← apply line (onFrame (addGraph compound)) state.m
      pure ⟨mapFrame (setNodePragmas id pragmas) m,
        .graph id [] :: .compound compound header (graphs ++ [id]) :: scopes⟩
  | _ => refuse line .strayGraph

def endCompound (line : Word) (state : StateOf σ) : Reading (StateOf σ) := do
  let state ← endSubgraph state
  match state.scopes with
  | .compound id header graphs :: scopes =>
      let (children, pragmas) ← onLine line (Record.parseTrailer header graphs line)
      let close (node : Node) : Node := { node with children := children, pragmas := pragmas }
      pure ⟨mapFrame (modifyNode id close) state.m, scopes⟩
  | _ => refuse line .strayTrailer

def addPending (pending : Pending) (state : StateOf σ) : Reading (StateOf σ) :=
  match state.scopes with
  | .graph id earlier :: scopes =>
      .ok { state with scopes := .graph id (earlier ++ [pending]) :: scopes }
  | _ => refuse pending.line .outsideGraph

def readEdge (labels : List Nat) (line : Word) (state : StateOf σ) : Reading (StateOf σ) := do
  let record ← onLine line (Record.parseEdge line)
  let type ← onLine line (typeAt labels record.type)
  addPending ⟨line, record.target, record.targetPort, .wire record.source record.sourcePort, type,
    record.pragmas⟩ state

def readLiteral (labels : List Nat) (line : Word) (state : StateOf σ) : Reading (StateOf σ) := do
  let record ← onLine line (Record.parseLiteral line)
  let type ← onLine line (typeAt labels record.type)
  addPending ⟨line, record.target, record.targetPort, .text record.text, type, record.pragmas⟩ state

inductive Kind where
  | function | node | edge | literal | compound | graph | trailer

def step (labels : List Nat) (state : StateOf σ) (entry : Kind × Word) : Reading (StateOf σ) :=
  match entry.1 with
  | .function => beginFunction labels entry.2 state
  | .node => readNode entry.2 state
  | .compound => beginCompound entry.2 state
  | .graph => beginSubgraph entry.2 state
  | .trailer => endCompound entry.2 state
  | .edge => readEdge labels entry.2 state
  | .literal => readLiteral labels entry.2 state

end Keeper

structure Document where
  types : TypeLines
  pragmas : SortedMap Char String
  body : List (Kind × Word)

def kind? (head : Word) : Option Kind :=
  match head with
  | ['X'] => some .function
  | ['N'] => some .node
  | ['E'] => some .edge
  | ['L'] => some .literal
  | ['\x7b'] => some .compound
  | ['G'] => some .graph
  | ['\x7d'] => some .trailer
  | _ => none

def addTypeLine (document : Document) (line : Word) : Reading Document := do
  let record ← onLine line (Record.parseType line)
  if document.types.contains record.label then refuse line .duplicateType
  else pure { document with types := document.types.insert record.label ⟨line, record⟩ }

def addLine (document : Document) (line : Word) : Reading Document :=
  match line with
  | 'C' :: '$' :: text => do
      let (key, value) ← onLine line (Record.parsePragma text)
      pure { document with pragmas := document.pragmas.insert key value }
  | _ =>
      let head := (Text.words line).headD []
      if head = ['T'] then addTypeLine document line
      else
        match kind? head with
        | some kind => .ok { document with body := document.body ++ [(kind, line)] }
        | none => refuse line .unknownRecord

def document (text : String) : Reading Document :=
  (Text.lines text.toList).foldlM addLine ⟨.empty, .empty, []⟩

def endLine : Word := "<end of input>".toList

def construct {σ τ : Type} [TypeTable.Keeper τ] [Keeper σ τ] (document : Document) : Reading σ := do
  checkAcyclic document.types
  document.types.entries.forM fun (_, entry) => checkChain document.types entry
  let labels := typeLabels document.types
  let m := { withTypes (typeTable document.types) with pragmas := document.pragmas }
  let state ← document.body.foldlM (step labels) ⟨Keeper.start m, []⟩
  endAll endLine state.m state.scopes

def build (document : Document) : Reading Module :=
  construct document

end Read

/-- What a text describes. It has no types but those of the text. -/
def load {σ τ : Type} [TypeTable.Keeper τ] [Keeper σ τ] (text : String) : Except ReadError σ := do
  let document ← Read.document text
  Read.construct document

def ofText (text : String) : Except ReadError Module :=
  load text

end Dataflow.Module
