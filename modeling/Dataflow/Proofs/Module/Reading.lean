import Dataflow.Proofs.Module.Closing
import Dataflow.Proofs.Record.Document
import Dataflow.Proofs.Record.Parsed
set_option autoImplicit false

-- Reading as a machine. A record ends the innermost graph or not, and then does one thing more; a
-- state is a module and the scopes that have not ended. The touches of an action are those of the
-- graph that it ends.
namespace Dataflow.Module.Read
open Record (Word)
open Touches

def closed (children : List NodeId) (pragmas : Pragmas) (node : Node) : Node :=
  { node with children := children, pragmas := pragmas }

def edgePending (line : Word) (record : EdgeRecord) (type : Option TypeId) : Pending :=
  ⟨line, record.target, record.targetPort, .wire record.source record.sourcePort, type, record.pragmas⟩

def literalPending (line : Word) (record : LiteralRecord) (type : Option TypeId) : Pending :=
  ⟨line, record.target, record.targetPort, .text record.text, type, record.pragmas⟩

inductive Action (labels : List Nat) : State → Touches Supply → State → Prop
  | close {m changed : Module} {id : NodeId} {pending : List Pending} {scopes : List Scope}
      (done : endGraph id pending m = .ok changed) :
      Action labels ⟨m, .graph id pending :: scopes⟩ (closingTouches m id pending) ⟨changed, scopes⟩
  | function {m declared : Module} {line : Word} {record : FunctionRecord} {type : Option TypeId}
      (single : '\n' ∉ line) (parsed : Record.parseFunction line = .ok record)
      (typed : typeAt labels record.type = .ok type)
      (declares : declareArguments m.nodes.size type (setNodePragmas m.nodes.size record.pragmas
        (withFunction .xGraph record.name m)) = .ok () declared) :
      Action labels ⟨m, []⟩ [] ⟨declared, [.graph m.nodes.size []]⟩
  | node {m : Module} {line : Word} {record : NodeRecord} {graph : NodeId} {pending : List Pending}
      {scopes : List Scope} (parsed : Record.parseNode line = .ok record) (isGraph : m.IsGraph graph)
      (label : record.label = (m.nodesOf graph).length + 1) :
      Action labels ⟨m, .graph graph pending :: scopes⟩ []
        ⟨setNodePragmas m.nodes.size record.pragmas (withNode graph record.opcode m),
          .graph graph pending :: scopes⟩
  | compound {m : Module} {line : Word} {header : CompoundRecord} {graph : NodeId}
      {pending : List Pending} {scopes : List Scope} (parsed : Record.parseCompound line = .ok header)
      (isGraph : m.IsGraph graph) (label : header.label = (m.nodesOf graph).length + 1) :
      Action labels ⟨m, .graph graph pending :: scopes⟩ []
        ⟨withNode graph header.opcode m,
          .compound m.nodes.size header [] :: .graph graph pending :: scopes⟩
  | subgraph {m : Module} {line : Word} {pragmas : Pragmas} {compound : NodeId}
      {header : CompoundRecord} {graphs : List NodeId} {scopes : List Scope}
      (parsed : Record.parseGraph line = .ok pragmas)
      (plain : ∃ graph, m.role? compound = some (.node graph)) :
      Action labels ⟨m, .compound compound header graphs :: scopes⟩ []
        ⟨setNodePragmas m.nodes.size pragmas (withGraph compound m),
          .graph m.nodes.size [] :: .compound compound header (graphs ++ [m.nodes.size]) :: scopes⟩
  | trailer {m : Module} {line : Word} {id : NodeId} {header : CompoundRecord} {graphs : List NodeId}
      {scopes : List Scope} {children : List NodeId} {pragmas : Pragmas}
      (parsed : Record.parseTrailer header graphs line = .ok (children, pragmas)) :
      Action labels ⟨m, .compound id header graphs :: scopes⟩ []
        ⟨modifyNode id (closed children pragmas) m, scopes⟩
  | edge {m : Module} {line : Word} {record : EdgeRecord} {type : Option TypeId} {id : NodeId}
      {pending : List Pending} {scopes : List Scope} (parsed : Record.parseEdge line = .ok record)
      (typed : typeAt labels record.type = .ok type) :
      Action labels ⟨m, .graph id pending :: scopes⟩ []
        ⟨m, .graph id (pending ++ [edgePending line record type]) :: scopes⟩
  | literal {m : Module} {line : Word} {record : LiteralRecord} {type : Option TypeId} {id : NodeId}
      {pending : List Pending} {scopes : List Scope} (single : '\n' ∉ line)
      (parsed : Record.parseLiteral line = .ok record) (typed : typeAt labels record.type = .ok type) :
      Action labels ⟨m, .graph id pending :: scopes⟩ []
        ⟨m, .graph id (pending ++ [literalPending line record type]) :: scopes⟩

inductive Actions (labels : List Nat) : State → Touches Supply → State → Prop
  | nil (state : State) : Actions labels state [] state
  | cons {state middle final : State} {here later : Touches Supply}
      (action : Action labels state here middle) (rest : Actions labels middle later final) :
      Actions labels state (here ++ later) final

namespace Actions

variable {labels : List Nat} {state middle final : State} {here later : Touches Supply}

theorem single (action : Action labels state here final) : Actions labels state here final := by
  have run := cons action (.nil final)
  rw [List.append_nil] at run
  exact run

theorem append (first : Actions labels state here middle) (second : Actions labels middle later final) :
    Actions labels state (here ++ later) final := by
  induction first with
  | nil state => exact second
  | cons action _ ih =>
      rw [List.append_assoc]
      exact .cons action (ih second)

theorem snoc (first : Actions labels state here middle) (action : Action labels middle [] final) :
    Actions labels state here final := by
  have run := first.append (single action)
  rw [List.append_nil] at run
  exact run

-- What every action keeps, a whole reading keeps.
theorem keeps (holds : State → Prop) (run : Actions labels state here final) (start : holds state)
    (kept : ∀ {state touches next}, holds state → Action labels state touches next → holds next) :
    holds final := by
  induction run with
  | nil state => exact start
  | cons action _ ih => exact ih (kept start action)

end Actions

/-! ### Touches of a text -/

def endTouches (m : Module) : List Scope → Touches Supply
  | .graph id pending :: scopes =>
      closingTouches m id pending ++
        match endGraph id pending m with
        | .ok m => endTouches m scopes
        | .error _ => []
  | _ => []

def headTouches (state : State) : Touches Supply :=
  match state.scopes with
  | .graph id pending :: _ => closingTouches state.m id pending
  | _ => []

def stepTouches (state : State) : Kind → Touches Supply
  | .function => endTouches state.m state.scopes
  | .graph | .trailer => headTouches state
  | .node | .edge | .literal | .compound => []

def bodyTouches (labels : List Nat) (state : State) : List (Kind × Word) → Touches Supply
  | [] => endTouches state.m state.scopes
  | entry :: rest =>
      stepTouches state entry.1 ++
        match step labels state entry with
        | .ok next => bodyTouches labels next rest
        | .error _ => []

def startModule (document : Document) : Module :=
  { withTypes (typeTable document.types) with pragmas := document.pragmas }

def documentTouches (document : Document) : Touches Supply :=
  bodyTouches (typeLabels document.types) ⟨startModule document, []⟩ document.body

/-! ### Steps as actions -/

variable {labels : List Nat}

theorem end_all_actions {line : Word} {m changed : Module} {scopes : List Scope}
    (done : endAll line m scopes = .ok changed) :
    Actions labels ⟨m, scopes⟩ (endTouches m scopes) ⟨changed, []⟩ := by
  induction scopes generalizing m with
  | nil =>
      cases done
      exact .nil _
  | cons scope scopes ih =>
      cases scope with
      | compound => cases done
      | graph id pending =>
          obtain ⟨middle, here, later⟩ := Outcome.bind_ok done
          simp only [endTouches, here]
          exact .cons (.close here) (ih later)

theorem end_subgraph_eq (m : Module) (id : NodeId) (pending : List Pending) (scopes : List Scope) :
    endSubgraph ⟨m, .graph id pending :: scopes⟩ =
      match m.role? id with
      | some (.subgraph _) => endGraph id pending m >>= fun m => pure ⟨m, scopes⟩
      | _ => .ok ⟨m, .graph id pending :: scopes⟩ := rfl

theorem end_subgraph_ok {state next : State} (done : endSubgraph state = .ok next) :
    (∃ id pending scopes m, state.scopes = .graph id pending :: scopes ∧
      endGraph id pending state.m = .ok m ∧ next = ⟨m, scopes⟩) ∨ next = state := by
  obtain ⟨m, scopes⟩ := state
  cases scopes with
  | nil =>
      cases done
      exact .inr rfl
  | cons scope scopes =>
      cases scope with
      | compound =>
          cases done
          exact .inr rfl
      | graph id pending =>
          rw [end_subgraph_eq] at done
          cases role : m.role? id with
          | none =>
              rw [role] at done
              cases done
              exact .inr rfl
          | some role' =>
              rw [role] at done
              cases role' with
              | subgraph compound =>
                  obtain ⟨changed, here, later⟩ := Outcome.bind_ok done
                  cases later
                  exact .inl ⟨id, pending, scopes, changed, rfl, here, rfl⟩
              | function name =>
                  cases done
                  exact .inr rfl
              | node graph =>
                  cases done
                  exact .inr rfl

-- A record of a compound that follows the end of a child graph finds the compound.
theorem end_subgraph_actions {state next : State} {id : NodeId} {header : CompoundRecord}
    {graphs : List NodeId} {scopes : List Scope} (done : endSubgraph state = .ok next)
    (found : next.scopes = .compound id header graphs :: scopes) :
    Actions labels state (headTouches state) next := by
  rcases end_subgraph_ok done with ⟨graph, pending, rest, m, scope, here, rfl⟩ | rfl
  · obtain ⟨before, after⟩ := state
    change after = _ at scope
    subst scope
    exact .single (.close here)
  · have none : headTouches next = [] := by simp [headTouches, found]
    rw [none]
    exact .nil next

theorem add_node_at_ok {line : Word} {label : Nat} {op : Opcode} {state : State} {id : NodeId}
    {changed : Module} (done : addNodeAt line label op state = .ok (id, changed)) :
    ∃ graph pending scopes, state.scopes = .graph graph pending :: scopes ∧
      state.m.IsGraph graph ∧ label = (state.m.nodesOf graph).length + 1 ∧
      id = state.m.nodes.size ∧ changed = withNode graph op state.m := by
  obtain ⟨m, scopes⟩ := state
  cases scopes with
  | nil => cases done
  | cons scope scopes =>
      cases scope with
      | compound => cases done
      | graph graph pending =>
          change (if label = (m.nodesOf graph).length + 1 then apply line (addNode graph op) m
            else refuse line _) = _ at done
          by_cases expected : label = (m.nodesOf graph).length + 1
          · rw [if_pos expected] at done
            have step := apply_ok done
            cases found : m.graph graph with
            | error error =>
                rw [add_node_refused found] at step
                cases step
            | ok owner =>
                rw [add_node_run found] at step
                cases step
                exact ⟨graph, pending, scopes, rfl, is_graph_of_graph found, expected, rfl, rfl⟩
          · rw [if_neg expected] at done
            cases done

theorem begin_function_actions {line : Word} {state next : State} (single : '\n' ∉ line)
    (done : beginFunction labels line state = .ok next) :
    Actions labels state (endTouches state.m state.scopes) next := by
  obtain ⟨m, ended, done⟩ := Outcome.bind_ok done
  obtain ⟨record, parsed, done⟩ := Outcome.bind_ok done
  obtain ⟨type, typed, done⟩ := Outcome.bind_ok done
  obtain ⟨⟨id, added⟩, adding, done⟩ := Outcome.bind_ok done
  have adding := apply_ok adding
  cases adding
  obtain ⟨⟨_, declared⟩, declaring, done⟩ := Outcome.bind_ok done
  cases done
  exact (end_all_actions ended).snoc (.function single (on_line_ok parsed) (on_line_ok typed) (apply_ok declaring))

theorem read_node_actions {line : Word} {state next : State} (done : readNode line state = .ok next) :
    Actions labels state [] next := by
  obtain ⟨record, parsed, done⟩ := Outcome.bind_ok done
  obtain ⟨⟨id, m⟩, adding, done⟩ := Outcome.bind_ok done
  cases done
  obtain ⟨graph, pending, scopes, scope, isGraph, label, rfl, rfl⟩ := add_node_at_ok adding
  obtain ⟨before, after⟩ := state
  change after = _ at scope
  subst scope
  exact .single (.node (on_line_ok parsed) isGraph label)

theorem begin_compound_actions {line : Word} {state next : State}
    (done : beginCompound line state = .ok next) : Actions labels state [] next := by
  obtain ⟨header, parsed, done⟩ := Outcome.bind_ok done
  obtain ⟨⟨id, m⟩, adding, done⟩ := Outcome.bind_ok done
  cases done
  obtain ⟨graph, pending, scopes, scope, isGraph, label, rfl, rfl⟩ := add_node_at_ok adding
  obtain ⟨before, after⟩ := state
  change after = _ at scope
  subst scope
  exact .single (.compound (on_line_ok parsed) isGraph label)

theorem add_graph_ok {compound id : NodeId} {m changed : Module}
    (done : addGraph compound m = .ok id changed) :
    (∃ graph, m.role? compound = some (.node graph)) ∧ id = m.nodes.size ∧
      changed = withGraph compound m := by
  cases found : m.nodes[compound]? with
  | none =>
      obtain ⟨error, refused⟩ := add_graph_refused compound m (by simp [found])
      rw [refused] at done
      cases done
  | some owner =>
      cases plain : owner.isGraph with
      | false =>
          rw [add_graph_run found plain] at done
          cases done
          exact ⟨plain_of_node found plain, rfl, rfl⟩
      | true =>
          obtain ⟨error, refused⟩ := add_graph_refused compound m (by simp [found, plain])
          rw [refused] at done
          cases done

theorem begin_subgraph_ok {line : Word} {state next : State} (done : beginSubgraph line state = .ok next) :
    ∃ pragmas m compound header graphs scopes, Record.parseGraph line = .ok pragmas ∧
      endSubgraph state = .ok ⟨m, .compound compound header graphs :: scopes⟩ ∧
      (∃ graph, m.role? compound = some (.node graph)) ∧
      next = ⟨setNodePragmas m.nodes.size pragmas (withGraph compound m),
        .graph m.nodes.size [] :: .compound compound header (graphs ++ [m.nodes.size]) :: scopes⟩ := by
  obtain ⟨pragmas, parsed, done⟩ := Outcome.bind_ok done
  obtain ⟨⟨m, scopes⟩, ended, done⟩ := Outcome.bind_ok done
  cases scopes with
  | nil => cases done
  | cons scope scopes =>
      cases scope with
      | graph => cases done
      | compound compound header graphs =>
          obtain ⟨⟨id, changed⟩, adding, done⟩ := Outcome.bind_ok done
          cases done
          obtain ⟨plain, rfl, rfl⟩ := add_graph_ok (apply_ok adding)
          exact ⟨pragmas, m, compound, header, graphs, scopes, on_line_ok parsed, ended, plain, rfl⟩

theorem begin_subgraph_actions {line : Word} {state next : State}
    (done : beginSubgraph line state = .ok next) :
    Actions labels state (headTouches state) next := by
  obtain ⟨_, _, _, _, _, _, parsed, ended, plain, rfl⟩ := begin_subgraph_ok done
  exact (end_subgraph_actions ended rfl).snoc (.subgraph parsed plain)

theorem end_compound_ok {line : Word} {state next : State} (done : endCompound line state = .ok next) :
    ∃ children pragmas m id header graphs scopes,
      endSubgraph state = .ok ⟨m, .compound id header graphs :: scopes⟩ ∧
      Record.parseTrailer header graphs line = .ok (children, pragmas) ∧
      next = ⟨modifyNode id (closed children pragmas) m, scopes⟩ := by
  obtain ⟨⟨m, scopes⟩, ended, done⟩ := Outcome.bind_ok done
  cases scopes with
  | nil => cases done
  | cons scope scopes =>
      cases scope with
      | graph => cases done
      | compound id header graphs =>
          obtain ⟨⟨children, pragmas⟩, parsed, done⟩ := Outcome.bind_ok done
          cases done
          exact ⟨children, pragmas, m, id, header, graphs, scopes, ended, on_line_ok parsed, rfl⟩

theorem end_compound_actions {line : Word} {state next : State}
    (done : endCompound line state = .ok next) :
    Actions labels state (headTouches state) next := by
  obtain ⟨_, _, _, _, _, _, _, ended, parsed, rfl⟩ := end_compound_ok done
  exact (end_subgraph_actions ended rfl).snoc (.trailer parsed)

theorem add_pending_ok {pending : Pending} {state next : State}
    (done : addPending pending state = .ok next) :
    ∃ id earlier scopes, state.scopes = .graph id earlier :: scopes ∧
      next = ⟨state.m, .graph id (earlier ++ [pending]) :: scopes⟩ := by
  obtain ⟨m, scopes⟩ := state
  cases scopes with
  | nil => cases done
  | cons scope scopes =>
      cases scope with
      | compound => cases done
      | graph id earlier =>
          cases done
          exact ⟨id, earlier, scopes, rfl, rfl⟩

theorem read_edge_actions {line : Word} {state next : State}
    (done : readEdge labels line state = .ok next) : Actions labels state [] next := by
  obtain ⟨record, parsed, done⟩ := Outcome.bind_ok done
  obtain ⟨type, typed, done⟩ := Outcome.bind_ok done
  obtain ⟨id, earlier, scopes, scope, rfl⟩ := add_pending_ok done
  obtain ⟨before, after⟩ := state
  change after = _ at scope
  subst scope
  exact .single (.edge (on_line_ok parsed) (on_line_ok typed))

theorem read_literal_actions {line : Word} {state next : State} (single : '\n' ∉ line)
    (done : readLiteral labels line state = .ok next) : Actions labels state [] next := by
  obtain ⟨record, parsed, done⟩ := Outcome.bind_ok done
  obtain ⟨type, typed, done⟩ := Outcome.bind_ok done
  obtain ⟨id, earlier, scopes, scope, rfl⟩ := add_pending_ok done
  obtain ⟨before, after⟩ := state
  change after = _ at scope
  subst scope
  exact .single (.literal single (on_line_ok parsed) (on_line_ok typed))

theorem step_actions {state next : State} {entry : Kind × Word} (single : '\n' ∉ entry.2)
    (done : step labels state entry = .ok next) :
    Actions labels state (stepTouches state entry.1) next := by
  obtain ⟨kind, line⟩ := entry
  cases kind with
  | function => exact begin_function_actions single done
  | node => exact read_node_actions done
  | edge => exact read_edge_actions done
  | literal => exact read_literal_actions single done
  | compound => exact begin_compound_actions done
  | graph => exact begin_subgraph_actions done
  | trailer => exact end_compound_actions done

theorem body_actions {line : Word} {state : State} {body : List (Kind × Word)} {final : State}
    {m : Module} (single : ∀ entry ∈ body, '\n' ∉ entry.2) (done : body.foldlM (step labels) state = .ok final)
    (ended : endAll line final.m final.scopes = .ok m) :
    Actions labels state (bodyTouches labels state body) ⟨m, []⟩ := by
  induction body generalizing state with
  | nil =>
      cases done
      exact end_all_actions ended
  | cons entry rest ih =>
      obtain ⟨middle, here, later⟩ := Outcome.fold_m_cons done
      simp only [bodyTouches, here]
      exact (step_actions (single entry List.mem_cons_self) here).append
        (ih (fun other member => single other (List.mem_cons_of_mem _ member)) later)

theorem build_actions {document : Document} {m : Module} (single : ∀ entry ∈ document.body, '\n' ∉ entry.2)
    (done : build document = .ok m) :
    Actions (typeLabels document.types) ⟨startModule document, []⟩ (documentTouches document) ⟨m, []⟩ := by
  obtain ⟨_, _, done⟩ := Outcome.bind_ok done
  obtain ⟨_, _, done⟩ := Outcome.bind_ok done
  obtain ⟨final, folded, ended⟩ := Outcome.bind_ok done
  exact body_actions single folded ended

/-! ### What actions keep -/

def ScopeSound (m : Module) : Scope → Prop
  | .graph id _ => m.IsGraph id
  | .compound id _ graphs =>
      (∃ graph, m.role? id = some (.node graph)) ∧ ∀ graph ∈ graphs, m.role? graph = some (.subgraph id)

theorem scope_sound_of_role {m changed : Module} {scope : Scope}
    (role : ∀ {id role}, m.role? id = some role → changed.role? id = some role)
    (sound : ScopeSound m scope) : ScopeSound changed scope := by
  cases scope with
  | graph id pending => exact is_graph_of_role (fun _ => role) sound
  | compound id header graphs =>
      obtain ⟨⟨graph, plain⟩, inside⟩ := sound
      exact ⟨⟨graph, role plain⟩, fun child member => role (inside child member)⟩

structure StateSound (state : State) (history : Touches Binding) : Prop where
  sound : state.m.Sound history
  scopes : ∀ scope ∈ state.scopes, ScopeSound state.m scope

theorem declare_arguments_eq (id : NodeId) (type : Option TypeId) :
    declareArguments id type = (do
      let m : Module ← get
      match (type.bind m.types.get?).map TypeDef.signature with
      | some (.function (some arguments) _) =>
          let types ← Edit.query (·.types.chain arguments)
          types.zipIdx.forM fun (type, place) => setOutput ⟨id, place + 1⟩ type
      | _ => pure ()) := rfl

theorem quiet_declare_arguments (id : NodeId) (type : Option TypeId) :
    QuietEdit (declareArguments id type) := by
  rw [declare_arguments_eq]
  refine quiet_bind quiet_get fun m => ?_
  split
  · refine quiet_bind (quiet_query _) fun types => ?_
    exact Edit.moves_each Quiet.refl Quiet.trans (fun entry : TypeId × Nat => quiet_set_output _ entry.1) _
  · exact quiet_pure _

theorem role_closed (m : Module) (id : NodeId) (children : List NodeId) (pragmas : Pragmas) (query : NodeId) :
    (modifyNode id (closed children pragmas) m).role? query = m.role? query :=
  role_modify m query fun _ => rfl

theorem children_closed {m : Module} {id : NodeId} (children : List NodeId) (pragmas : Pragmas)
    (inside : id < m.nodes.size) (query : NodeId) :
    (modifyNode id (closed children pragmas) m).childrenOf query =
      if query = id then children else m.childrenOf query := by
  simp only [childrenOf, nodes_modify]
  by_cases same : query = id
  · obtain ⟨node, found⟩ := exists_node_iff.mpr inside
    subst same
    simp [found, closed]
  · simp [same]

theorem nodes_closed (m : Module) (id : NodeId) (children : List NodeId) (pragmas : Pragmas) (query : NodeId) :
    (modifyNode id (closed children pragmas) m).nodesOf query = m.nodesOf query := by
  simp only [nodesOf, nodes_modify]
  split
  · cases m.nodes[query]? <;> rfl
  · rfl

theorem owned_closed {m : Module} {id : NodeId} {children : List NodeId} (pragmas : Pragmas)
    (inside : id < m.nodes.size) (roles : ∀ child ∈ children, m.role? child = some (.subgraph id))
    (owned : m.Owned) : (modifyNode id (closed children pragmas) m).Owned := by
  have same := role_closed m id children pragmas
  constructor
  · intro node graph found
    rw [same] at found
    obtain ⟨before, isGraph, member⟩ := owned.held found
    refine ⟨before, is_graph_of_role (fun role here => by rw [same]; exact here) isGraph, ?_⟩
    rw [nodes_closed]
    exact member
  · intro node graph member
    rw [nodes_closed] at member
    rw [same]
    exact owned.listed member
  · intro graph
    rw [nodes_closed]
    exact owned.once graph
  · intro node compound found
    rw [same] at found
    rw [same]
    exact owned.inside found
  · intro node compound member
    rw [children_closed children pragmas inside] at member
    rw [same]
    split at member
    · rename_i here
      rw [here]
      exact roles node member
    · exact owned.child member
  · intro node
    rw [same]
    exact owned.registered
  · exact owned.inOrder

theorem sound_action {state next : State} {touches : Touches Supply} {history : Touches Binding}
    (sound : StateSound state history) (action : Action labels state touches next) :
    ∃ made, StateSound next (history ++ made) ∧ relabel Binding.supply made = touches := by
  obtain ⟨kept, scopes⟩ := sound
  cases action with
  | @close m changed id pending rest done =>
      have isGraph : m.IsGraph id := scopes _ List.mem_cons_self
      obtain ⟨made, final, touched⟩ := sound_end_graph isGraph kept done
      obtain ⟨_, shape, _, _⟩ := end_graph_keeps (fun _ => True) kept.owned isGraph trivial
        (fun _ _ _ _ _ _ _ => trivial) done
      refine ⟨made, ⟨final, fun scope member => ?_⟩, touched⟩
      exact scope_sound_of_role (fun {query} _ here => (shape.role query).trans here)
        (scopes scope (List.mem_cons_of_mem _ member))
  | @function m declared line record type single parsed typed declares =>
      have quiet : Quiet (withFunction .xGraph record.name m) declared := by
        have both := quiet_declare_arguments m.nodes.size type
          (setNodePragmas m.nodes.size record.pragmas (withFunction .xGraph record.name m))
        rw [Edit.after_of_ok declares] at both
        exact .trans _ _ _ (Quiet.of_node_pragmas _ _ _) both
      refine ⟨[], ⟨((sound_add_function .xGraph record.name kept).of_quiet quiet).unmoved, ?_⟩, rfl⟩
      intro scope member
      rw [List.mem_singleton.mp member]
      refine ⟨.function record.name, ?_, fun graph => by simp⟩
      rw [quiet.shape.role, role_with_function, if_pos rfl]
  | @node m line record graph pending rest parsed isGraph label =>
      have extends_ := Extends.of_node (m := m) graph record.opcode
      have quiet := Quiet.of_node_pragmas (withNode graph record.opcode m) m.nodes.size record.pragmas
      have added := kept.of_extends extends_ (owned_with_node record.opcode isGraph kept.owned)
      refine ⟨[], ⟨(added.of_quiet quiet).unmoved, fun scope member => ?_⟩, rfl⟩
      exact scope_sound_of_role
        (fun {query} _ here => (quiet.shape.role query).trans (extends_.role here)) (scopes scope member)
  | @compound m line header graph pending rest parsed isGraph label =>
      have extends_ := Extends.of_node (m := m) graph header.opcode
      have added := kept.of_extends extends_ (owned_with_node header.opcode isGraph kept.owned)
      refine ⟨[], ⟨added.unmoved, fun scope member => ?_⟩, rfl⟩
      rcases List.mem_cons.mp member with rfl | member
      · refine ⟨⟨graph, ?_⟩, fun graph none => by cases none⟩
        rw [role_with_node, if_pos rfl]
      · exact scope_sound_of_role extends_.role (scopes scope member)
  | @subgraph m line pragmas compound header graphs rest parsed plain =>
      have extends_ := Extends.of_graph (m := m) compound
      have quiet := Quiet.of_node_pragmas (withGraph compound m) m.nodes.size pragmas
      have added := kept.of_extends extends_ (owned_with_graph plain kept.owned)
      have old : ∀ {query role}, m.role? query = some role →
          (setNodePragmas m.nodes.size pragmas (withGraph compound m)).role? query = some role :=
        fun {query} _ here => (quiet.shape.role query).trans (extends_.role here)
      have new : (setNodePragmas m.nodes.size pragmas (withGraph compound m)).role? m.nodes.size =
          some (.subgraph compound) := by
        rw [quiet.shape.role, role_with_graph, if_pos rfl]
      refine ⟨[], ⟨(added.of_quiet quiet).unmoved, fun scope member => ?_⟩, rfl⟩
      rcases List.mem_cons.mp member with rfl | member
      · exact ⟨_, new, fun graph => by simp⟩
      rcases List.mem_cons.mp member with rfl | member
      · obtain ⟨⟨graph, here⟩, inside⟩ := scopes _ List.mem_cons_self
        refine ⟨⟨graph, old here⟩, fun child listed => ?_⟩
        rcases List.mem_append.mp listed with listed | last
        · exact old (inside child listed)
        · rw [List.mem_singleton.mp last]
          exact new
      · exact scope_sound_of_role old (scopes scope (List.mem_cons_of_mem _ member))
  | @trailer m line id header graphs rest children pragmas parsed =>
      obtain ⟨⟨graph, role⟩, inside⟩ := scopes _ List.mem_cons_self
      obtain ⟨_, listed, _⟩ := Record.parse_trailer_ok parsed
      have owned := owned_closed pragmas (lt_size_of_role role)
        (fun child member => inside child (listed member)) kept.owned
      have extends_ : Extends m (modifyNode id (closed children pragmas) m) :=
        .of_modify _ _ (fun _ => rfl) (fun _ => rfl) fun _ => rfl
      refine ⟨[], ⟨(kept.of_extends extends_ owned).unmoved, fun scope member => ?_⟩, rfl⟩
      exact scope_sound_of_role extends_.role (scopes scope (List.mem_cons_of_mem _ member))
  | edge parsed typed | literal single parsed typed =>
      have innermost := scopes _ List.mem_cons_self
      refine ⟨[], ⟨kept.unmoved, fun scope member => ?_⟩, rfl⟩
      rcases List.mem_cons.mp member with rfl | member
      · exact innermost
      · exact scopes scope (List.mem_cons_of_mem _ member)

theorem sound_actions {state final : State} {touches : Touches Supply} {history : Touches Binding}
    (sound : StateSound state history) (run : Actions labels state touches final) :
    ∃ made, StateSound final (history ++ made) ∧ relabel Binding.supply made = touches := by
  induction run generalizing history with
  | nil state =>
      refine ⟨[], ?_, rfl⟩
      rw [List.append_nil]
      exact sound
  | cons action _ ih =>
      obtain ⟨made, kept, touched⟩ := sound_action sound action
      obtain ⟨more, final, others⟩ := ih kept
      refine ⟨made ++ more, ?_, ?_⟩
      · rw [← List.append_assoc]
        exact final
      · rw [relabel_append, touched, others]

theorem start_sound (document : Document) : StateSound ⟨startModule document, []⟩ [] :=
  ⟨sound_with_types _ _, fun scope member => by cases member⟩

theorem sound_build {document : Document} {m : Module} (single : ∀ entry ∈ document.body, '\n' ∉ entry.2)
    (done : build document = .ok m) :
    ∃ history, m.Sound history ∧ relabel Binding.supply history = documentTouches document := by
  obtain ⟨made, final, touched⟩ := sound_actions (start_sound document) (build_actions single done)
  exact ⟨made, final.sound, touched⟩

end Dataflow.Module.Read
