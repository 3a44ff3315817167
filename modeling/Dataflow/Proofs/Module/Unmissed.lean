import Dataflow.Proofs.Module.Readable
import Dataflow.Proofs.Type.Linked
import Dataflow.Proofs.Type.Search
set_option autoImplicit false

-- No look-up misses: the graphs and compounds that have not ended are in the module, so are the nodes that
-- their graphs list, and the types that labels stand for are in the table. Reading with checks is reading.
namespace Dataflow.Module.Read.Strict
open Record (Word)
open TypeTable (LiveOption chain_ok)

/-! ### Changes on a line -/

theorem apply_bind {α β : Type} {line : Word} {first : Change α} {next : α → Change β} {m : Module} :
    apply line (first >>= next) m = apply line first m >>= fun done => apply line (next done.1) done.2 := by
  change apply line (EStateM.bind first next) m = _
  unfold apply Edit.result EStateM.bind
  cases first m <;> rfl

theorem apply_got {α : Type} {line : Word} {next : Module → Change α} {m : Module} :
    apply line (get >>= next) m = apply line (next m) m := by
  unfold apply Edit.result
  rw [Edit.bind_get]

theorem found_node {m : Module} {id : NodeId} {node : Node} (found : m.nodes[id]? = some node) :
    core (m.node id) = .ok node := by
  rw [node_ok_iff.mpr found]
  rfl

theorem found_graph {m : Module} {id : NodeId} (isGraph : m.IsGraph id) :
    ∃ graph, core (m.graph id) = .ok graph ∧ graph.nodes = m.nodesOf id := by
  obtain ⟨graph, here, found⟩ := graph_of_is_graph isGraph
  refine ⟨graph, by rw [found]; rfl, ?_⟩
  unfold nodesOf
  rw [here]
  rfl

theorem note_pragmas_run {m : Module} {id : NodeId} (pragmas : Pragmas) (inside : id < m.nodes.size) :
    notePragmas id pragmas m = .ok (setNodePragmas id pragmas m) := by
  obtain ⟨node, found⟩ := exists_node_iff.mpr inside
  exact (Outcome.bind_of_ok (found_node found)).trans rfl

/-! ### The end of a graph -/

section Ends
variable {m : Module}

theorem offer_strict {line : Word} {source : Outlet} (type : Option TypeId) (inside : source.node < m.nodes.size) :
    offer line source type m = parsed ((apply line (Read.offer source type) m).map Prod.snd) := by
  obtain ⟨node, here⟩ := exists_node_iff.mpr inside
  have held : core (outputTypeAt m source) = .ok (m.outputType? source) := by
    have shown : outputTypeAt m source = .ok ((node.outputs.get? source.port).bind Output.type) :=
      Outcome.bind_of_ok (node_ok_iff.mpr here)
    rw [shown]
    unfold outputType? output?
    rw [here]
    rfl
  unfold Read.offer
  rw [apply_got]
  cases type with
  | none => rfl
  | some type =>
      unfold offer
      dsimp only
      rw [Outcome.bind_of_ok held]
      cases m.outputType? source with
      | some known => rfl
      | none => cases apply line (setOutput source type) m <;> rfl

theorem node_at_inside {graph id : NodeId} {label : Nat} (owned : m.Owned) (isGraph : m.IsGraph graph)
    (found : nodeAt graph (m.nodesOf graph) label = .ok id) : id < m.nodes.size := by
  obtain ⟨_, role, _⟩ := scope_ok_iff.mp (node_at_scope owned isGraph found)
  exact lt_size_of_role role

theorem resolve_strict {graph : NodeId} {pending : Pending} (owned : m.Owned) (isGraph : m.IsGraph graph) :
    resolve graph (m.nodesOf graph) m pending = parsed (Read.resolve graph (m.nodesOf graph) m pending) := by
  unfold resolve Read.resolve
  cases feed : pending.feed with
  | wire label port =>
      refine parsed_bind_congr fun source sourceAt => parsed_bind_congr fun target _ => ?_
      dsimp only
      rw [offer_strict pending.type (node_at_inside owned isGraph (on_line_ok sourceAt)), feed_wire_eq, apply_bind]
      cases apply pending.line (Read.offer ⟨source, port⟩ pending.type) m with
      | error error => rfl
      | ok done =>
          change (parsed (apply _ _ done.2) >>= _) = parsed (apply _ _ done.2 >>= _)
          rw [apply_bind]
          cases apply pending.line (wire ⟨target, pending.port⟩ ⟨source, port⟩) done.2 with
          | error error => rfl
          | ok wired =>
              change (parsed (apply _ _ wired.2) >>= _) = parsed (apply _ _ wired.2 >>= _)
              cases apply pending.line (replaceInputPragmas ⟨target, pending.port⟩ pending.pragmas) wired.2 <;> rfl
  | text text =>
      refine parsed_bind_congr fun target _ => ?_
      dsimp only
      unfold feedText
      rw [apply_bind]
      cases apply pending.line (bindLiteral ⟨target, pending.port⟩ ⟨text, pending.type⟩) m with
      | error error => rfl
      | ok bound =>
          change (parsed (apply _ _ bound.2) >>= _) = parsed (apply _ _ bound.2 >>= _)
          cases apply pending.line (replaceInputPragmas ⟨target, pending.port⟩ pending.pragmas) bound.2 <;> rfl

theorem end_graph_strict {id : NodeId} {pending : List Pending} (owned : m.Owned) (isGraph : m.IsGraph id) :
    endGraph id pending m = parsed (Read.endGraph id pending m) := by
  obtain ⟨graph, found, nodes⟩ := found_graph isGraph
  refine (Outcome.bind_of_ok found).trans ?_
  rw [nodes, end_graph_eq]
  clear found nodes
  induction pending generalizing m with
  | nil => rfl
  | cons first rest ih =>
      rw [List.foldlM_cons, List.foldlM_cons, resolve_strict owned isGraph]
      refine parsed_bind_congr fun middle here => ?_
      obtain ⟨shape, _, _⟩ := same_shape_fed (fed_of_resolve owned isGraph here)
      rw [← shape.nodes id]
      exact ih (owned.of_same_shape shape) (is_graph_of_same_shape shape isGraph)

theorem end_all_strict {line : Word} {scopes : List Scope} {history : Touches Binding}
    (sound : StateSound ⟨m, scopes⟩ history) : endAll line m scopes = parsed (Read.endAll line m scopes) := by
  induction scopes generalizing m history with
  | nil => rfl
  | cons scope scopes ih =>
      cases scope with
      | compound => rfl
      | graph id pending =>
          have isGraph : m.IsGraph id := sound.scopes _ List.mem_cons_self
          unfold endAll Read.endAll
          rw [end_graph_strict sound.sound.owned isGraph]
          refine parsed_bind_congr fun changed done => ?_
          have closing : Action [] ⟨m, .graph id pending :: scopes⟩ _ ⟨changed, scopes⟩ := .close done
          obtain ⟨made, after, _⟩ := sound_action sound closing
          exact ih after

theorem end_subgraph_strict {state : State} {history : Touches Binding} (sound : StateSound state history) :
    endSubgraph state = parsed (Read.endSubgraph state) := by
  obtain ⟨m, scopes⟩ := state
  cases scopes with
  | nil => rfl
  | cons scope scopes =>
      cases scope with
      | compound => rfl
      | graph id pending =>
          have isGraph : m.IsGraph id := sound.scopes _ List.mem_cons_self
          obtain ⟨node, here, _⟩ := graph_of_is_graph isGraph
          have role : m.role? id = some node.role := by
            unfold role?
            rw [here]
            rfl
          refine (Outcome.bind_of_ok (found_node here)).trans ?_
          rw [end_subgraph_eq, role]
          cases node.role with
          | subgraph compound =>
              dsimp only
              rw [end_graph_strict sound.sound.owned isGraph]
              exact parsed_bind_congr fun _ _ => rfl
          | function name => rfl
          | node graph => rfl

end Ends

/-! ### Functions -/

theorem declare_each_strict {m : Module} {id : NodeId} {arguments : List TypeId} (start : Nat)
    (inside : id < m.nodes.size) (held : ∀ argument ∈ arguments, TypeHeld m argument) :
    ∃ changed, (arguments.zipIdx start).foldlM (declareArgument id) m = .ok changed ∧
      ((arguments.zipIdx start).forM fun (type, place) => setOutput ⟨id, place + 1⟩ type) m = .ok () changed := by
  induction arguments generalizing m start with
  | nil => exact ⟨m, rfl, rfl⟩
  | cons argument rest ih =>
      have here := @set_output_run ⟨id, start + 1⟩ _ _ (Nat.succ_pos start) (held argument List.mem_cons_self) inside
      have shape := typed_shape ⟨id, start + 1⟩ argument m
      obtain ⟨changed, folded, walked⟩ := @ih (typed ⟨id, start + 1⟩ argument m) (start + 1)
        (by rw [shape.size]; exact inside) fun other member => held other (List.mem_cons_of_mem _ member)
      have step : declareArgument id m (argument, start) = .ok (typed ⟨id, start + 1⟩ argument m) := by
        unfold declareArgument bare
        rw [Edit.result_eq_ok.mpr here]
        rfl
      refine ⟨changed, ?_, ?_⟩
      · rw [List.zipIdx_cons, List.foldlM_cons, Outcome.bind_of_ok step]
        exact folded
      · rw [List.zipIdx_cons]
        exact (Edit.bind_of_ok here).trans walked

theorem declare_arguments_strict {m : Module} {line : Word} {id : NodeId} {type : Option TypeId}
    (sane : m.types.Sane) (inside : id < m.nodes.size) (live : LiveOption m.types type) :
    declareArguments line id type m = parsed ((apply line (Read.declareArguments id type) m).map Prod.snd) := by
  rw [Read.declare_arguments_eq]
  rw [apply_got]
  cases type with
  | none => rfl
  | some type =>
      obtain ⟨definition, found⟩ := Option.isSome_iff_exists.mp (held_of_member sane.regular (live type rfl))
      have here : core (m.types.find type) = .ok definition := by
        rw [TypeTable.find_ok_iff.mpr found]
        rfl
      refine (Outcome.bind_of_ok here).trans ?_
      rw [Option.bind_some, found, Option.map_some]
      cases definition.signature with
      | function arguments results =>
          cases arguments with
          | none => rfl
          | some head =>
              dsimp only
              rw [apply_bind]
              cases chained : m.types.chain head with
              | error error =>
                  have refused : apply line (Edit.query (·.types.chain head)) m = refuse line (.refused error) := by
                    unfold apply Edit.result Edit.query
                    dsimp only
                    rw [chained]
                  rw [refused]
                  rfl
              | ok links =>
                  have queried : apply line (Edit.query (·.types.chain head)) m = .ok (links, m) :=
                    apply_of_ok (Edit.query_of_ok chained)
                  obtain ⟨_, member⟩ := chain_ok sane.regular sane.closed chained
                  obtain ⟨changed, folded, walked⟩ := declare_each_strict 0 inside
                    fun argument listed => held_of_member sane.regular (member argument listed)
                  rw [queried]
                  refine folded.trans ?_
                  change _ = parsed ((apply line _ m).map Prod.snd)
                  rw [apply_of_ok walked]
                  rfl
      | _ => rfl

/-! ### Steps -/

-- What holds between two records.
structure Steady (table : TypeTable) (state : State) : Prop where
  sound : ∃ history, StateSound state history
  readable : StateReadable table state

section Steps
variable {labels : List Nat} {table : TypeTable} {state next : State} {line : Word}

theorem steady_actions (listing : Listing labels table) (steady : Steady table state) {touches : Touches Supply}
    (run : Actions labels state touches next) : Steady table next := by
  refine run.keeps (Steady table) steady fun kept action => ?_
  obtain ⟨history, sound⟩ := kept.sound
  obtain ⟨made, after, _⟩ := sound_action sound action
  exact ⟨⟨_, after⟩, readable_action listing sound kept.readable action⟩

theorem begin_function_strict (listing : Listing labels table) (steady : Steady table state) :
    beginFunction labels line state = parsed (Read.beginFunction labels line state) := by
  obtain ⟨m, scopes⟩ := state
  obtain ⟨history, sound⟩ := steady.sound
  unfold beginFunction Read.beginFunction
  rw [end_all_strict sound]
  refine parsed_bind_congr fun ended done => parsed_bind_congr fun record _ => parsed_bind_congr fun type typed => ?_
  have ending : Actions labels ⟨m, scopes⟩ _ ⟨ended, []⟩ := end_all_actions done
  have after := steady_actions listing steady ending
  have added : bare (addFunction record.name) ended = .ok (ended.nodes.size, withFunction .xGraph record.name ended) := rfl
  have addedToo : apply line (addFunction record.name) ended =
      .ok (ended.nodes.size, withFunction .xGraph record.name ended) := rfl
  have inside : ended.nodes.size < (withFunction .xGraph record.name ended).nodes.size := by simp [withFunction]
  rw [Outcome.bind_of_ok added, Outcome.bind_of_ok addedToo]
  dsimp only
  rw [Outcome.bind_of_ok (note_pragmas_run record.pragmas inside)]
  have types : (setNodePragmas ended.nodes.size record.pragmas (withFunction .xGraph record.name ended)).types = table :=
    after.readable.readable.types
  rw [declare_arguments_strict (by rw [types]; exact listing.sane)
    (by rw [(Quiet.of_node_pragmas _ _ _).shape.size]; exact inside)
    (by rw [types]; exact listing.live (on_line_ok typed))]
  cases apply line (Read.declareArguments ended.nodes.size type)
    (setNodePragmas ended.nodes.size record.pragmas (withFunction .xGraph record.name ended)) <;> rfl

theorem add_node_at_strict (steady : Steady table state) (label : Nat) (op : Opcode) :
    addNodeAt line label op state = parsed (Read.addNodeAt line label op state) := by
  obtain ⟨m, scopes⟩ := state
  obtain ⟨history, sound⟩ := steady.sound
  cases scopes with
  | nil => rfl
  | cons scope scopes =>
      cases scope with
      | compound => rfl
      | graph graph pending =>
          obtain ⟨owner, found, nodes⟩ := found_graph (sound.scopes _ List.mem_cons_self)
          refine (Outcome.bind_of_ok found).trans ?_
          rw [nodes]
          change (if label = (m.nodesOf graph).length + 1 then _ else _) =
            parsed (if label = (m.nodesOf graph).length + 1 then _ else _)
          split <;> rfl

theorem read_node_strict (steady : Steady table state) :
    readNode line state = parsed (Read.readNode line state) := by
  refine parsed_bind_congr fun record _ => ?_
  rw [add_node_at_strict steady]
  refine parsed_bind_congr fun ⟨id, m⟩ added => ?_
  obtain ⟨graph, _, _, _, _, _, rfl, rfl⟩ := add_node_at_ok added
  refine Outcome.bind_of_ok (note_pragmas_run record.pragmas ?_)
  simp [withNode]

theorem begin_compound_strict (steady : Steady table state) :
    beginCompound line state = parsed (Read.beginCompound line state) := by
  refine parsed_bind_congr fun header _ => ?_
  rw [add_node_at_strict steady]
  exact parsed_bind_congr fun _ _ => rfl

theorem begin_subgraph_strict (steady : Steady table state) :
    beginSubgraph line state = parsed (Read.beginSubgraph line state) := by
  obtain ⟨history, sound⟩ := steady.sound
  refine parsed_bind_congr fun pragmas _ => ?_
  rw [end_subgraph_strict sound]
  refine parsed_bind_congr fun ⟨m, scopes⟩ _ => ?_
  cases scopes with
  | nil => rfl
  | cons scope scopes =>
      cases scope with
      | graph => rfl
      | compound compound header graphs =>
          refine parsed_bind_congr fun ⟨id, changed⟩ added => ?_
          obtain ⟨_, rfl, rfl⟩ := add_graph_ok (apply_ok added)
          refine Outcome.bind_of_ok (note_pragmas_run pragmas ?_)
          simp [withGraph, appendChild]

theorem end_compound_strict (listing : Listing labels table) (steady : Steady table state) :
    endCompound line state = parsed (Read.endCompound line state) := by
  obtain ⟨history, sound⟩ := steady.sound
  unfold endCompound Read.endCompound
  rw [end_subgraph_strict sound]
  refine parsed_bind_congr fun ⟨m, scopes⟩ ended => ?_
  cases scopes with
  | nil => rfl
  | cons scope scopes =>
      cases scope with
      | graph => rfl
      | compound id header graphs =>
          have after := steady_actions listing steady (end_subgraph_actions ended rfl)
          obtain ⟨_, soundToo⟩ := after.sound
          obtain ⟨⟨graph, role⟩, _⟩ := soundToo.scopes _ List.mem_cons_self
          obtain ⟨node, found⟩ := exists_node_iff.mpr (lt_size_of_role role)
          refine parsed_bind_congr fun ⟨children, pragmas⟩ _ => ?_
          exact Outcome.bind_of_ok (found_node found)

theorem step_strict (listing : Listing labels table) (steady : Steady table state) (entry : Kind × Word) :
    step labels state entry = parsed (Read.step labels state entry) := by
  obtain ⟨kind, line⟩ := entry
  cases kind with
  | function => exact begin_function_strict listing steady
  | node => exact read_node_strict steady
  | compound => exact begin_compound_strict steady
  | graph => exact begin_subgraph_strict steady
  | trailer => exact end_compound_strict listing steady
  | edge => rfl
  | literal => rfl

theorem body_strict (listing : Listing labels table) (steady : Steady table state) {body : List (Kind × Word)}
    (single : ∀ entry ∈ body, '\n' ∉ entry.2) :
    body.foldlM (step labels) state = parsed (body.foldlM (Read.step labels) state) := by
  induction body generalizing state with
  | nil => rfl
  | cons entry rest ih =>
      obtain ⟨here, later⟩ := List.forall_mem_cons.mp single
      rw [List.foldlM_cons, List.foldlM_cons, step_strict listing steady]
      exact parsed_bind_congr fun middle done => ih (steady_actions listing steady (step_actions here done)) later

theorem steady_body (listing : Listing labels table) (steady : Steady table state) {body : List (Kind × Word)}
    (single : ∀ entry ∈ body, '\n' ∉ entry.2) (done : body.foldlM (Read.step labels) state = .ok next) :
    Steady table next :=
  Outcome.fold_m_keeps (Steady table) (fun _ entry _ member kept here =>
    steady_actions listing kept (step_actions (single entry member) here)) steady done

end Steps

/-! ### Texts -/

theorem build_strict {document : Document} (gathered : Gathered document) :
    build document = parsed (Read.build document) := by
  unfold build Read.build Read.construct
  rw [search_eq]
  refine parsed_bind_congr fun _ acyclic => ?_
  refine type_table_bind fun chains => ?_
  have listing := listing_of_document gathered (sane_table gathered.types acyclic chains)
  have steady : Steady (Read.typeTable document.types) ⟨startModule document, []⟩ :=
    ⟨⟨[], start_sound document⟩, readable_start gathered.pragmas⟩
  change (document.body.foldlM (step _) ⟨startModule document, []⟩ >>= _) =
    parsed (document.body.foldlM (Read.step _) ⟨startModule document, []⟩ >>= _)
  rw [body_strict listing steady gathered.single]
  refine parsed_bind_congr fun state done => ?_
  obtain ⟨history, sound⟩ := (steady_body listing steady gathered.single done).sound
  exact end_all_strict sound

theorem read_strict (text : String) : read text = parsed (ofText text) :=
  parsed_bind_congr fun _ done => build_strict (gathered_document done)

end Dataflow.Module.Read.Strict
