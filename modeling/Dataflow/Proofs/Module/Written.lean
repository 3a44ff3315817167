import Dataflow.Proofs.Module.Settled
set_option autoImplicit false

-- What is written for the parts of a module, as derivations: for a part the nodes that are visited,
-- in order, and the records. Derivations are as deep as graphs are nested, so there is no bound on
-- the depth to carry.
namespace Dataflow.Module

inductive Part where
  | node (id : NodeId)
  | nodes (ids : List NodeId)
  | graphs (ids : List NodeId)

def offsetsOf (node : Node) : List Nat :=
  node.children.map fun child => node.distinctChildren.idxOf child

inductive Written (m : Module) : Part → List NodeId → List Record → Prop
  | plain {id : NodeId} {node : Node} {label : Nat} {bindings : List Record}
      (found : m.nodes[id]? = some node) (labelled : m.label id = .ok label) (bare : node.children = [])
      (fed : m.bindingRecords label node = .ok bindings) :
      Written m (.node id) [id] (.node ⟨label, node.opcode, node.pragmas⟩ :: bindings)
  | compound {id : NodeId} {node : Node} {label : Nat} {order : List NodeId} {bodies bindings : List Record}
      (found : m.nodes[id]? = some node) (labelled : m.label id = .ok label) (holds : node.children ≠ [])
      (inner : Written m (.graphs node.distinctChildren) order bodies)
      (fed : m.bindingRecords label node = .ok bindings) :
      Written m (.node id) (id :: order) (.compound ⟨label, node.opcode⟩ :: bodies
        ++ .trailer ⟨label, node.opcode, offsetsOf node, node.pragmas⟩ :: bindings)
  | noNodes : Written m (.nodes []) [] []
  | nodes {id : NodeId} {ids first second : List NodeId} {here later : List Record}
      (head : Written m (.node id) first here) (rest : Written m (.nodes ids) second later) :
      Written m (.nodes (id :: ids)) (first ++ second) (here ++ later)
  | noGraphs : Written m (.graphs []) [] []
  | graphs {id : NodeId} {ids first second : List NodeId} {node : Node} {results here later : List Record}
      (found : m.nodes[id]? = some node) (isGraph : node.isGraph = true)
      (fed : m.bindingRecords 0 node = .ok results) (body : Written m (.nodes node.nodes) first here)
      (rest : Written m (.graphs ids) second later) :
      Written m (.graphs (id :: ids)) (id :: (first ++ second))
        (.graph node.pragmas :: (results ++ here) ++ later)

structure WrittenFunction (m : Module) (id : NodeId) (type : Option TypeId) (order : List NodeId)
    (records : List Record) : Prop where
  written : ∃ node name label results inner body, m.nodes[id]? = some node ∧ node.role = .function name ∧
    m.typeLabel type = .ok label ∧ m.bindingRecords 0 node = .ok results ∧
    Written m (.nodes node.nodes) inner body ∧ order = id :: inner ∧
    records = .function ⟨label, name, node.pragmas⟩ :: (results ++ body)

/-! ### From the writer to derivations -/

theorem written_nodes {m : Module} {inner : NodeId → Except Error (List Record)} {ids : List NodeId}
    {records : List (List Record)}
    (each : ∀ {id records}, inner id = .ok records → ∃ order, Written m (.node id) order records)
    (done : ids.mapM inner = .ok records) : ∃ order, Written m (.nodes ids) order records.flatten := by
  have walked := Outcome.map_m_ok done
  clear done
  induction walked with
  | nil => exact ⟨[], .noNodes⟩
  | cons here _ ih =>
      obtain ⟨first, head⟩ := each here
      obtain ⟨second, rest⟩ := ih
      exact ⟨first ++ second, .nodes head rest⟩

theorem body_records_ok {m : Module} {inner : NodeId → Except Error (List Record)} {id : NodeId}
    {records : List Record} (done : m.bodyRecords inner id = .ok records) :
    ∃ node results bodies, m.nodes[id]? = some node ∧ node.isGraph = true ∧
      m.bindingRecords 0 node = .ok results ∧ node.nodes.mapM inner = .ok bodies ∧
      records = results ++ bodies.flatten := by
  obtain ⟨node, found, done⟩ := Outcome.bind_ok done
  obtain ⟨here, isGraph⟩ := graph_ok_iff.mp found
  obtain ⟨results, fed, done⟩ := Outcome.bind_ok done
  obtain ⟨bodies, walked, done⟩ := Outcome.bind_ok done
  exact ⟨node, results, bodies, here, isGraph, fed, walked, (Outcome.pure_ok done).symm⟩

theorem written_graphs {m : Module} {inner : NodeId → Except Error (List Record)} {ids : List NodeId}
    {records : List (List Record)}
    (each : ∀ {id records}, inner id = .ok records → ∃ order, Written m (.node id) order records)
    (done : ids.mapM (m.subgraphRecords inner) = .ok records) :
    ∃ order, Written m (.graphs ids) order records.flatten := by
  have walked := Outcome.map_m_ok done
  clear done
  induction walked with
  | nil => exact ⟨[], .noGraphs⟩
  | cons here _ ih =>
      obtain ⟨second, rest⟩ := ih
      obtain ⟨node, found, here⟩ := Outcome.bind_ok here
      obtain ⟨body, inside, here⟩ := Outcome.bind_ok here
      cases here
      obtain ⟨graph, results, bodies, there, isGraph, fed, nodes, rfl⟩ := body_records_ok inside
      rw [node_ok_iff.mp found] at there
      cases there
      obtain ⟨first, body⟩ := written_nodes each nodes
      exact ⟨_, .graphs (node_ok_iff.mp found) isGraph fed body rest⟩

theorem written_of_records {m : Module} {depth : Nat} {id : NodeId} {records : List Record}
    (done : m.nodeRecords depth id = .ok records) : ∃ order, Written m (.node id) order records := by
  induction depth generalizing id records with
  | zero => cases done
  | succ depth ih =>
      obtain ⟨node, found, done⟩ := Outcome.bind_ok done
      have found := node_ok_iff.mp found
      obtain ⟨label, labelled, done⟩ := Outcome.bind_ok done
      by_cases bare : node.children.isEmpty = true
      · rw [if_pos bare] at done
        obtain ⟨bindings, fed, done⟩ := Outcome.bind_ok done
        rw [← Outcome.pure_ok done]
        exact ⟨[id], .plain found labelled (List.isEmpty_iff.mp bare) fed⟩
      · rw [if_neg bare] at done
        obtain ⟨bodies, walked, done⟩ := Outcome.bind_ok done
        obtain ⟨bindings, fed, done⟩ := Outcome.bind_ok done
        rw [← Outcome.pure_ok done]
        obtain ⟨order, inner⟩ := written_graphs (fun {_ _} here => ih here) walked
        exact ⟨id :: order, .compound found labelled (fun none => bare (List.isEmpty_iff.mpr none)) inner fed⟩

theorem written_function {m : Module} {id : NodeId} {type : Option TypeId} {records : List Record}
    (done : m.functionRecords id type = .ok records) : ∃ order, WrittenFunction m id type order records := by
  obtain ⟨node, found, done⟩ := Outcome.bind_ok done
  have found := node_ok_iff.mp found
  obtain ⟨name, named, done⟩ := Outcome.bind_ok done
  obtain ⟨label, labelled, done⟩ := Outcome.bind_ok done
  obtain ⟨body, inside, done⟩ := Outcome.bind_ok done
  rw [← Outcome.pure_ok done]
  obtain ⟨graph, results, bodies, there, isGraph, fed, nodes, rfl⟩ := body_records_ok inside
  rw [found] at there
  cases there
  obtain ⟨inner, written⟩ := written_nodes written_of_records nodes
  refine ⟨id :: inner, ⟨node, name, label, results, inner, _, found, ?_, labelled, fed, written, rfl, rfl⟩⟩
  unfold functionName at named
  rw [node_ok_iff.mpr found] at named
  obtain ⟨_, same, named⟩ := Outcome.bind_ok named
  cases same
  unfold Node.functionName? at named
  cases role : node.role with
  | function other =>
      rw [role] at named
      cases named
      rfl
  | subgraph compound =>
      rw [role] at named
      cases named
  | node graph =>
      rw [role] at named
      cases named

/-! ### From derivations to the writer -/

-- What the writer does with a part, given how it writes single nodes.
def PartRecords (m : Module) (depth : Nat) : Part → List Record → Prop
  | .node id, records => m.nodeRecords depth id = .ok records
  | .nodes ids, records => ∃ pieces, ids.mapM (m.nodeRecords depth) = .ok pieces ∧ pieces.flatten = records
  | .graphs ids, records =>
      ∃ pieces, ids.mapM (m.subgraphRecords (m.nodeRecords depth)) = .ok pieces ∧ pieces.flatten = records

theorem map_m_cons_ok {ε α β : Type} {change : α → Except ε β} {value : α} {rest : List α} {result : β}
    {results : List β} (here : change value = .ok result) (later : rest.mapM change = .ok results) :
    (value :: rest).mapM change = .ok (result :: results) := by
  rw [List.mapM_cons, Outcome.bind_of_ok here, Outcome.bind_of_ok later]
  rfl

theorem body_records_of {m : Module} {inner : NodeId → Except Error (List Record)} {id : NodeId} {node : Node}
    {results : List Record} {bodies : List (List Record)} (found : m.nodes[id]? = some node)
    (isGraph : node.isGraph = true) (fed : m.bindingRecords 0 node = .ok results)
    (walked : node.nodes.mapM inner = .ok bodies) :
    m.bodyRecords inner id = .ok (results ++ bodies.flatten) := by
  unfold bodyRecords
  rw [Outcome.bind_of_ok (graph_ok_iff.mpr ⟨found, isGraph⟩), Outcome.bind_of_ok fed,
    Outcome.bind_of_ok walked]
  rfl

theorem records_of_written {m : Module} {part : Part} {order : List NodeId} {records : List Record}
    (written : Written m part order records) {depth : Nat} (deep : order.length ≤ depth) :
    PartRecords m depth part records := by
  induction written generalizing depth with
  | plain found labelled bare fed =>
      cases depth with
      | zero => simp at deep
      | succ depth =>
          change m.nodeRecords (depth + 1) _ = _
          unfold nodeRecords
          rw [Outcome.bind_of_ok (node_ok_iff.mpr found), Outcome.bind_of_ok labelled,
            if_pos (List.isEmpty_iff.mpr bare), Outcome.bind_of_ok fed]
          rfl
  | compound found labelled holds inner fed ih =>
      cases depth with
      | zero => simp at deep
      | succ depth =>
          obtain ⟨pieces, walked, rfl⟩ := ih (Nat.le_of_succ_le_succ deep)
          change m.nodeRecords (depth + 1) _ = _
          unfold nodeRecords
          rw [Outcome.bind_of_ok (node_ok_iff.mpr found), Outcome.bind_of_ok labelled,
            if_neg fun bare => holds (List.isEmpty_iff.mp bare), Outcome.bind_of_ok walked,
            Outcome.bind_of_ok fed]
          rfl
  | noNodes => exact ⟨[], rfl, rfl⟩
  | nodes head rest headIh restIh =>
      rw [List.length_append] at deep
      have here := headIh (by omega : _ ≤ depth)
      obtain ⟨pieces, walked, rfl⟩ := restIh (by omega : _ ≤ depth)
      exact ⟨_ :: pieces, map_m_cons_ok here walked, rfl⟩
  | noGraphs => exact ⟨[], rfl, rfl⟩
  | graphs found isGraph fed body rest bodyIh restIh =>
      rw [List.length_cons, List.length_append] at deep
      obtain ⟨bodies, inside, rfl⟩ := bodyIh (by omega : _ ≤ depth)
      obtain ⟨pieces, walked, rfl⟩ := restIh (by omega : _ ≤ depth)
      refine ⟨_ :: pieces, map_m_cons_ok ?_ walked, rfl⟩
      unfold subgraphRecords
      rw [Outcome.bind_of_ok (node_ok_iff.mpr found),
        Outcome.bind_of_ok (body_records_of found isGraph fed inside)]
      rfl

theorem records_of_function {m : Module} {id : NodeId} {type : Option TypeId} {order : List NodeId}
    {records : List Record} (written : WrittenFunction m id type order records)
    (deep : order.length ≤ m.nodes.size) : m.functionRecords id type = .ok records := by
  obtain ⟨node, name, label, results, inner, body, found, role, labelled, fed, inside, rfl, rfl⟩ :=
    written.written
  rw [List.length_cons] at deep
  obtain ⟨bodies, walked, rfl⟩ := records_of_written inside (Nat.le_of_succ_le deep)
  have isGraph : node.isGraph = true := by simp [Node.isGraph, role]
  have named : m.functionName id = .ok name := by
    unfold functionName
    rw [Outcome.bind_of_ok (node_ok_iff.mpr found)]
    simp [Node.functionName?, role]
    rfl
  unfold functionRecords
  rw [Outcome.bind_of_ok (node_ok_iff.mpr found), Outcome.bind_of_ok named, Outcome.bind_of_ok labelled]
  exact (Outcome.bind_of_ok (body_records_of found isGraph fed walked)).trans rfl

end Dataflow.Module
