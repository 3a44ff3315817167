import Dataflow.Proofs.Module.Wires
import Dataflow.Proofs.Store.Queries
set_option autoImplicit false

-- Every request does to a store what it does to the module that the store shows, and gives the same
-- answer.
namespace Dataflow.Store
open Dataflow.Module Edit LiveTable

abbrev FollowsStore {α : Type} (change : Edit Store α) (model : Change α) : Prop :=
  Follows Shows Eq change model

theorem follows_types {α : Type} {change : Edit LiveTable α} {model : TypeTable.Change α}
    (follows : FollowsTypes change model) : FollowsStore (Keeper.onTypes change) (Keeper.onTypes model) := by
  refine Follows.within follows (fun s m shows_ => ?_) fun s m types table shows_ marks => ?_
  · rw [shows_.types]
    exact shows_.listed.marks
  · constructor
    case listed =>
      refine ⟨?_, shows_.listed.names, shows_.listed.inside⟩
      change Marks types types.table
      rw [marks.same]
      exact marks
    case apart => exact shows_.apart.of_frame rfl (fun _ _ => rfl) (Nat.le_refl _)
    case bare =>
      have same := congrArg (fun shown : Module => { shown with types := table }) shows_.bare
      refine Eq.trans same ?_
      rw [← marks.same]
      rfl
    case binding => exact shows_.binding

theorem follows_map_frame {change : Module → Module} (spares : Spares change) :
    FollowsStore (modify (Keeper.mapFrame change)) (modify (Keeper.mapFrame change)) :=
  Follows.modify fun _ _ => shows_map_frame spares

/-! ### Changes of the frame alone -/

def Framed (s : Store) (frame m : Module) : Prop :=
  Shows { s with frame := frame } m

theorem follows_on_frame {α : Type} {change : Change α} (follows : ∀ s, Follows (Framed s) Eq change change) :
    FollowsStore (Keeper.onFrame change) (Keeper.onFrame change) := by
  intro s m shows_
  cases follows s (show Framed s s.frame m from shows_) with
  | ok here there same left => exact .ok (within_of_ok here) there same left
  | error here there left => exact .error (within_of_error here) there left

section Frames
variable {s : Store}

theorem framed_spares {change : Module → Module} (spares : Spares change) :
    Follows (Framed s) Eq (modify change) (modify change) :=
  Follows.modify fun _ _ framed => shows_map_frame spares framed

theorem framed_node (id : NodeId) :
    Follows (Framed s) Twins (query (·.node id)) (query (·.node id)) :=
  Follows.query fun _ _ framed => Shows.agree_node framed id

theorem framed_append {node : Node} (portless : node.inputs = .empty) :
    Follows (Framed s) Eq (append node) (append node) := by
  intro frame m framed
  exact .ok rfl rfl (Shows.size framed).symm (shows_pushed portless framed)

theorem framed_append_child (node graph : NodeId) :
    Follows (Framed s) Eq (modify (appendChild node graph)) (modify (appendChild node graph)) :=
  framed_spares (spares_modify (fun _ => rfl) (fun _ _ => rfl) fun _ => rfl)

theorem framed_add_node (graph : NodeId) (op : Opcode) :
    Follows (Framed s) Eq (addNode graph op) (addNode graph op) := by
  refine Follows.bind (Follows.query fun _ _ framed => Shows.agree_graph framed graph) fun _ => ?_
  refine (framed_append rfl).seq fun id => ?_
  have spares : Spares (modifyNode graph fun owner => { owner with nodes := owner.nodes ++ [id] }) :=
    spares_modify (fun _ => rfl) (fun _ _ => rfl) fun _ => rfl
  exact (framed_spares spares).bind fun _ => Follows.pure rfl

theorem framed_add_graph (node : NodeId) : Follows (Framed s) Eq (addGraph node) (addGraph node) := by
  refine (framed_node node).bind fun {held shown} twins => ?_
  rw [twins.isGraph]
  split
  · exact Follows.throw _
  · refine (framed_append rfl).seq fun id => ?_
    exact (framed_append_child node id).bind fun _ => Follows.pure rfl

theorem framed_push_child (node graph : NodeId) :
    Follows (Framed s) Eq (pushChild node graph) (pushChild node graph) := by
  refine (framed_node graph).bind fun {held shown} twins => ?_
  rw [twins.role]
  split
  · exact framed_append_child node graph
  · exact Follows.throw _

theorem framed_add_input (inlet : Inlet) : Follows (Framed s) Eq (addInput inlet) (addInput inlet) := by
  refine (Follows.of_except _).bind fun _ => (framed_node inlet.node).bind fun _ => ?_
  exact framed_spares (spares_input inlet (fun _ => rfl) fun _ => rfl)

theorem framed_add_output (outlet : Outlet) : Follows (Framed s) Eq (addOutput outlet) (addOutput outlet) := by
  refine (Follows.of_except _).bind fun _ => (framed_node outlet.node).bind fun _ => ?_
  exact framed_spares (spares_output outlet id)

theorem spares_node_pragmas (id : NodeId) (pragmas : Pragmas) : Spares (setNodePragmas id pragmas) :=
  spares_modify (fun _ => rfl) (fun _ _ => rfl) fun _ => rfl

theorem spares_input_pragmas (inlet : Inlet) (pragmas : Pragmas) : Spares (setInputPragmas inlet pragmas) :=
  spares_input inlet (fun _ => rfl) fun _ => rfl

theorem framed_node_pragmas (id : NodeId) (change : PragmaChange) :
    Follows (Framed s) Eq (changeNodePragmas id change) (changeNodePragmas id change) := by
  refine (framed_node id).bind fun {held shown} twins => ?_
  rw [twins.pragmas]
  refine (Follows.of_except _).seq fun pragmas => ?_
  exact framed_spares (spares_node_pragmas id pragmas)

theorem framed_input_pragmas (inlet : Inlet) (change : PragmaChange) :
    Follows (Framed s) Eq (changeInputPragmas inlet change) (changeInputPragmas inlet change) := by
  refine (framed_add_input inlet).bind fun _ => Follows.got fun frame m framed => ?_
  have same : ((frame.input? inlet).getD {}).pragmas = ((m.input? inlet).getD {}).pragmas :=
    Shows.input_pragmas framed inlet
  dsimp only
  rw [same]
  refine (Follows.of_except _).seq fun pragmas => ?_
  exact framed_spares (spares_input_pragmas inlet pragmas)

theorem framed_output_pragmas (outlet : Outlet) (change : PragmaChange) :
    Follows (Framed s) Eq (changeOutputPragmas outlet change) (changeOutputPragmas outlet change) := by
  refine (framed_add_output outlet).bind fun _ => Follows.got fun frame m framed => ?_
  have same : frame.output? outlet = m.output? outlet := Shows.output framed outlet
  rw [same]
  refine (Follows.of_except _).seq fun pragmas => ?_
  exact framed_spares (spares_output outlet _)

end Frames

/-! ### Functions, ports and their types -/

theorem follows_query {α : Type} {find : Store → Except Error α} {model : Module → Except Error α}
    (same : ∀ {s m}, Shows s m → find s = model m) : FollowsStore (query find) (query model) :=
  Follows.query fun _ _ shows_ => .of_eq (same shows_)

theorem follows_node (id : NodeId) :
    Follows Shows Twins (query fun s : Store => (Keeper.frame s).node id)
      (query fun m : Module => (Keeper.frame m).node id) :=
  Follows.query fun _ _ shows_ => shows_.agree_node id

theorem follows_add_function (op : Opcode) (name : String) :
    FollowsStore (addFunctionOf op name) (addFunctionOf op name) := by
  intro s m shows_
  refine .ok rfl rfl shows_.size.symm ?_
  have pushed_ := @shows_pushed s m { opcode := op, role := .function name } rfl shows_
  have role : (pushed { opcode := op, role := .function name } m).role? m.nodes.size = some (.function name) :=
    (role_pushed _ m _).trans (if_pos rfl)
  rw [shows_.size] at role ⊢
  exact shows_register role pushed_

theorem follows_add_function_with (name : String) (op : Opcode) :
    FollowsStore (addFunctionWith name op) (addFunctionWith name op) := by
  unfold addFunctionWith
  split
  · exact follows_add_function op name
  · exact Follows.throw _

theorem follows_set_output (outlet : Outlet) (type : TypeId) :
    FollowsStore (setOutput outlet type) (setOutput outlet type) := by
  have found : FollowsStore (query fun s : Store => TypeTable.Keeper.find (Keeper.types s) type)
      (query fun m : Module => TypeTable.Keeper.find (Keeper.types m) type) := by
    refine follows_query fun {s m} shows_ => ?_
    exact (shows_.listed.marks.find type).trans (congrArg (TypeTable.find · type) shows_.types.symm)
  refine (Follows.of_except _).bind fun _ => found.bind fun _ => (follows_node outlet.node).bind fun _ => ?_
  exact follows_map_frame (spares_output outlet _)

theorem follows_fill_gaps (id : NodeId) (gaps : List Nat) : FollowsStore (fillGaps id gaps) (fillGaps id gaps) := by
  unfold fillGaps
  split
  · exact Follows.pure rfl
  · refine (follows_types (follows_add .wild none none)).seq fun wild => ?_
    exact Follows.for_m fun port => follows_set_output ⟨id, port⟩ wild

theorem follows_signature_type (arguments results : List TypeId) :
    FollowsTypes (signatureType arguments results) (signatureType arguments results) := by
  refine (follows_chain arguments .tuple none).seq fun first => ?_
  refine (follows_chain results .tuple none).seq fun second => ?_
  exact follows_add .function first second

theorem follows_ports_type (id : NodeId) : FollowsStore (portsType id) (portsType id) := by
  refine (follows_node id).bind fun {held shown} twins => Follows.got fun s m shows_ => ?_
  rw [shows_.results twins, argumentTypes, argumentTypes, twins.outputs]
  refine (follows_types (follows_signature_type _ _)).seq fun type => ?_
  exact Follows.pure rfl

theorem follows_function_type (id : NodeId) : FollowsStore (functionType id) (functionType id) := by
  refine Follows.bind (Follows.query fun _ _ shows_ => shows_.agree_graph id) fun {held shown} twins =>
    Follows.got fun s m shows_ => ?_
  rw [shows_.results twins, gaps_of_twins twins]
  split
  · exact Follows.pure rfl
  · exact (follows_fill_gaps id _).bind fun _ => follows_ports_type id

/-! ### Wires -/

-- A wire on its way through a store, and on its way through the module.
structure Routes (held : Routing Store) (shown : Routing Module) : Prop where
  state : Shows held.m shown.m
  current : held.current = shown.current
  path : held.path = shown.path

theorem shows_declare {output : Output} {port : Nat} (children : List NodeId) {s : Store} {m : Module}
    (shows_ : Shows s m) :
    Shows (children.foldl (fun s child => Keeper.mapFrame (modifyNode child fun graph =>
        { graph with outputs := graph.outputs.insert port output }) s) s)
      (children.foldl (fun m child => Keeper.mapFrame (modifyNode child fun graph =>
        { graph with outputs := graph.outputs.insert port output }) m) m) := by
  induction children generalizing s m with
  | nil => exact shows_
  | cons child rest ih =>
      refine ih (shows_map_frame (spares_modify ?_ ?_ ?_) shows_)
      · exact fun _ => rfl
      · exact fun _ _ => rfl
      · exact fun _ => rfl

theorem routes_enter {held : Routing Store} {shown : Routing Module} {crossing : Crossing}
    (inside : crossing.compound < shown.m.nodes.size) (routes : Routes held shown) :
    Routes (held.enter crossing) (shown.enter crossing) := by
  obtain ⟨s, current, path⟩ := held
  obtain ⟨m, _, _⟩ := shown
  obtain ⟨shows_, same, other⟩ := routes
  cases same
  cases other
  have port : (Keeper.frame s).freePort crossing.compound = (Keeper.frame m).freePort crossing.compound :=
    shows_.free_port crossing.compound
  have type : (Keeper.frame s).outputType? current = (Keeper.frame m).outputType? current := shows_.output_type current
  have children : (Keeper.frame s).nodes[crossing.compound]?.map Node.distinctChildren =
      (Keeper.frame m).nodes[crossing.compound]?.map Node.distinctChildren :=
    (shows_.read (fun _ => rfl) crossing.compound).symm
  unfold Routing.enter
  simp only [port, type, children]
  exact ⟨shows_declare _ (shows_connect inside shows_), rfl, rfl⟩

theorem routes_route {held : Routing Store} {shown : Routing Module} {crossings : List Crossing}
    (inside : ∀ crossing ∈ crossings, crossing.compound < shown.m.nodes.size) (routes : Routes held shown) :
    Routes (crossings.foldl Routing.enter held) (crossings.foldl Routing.enter shown) ∧
      (crossings.foldl Routing.enter shown).m.nodes.size = shown.m.nodes.size := by
  induction crossings generalizing held shown with
  | nil => exact ⟨routes, rfl⟩
  | cons crossing rest ih =>
      obtain ⟨here, later⟩ := List.forall_mem_cons.mp inside
      have size : (shown.enter crossing).m.nodes.size = shown.m.nodes.size := by
        rw [Routing.enter_eq]
        exact (calm_declare _ _ _ _).shape.size.trans (same_shape_connect _ _ _).size
      obtain ⟨final, same⟩ := ih (fun other member => by rw [size]; exact later other member) (routes_enter here routes)
      exact ⟨final, same.trans size⟩

theorem lt_size_of_crossing {m : Module} {outer scope : NodeId} {crossings : List Crossing}
    (leads : m.Leads outer crossings scope) : ∀ crossing ∈ crossings, crossing.compound < m.nodes.size := by
  induction crossings generalizing scope with
  | nil => exact fun _ member => nomatch member
  | cons crossing rest ih =>
      obtain ⟨_, _, next, located, above⟩ := leads
      exact List.forall_mem_cons.mpr ⟨lt_size_of_scope located, ih above⟩

theorem follows_wire (target : Inlet) (source : Outlet) : FollowsStore (wire target source) (wire target source) := by
  refine (Follows.of_except _).bind fun _ => (Follows.of_except _).bind fun _ => ?_
  refine (follows_query fun shows_ => shows_.scope source.node).seq fun outer => ?_
  intro s m shows_
  refine Follows.found (by exact shows_.scope target.node) shows_ fun inner entered => ?_
  have same : (Keeper.frame s).crossings? outer (Keeper.frame s).nodes.size inner =
      (Keeper.frame m).crossings? outer (Keeper.frame m).nodes.size inner :=
    (congrArg (s.frame.crossings? outer · inner) shows_.size.symm).trans (shows_.crossings outer _ inner)
  rw [bind_get, bind_get, same]
  cases crossed : (Keeper.frame m).crossings? outer (Keeper.frame m).nodes.size inner with
  | none => exact .error rfl rfl shows_
  | some crossings =>
      have inside := lt_size_of_crossing (crossings_lead crossed)
      obtain ⟨routes, size⟩ := @routes_route ⟨s, source, []⟩ ⟨m, source, []⟩ crossings.reverse
        (fun crossing member => inside crossing (List.mem_reverse.mp member)) ⟨shows_, rfl, rfl⟩
      refine .ok rfl rfl (by rw [routes.path]) ?_
      rw [routes.current]
      exact shows_connect (Nat.lt_of_lt_of_eq (lt_size_of_scope entered) size.symm) routes.state

end Dataflow.Store
