import Dataflow.Proofs.Module.Ownership
import Dataflow.Proofs.Store.Types
import Dataflow.Proofs.Store.View
set_option autoImplicit false

-- A store shows a module: both have the same frame, and what is found to feed an input in the store
-- is what feeds it in the module. No edge leads to an input that a literal or another edge feeds.
namespace Dataflow.Store
open Dataflow.Module LiveTable

-- The marks and the names agree with the lists that they are kept beside.
structure Listed (s : Store) : Prop where
  marks : Marks s.types s.frame.types
  names : ∀ name, s.function? name = s.frame.function? name
  inside : ∀ id ∈ s.frame.functions, id < s.frame.nodes.size

structure Apart (s : Store) : Prop where
  free : ∀ edge ∈ s.edges, s.literal? edge.target = none
  single : s.edges.Pairwise fun first second => first.target ≠ second.target
  ordered : s.edges.Pairwise fun first second => second.stamp < first.stamp
  stamped : ∀ edge ∈ s.edges, edge.stamp < s.frame.stamp

structure Shows (s : Store) (m : Module) : Prop where
  listed : s.Listed
  apart : s.Apart
  bare : m.bare = s.frame.bare
  binding : ∀ inlet, m.binding? inlet = s.binding? inlet

variable {s : Store} {m : Module}

theorem Shows.view (shows_ : Shows s m) : s.view = m :=
  fed_of_bare shows_.bare shows_.binding

namespace Shows
variable (shows_ : Shows s m)
include shows_

theorem types : m.types = s.frame.types := by
  have same := congrArg Module.types shows_.bare
  exact same

theorem stamp : m.stamp = s.frame.stamp := by
  have same := congrArg Module.stamp shows_.bare
  exact same

theorem functions : m.functions = s.frame.functions := by
  have same := congrArg Module.functions shows_.bare
  exact same

theorem node (id : NodeId) : m.nodes[id]?.map Node.bare = s.frame.nodes[id]?.map Node.bare := by
  have same := congrArg (fun shown : Module => shown.nodes[id]?) shows_.bare
  simp only [Module.bare, nodes_fed] at same
  exact same

-- Whatever is read off a node without what feeds it.
theorem read {α : Type} {look : Node → α} (blind : ∀ node, look node.bare = look node) (id : NodeId) :
    m.nodes[id]?.map look = s.frame.nodes[id]?.map look := by
  have same := congrArg (Option.map look) (shows_.node id)
  simp only [Option.map_map] at same
  have through : look ∘ Node.bare = look := funext blind
  rw [through] at same
  exact same

theorem role (id : NodeId) : m.role? id = s.frame.role? id :=
  shows_.read (fun _ => rfl) id

theorem size : m.nodes.size = s.frame.nodes.size := by
  have same := congrArg (fun shown : Module => shown.nodes.size) shows_.bare
  simpa only [Module.bare, fed, Array.size_mapIdx] using same

end Shows

theorem shows_start (definitions : List TypeDef) (pragmas : SortedMap Char String) :
    Shows (start { Module.withTypes (.ofList definitions) with pragmas := pragmas })
      { Module.withTypes (.ofList definitions) with pragmas := pragmas } := by
  refine ⟨⟨marks_of_table _ List.nodup_range fun id => ?_, fun _ => rfl, fun _ member => ?_⟩, ?_, rfl, fun inlet => ?_⟩
  · exact List.mem_range
  · cases member
  · constructor <;> simp [start]
  · simp [Module.binding?, input?, Module.withTypes, binding?, literal?, Module.literal?, edgeInto?, start]

/-! ### Changes of the frame -/

theorem lt_size_iff {m : Module} {id : NodeId} : id < m.nodes.size ↔ (m.role? id).isSome := by
  rw [role?, Option.isSome_map, ← exists_node_iff, Option.isSome_iff_exists]

theorem Listed.of_frame {changed : Store} (listed : s.Listed) (types : changed.types = s.types)
    (names : changed.names = s.names) (functions : changed.frame.functions = s.frame.functions)
    (role : ∀ id, id < s.frame.nodes.size → changed.frame.role? id = s.frame.role? id) : changed.Listed := by
  constructor
  case marks =>
    have table : changed.frame.types = s.frame.types := congrArg LiveTable.table types
    rw [types, table]
    exact listed.marks
  case names =>
    intro name
    rw [function?, names]
    exact (listed.names name).trans
      (function_congr functions (fun id member => role id (listed.inside id member)) name).symm
  case inside =>
    intro id member
    rw [functions] at member
    have inside := listed.inside id member
    rw [lt_size_iff, role id inside, ← lt_size_iff]
    exact inside

theorem literal_of_binding (m : Module) (inlet : Inlet) :
    m.literal? inlet = (m.binding? inlet).bind fun binding =>
      match binding with | .literal literal => some literal | .wire _ _ => none := by
  unfold Module.literal? Module.binding?
  cases m.input? inlet with
  | none => rfl
  | some input =>
      obtain ⟨pragmas, binding⟩ := input
      rcases binding with _ | ⟨_⟩ | _ <;> rfl

theorem literal_congr {m changed : Module} {inlet : Inlet} (same : changed.binding? inlet = m.binding? inlet) :
    changed.literal? inlet = m.literal? inlet := by
  rw [literal_of_binding, literal_of_binding, same]

theorem Apart.of_frame {changed : Store} (apart : s.Apart) (edges : changed.edges = s.edges)
    (literal : ∀ edge ∈ s.edges, changed.literal? edge.target = s.literal? edge.target)
    (stamp : s.frame.stamp ≤ changed.frame.stamp) : changed.Apart := by
  refine ⟨fun edge member => ?_, ?_, ?_, fun edge member => ?_⟩
  · rw [edges] at member
    rw [literal edge member]
    exact apart.free edge member
  · rw [edges]
    exact apart.single
  · rw [edges]
    exact apart.ordered
  · rw [edges] at member
    exact Nat.lt_of_lt_of_le (apart.stamped edge member) stamp

-- A change that feeds nothing.
structure Spares (change : Module → Module) : Prop where
  bare : ∀ m, (change m).bare = change m.bare
  binding : ∀ m inlet, (change m).binding? inlet = m.binding? inlet
  role : ∀ m id, (change m).role? id = m.role? id
  functions : ∀ m, (change m).functions = m.functions
  types : ∀ m, (change m).types = m.types
  stamp : ∀ m, (change m).stamp = m.stamp

theorem shows_map_frame {change : Module → Module} (spares : Spares change) (shows_ : Shows s m) :
    Shows (s.mapFrame change) (change m) := by
  have literal : ∀ inlet, (s.mapFrame change).literal? inlet = s.literal? inlet := fun inlet =>
    literal_congr (spares.binding s.frame inlet)
  constructor
  case listed =>
    refine shows_.listed.of_frame ?_ rfl (spares.functions _) fun id _ => spares.role _ id
    exact congrArg (LiveTable.mk · s.live) (spares.types s.frame)
  case apart =>
    exact shows_.apart.of_frame rfl (fun edge _ => literal edge.target) (Nat.le_of_eq (spares.stamp _).symm)
  case bare =>
    rw [spares.bare, shows_.bare]
    exact (spares.bare s.frame).symm
  case binding =>
    intro inlet
    rw [spares.binding, shows_.binding, binding?, binding?, literal]
    rfl

theorem spares_modify {id : NodeId} {change : Node → Node} (bare : ∀ node, (change node).bare = change node.bare)
    (binding : ∀ node port, (change node).binding? port = node.binding? port)
    (role : ∀ node, (change node).role = node.role) : Spares (modifyNode id change) := by
  refine ⟨fun m => bare_modify bare, fun m inlet => ?_, fun m query => role_modify m query role, fun _ => rfl,
    fun _ => rfl, fun _ => rfl⟩
  cases found : m.nodes[inlet.node]? with
  | none => simp [Module.binding?, input?, nodes_modify, found]
  | some node =>
      by_cases here : inlet.node = id
      · have changed : (modifyNode id change m).nodes[inlet.node]? = some (change node) := by
          rw [nodes_modify, if_pos here, found]
          rfl
        rw [binding_eq_of_node changed, binding_eq_of_node found, binding]
      · have kept : (modifyNode id change m).nodes[inlet.node]? = some node := by
          rw [nodes_modify, if_neg here, found]
        rw [binding_eq_of_node kept, binding_eq_of_node found]

theorem spares_input (inlet : Inlet) {change : Input → Input}
    (bare : ∀ input, { change input with binding := none } = change { input with binding := none })
    (binding : ∀ input, (change input).binding = input.binding) :
    Spares (modifyNode inlet.node (Node.modifyInput inlet.port change)) :=
  spares_modify (Node.bare_modify_input bare inlet.port) (Node.binding_modify_input binding inlet.port) fun _ => rfl

theorem spares_output (outlet : Outlet) (change : Output → Output) :
    Spares (modifyNode outlet.node (Node.modifyOutput outlet.port change)) :=
  spares_modify (fun _ => rfl) (fun _ _ => rfl) fun _ => rfl

theorem spares_pragmas (change : SortedMap Char String → SortedMap Char String) :
    Spares fun m => { m with pragmas := change m.pragmas } :=
  ⟨fun _ => rfl, fun _ _ => rfl, fun _ _ => rfl, fun _ => rfl, fun _ => rfl, fun _ => rfl⟩

/-! ### New nodes -/

theorem binding_pushed {node : Node} (portless : node.inputs = .empty) (m : Module) (inlet : Inlet) :
    (pushed node m).binding? inlet = m.binding? inlet := by
  unfold Module.binding? input?
  rw [nodes_pushed]
  split
  · rename_i new
    rw [new, Array.getElem?_eq_none (Nat.le_refl _), Option.bind_some, portless]
    rfl
  · rfl

theorem shows_pushed {node : Node} (portless : node.inputs = .empty) (shows_ : Shows s m) :
    Shows (s.mapFrame (pushed node)) (pushed node m) := by
  have bare : ∀ m : Module, (pushed node m).bare = pushed node m.bare := by
    intro m
    have same : (pushed node m).bare.nodes = (pushed node m.bare).nodes := by
      have here := Node.bare_of_new portless
      unfold Node.bare at here
      simp only [pushed, Module.bare, fed, Array.mapIdx_push, here]
    exact congrArg (fun nodes => { m with nodes := nodes }) same
  have literal : ∀ inlet, (s.mapFrame (pushed node)).literal? inlet = s.literal? inlet := fun inlet =>
    literal_congr (binding_pushed portless s.frame inlet)
  constructor
  case listed =>
    refine shows_.listed.of_frame rfl rfl rfl fun id inside => ?_
    exact (role_pushed node s.frame id).trans (if_neg (Nat.ne_of_lt inside))
  case apart => exact shows_.apart.of_frame rfl (fun edge _ => literal edge.target) (Nat.le_refl _)
  case bare =>
    rw [bare, shows_.bare]
    exact (bare s.frame).symm
  case binding =>
    intro inlet
    rw [binding_pushed portless, shows_.binding, binding?, binding?, literal]
    rfl

theorem function_registered {m : Module} {id : NodeId} {name : String} (role : m.role? id = some (.function name))
    (query : String) :
    (Module.register id name m).function? query = if query = name then some id else m.function? query := by
  have named : m.nodes[id]?.bind Node.functionName? = some name := by
    rw [function_name_eq, role]
    rfl
  unfold Module.function? Module.register
  rw [List.reverse_append, List.reverse_singleton, List.singleton_append, List.find?_cons, named]
  by_cases same : query = name
  · simp [same]
  · have apart : (some name == some query) = false := by simpa using Ne.symm same
    rw [apart, if_neg same]

theorem shows_register {id : NodeId} {name : String} (role : m.role? id = some (.function name)) (shows_ : Shows s m) :
    Shows (s.register id name) (Module.register id name m) := by
  have here := (shows_.role id).symm.trans role
  constructor
  case listed =>
    refine ⟨shows_.listed.marks, fun query => ?_, fun other member => ?_⟩
    · refine Eq.trans ?_ (function_registered here query).symm
      rw [function?, register, SortedMap.get?_insert]
      split
      · rfl
      · exact shows_.listed.names query
    · rcases List.mem_append.mp member with before | new
      · exact shows_.listed.inside other before
      · rw [List.mem_singleton.mp new]
        exact lt_size_of_role here
  case apart => exact shows_.apart.of_frame rfl (fun _ _ => rfl) (Nat.le_refl _)
  case bare =>
    have same := congrArg (Module.register id name) shows_.bare
    exact same
  case binding => exact shows_.binding

end Dataflow.Store
