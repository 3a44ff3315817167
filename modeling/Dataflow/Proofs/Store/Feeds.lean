import Dataflow.Proofs.Store.Shows
set_option autoImplicit false

-- Feeding an input of a store: what fed it before is dropped first, be it an edge or a literal.
namespace Dataflow.Store
open Dataflow.Module

variable {s : Store} {m : Module}

theorem edge_into_iff {inlet : Inlet} {edge : Edge} (apart : s.Apart) :
    s.edgeInto? inlet = some edge ↔ edge ∈ s.edges ∧ edge.target = inlet := by
  unfold edgeInto?
  constructor
  · intro found
    exact ⟨List.mem_of_find?_eq_some found, by simpa using List.find?_some found⟩
  · rintro ⟨member, rfl⟩
    have single := apart.single
    generalize s.edges = edges at member single
    induction edges with
    | nil => cases member
    | cons first rest ih =>
        obtain ⟨others, later⟩ := List.pairwise_cons.mp single
        rcases List.mem_cons.mp member with rfl | member
        · exact List.find?_cons_of_pos (by simp)
        · rw [List.find?_cons_of_neg (by simpa using others edge member)]
          exact ih member later

/-! ### Dropping what feeds an input -/

theorem binding_unbind (inlet query : Inlet) :
    (unbind inlet m).binding? query = if query = inlet then none else m.binding? query := by
  unfold Module.binding?
  by_cases inside : inlet.node < m.nodes.size
  · have changed := input_modify_input m inlet.node inlet.port (fun input => { input with binding := none }) inside query
    rw [unbind, changed]
    split <;> rfl
  · rw [unbind, Quiet.modify_of_size inside]
    split
    · rename_i same
      rw [same, input?, Array.getElem?_eq_none (Nat.le_of_not_lt inside)]
      rfl
    · rfl

theorem literal_unbind (inlet query : Inlet) :
    (unbind inlet m).literal? query = if query = inlet then none else m.literal? query := by
  rw [literal_of_binding, literal_of_binding, binding_unbind]
  split <;> rfl

theorem literal_detach (inlet query : Inlet) :
    (s.detach inlet).literal? query = if query = inlet then none else s.literal? query :=
  literal_unbind inlet query

theorem edge_into_detach (inlet query : Inlet) :
    (s.detach inlet).edgeInto? query = if query = inlet then none else s.edgeInto? query := by
  unfold edgeInto? detach
  rw [List.find?_filter]
  by_cases same : query = inlet
  · rw [if_pos same, List.find?_eq_none]
    intro edge _
    simp [same]
  · rw [if_neg same]
    congr 1
    funext edge
    by_cases here : edge.target = query
    · simp [here, same]
    · simp [here]

theorem shows_detach (inlet : Inlet) (shows_ : Shows s m) : Shows (s.detach inlet) (unbind inlet m) := by
  have apart := shows_.apart
  constructor
  case listed =>
    exact shows_.listed.of_frame rfl rfl rfl fun id _ => role_modify s.frame id fun _ => rfl
  case apart =>
    refine ⟨fun edge member => ?_, apart.single.filter _, apart.ordered.filter _, fun edge member => ?_⟩
    · obtain ⟨member, other⟩ := List.mem_filter.mp member
      rw [literal_detach, if_neg (of_decide_eq_true other)]
      exact apart.free edge member
    · exact apart.stamped edge (List.mem_filter.mp member).1
  case bare => rw [bare_unbind, shows_.bare, ← bare_unbind, detach]
  case binding =>
    intro query
    rw [binding_unbind, shows_.binding, binding?, binding?, edge_into_detach, literal_detach]
    split <;> rfl

theorem target_of_detached {inlet : Inlet} {edge : Edge} (member : edge ∈ (s.detach inlet).edges) : edge.target ≠ inlet :=
  of_decide_eq_true (List.mem_filter.mp member).2

/-! ### Literals -/

theorem literal_bind {inlet : Inlet} (literal : Literal) (inside : inlet.node < m.nodes.size) (query : Inlet) :
    (bind inlet (.literal literal) m).literal? query = if query = inlet then some literal else m.literal? query := by
  rw [literal_of_binding, literal_of_binding, binding_bind _ inside]
  split <;> rfl

theorem shows_hold {inlet : Inlet} (literal : Literal) (inside : inlet.node < m.nodes.size) (shows_ : Shows s m) :
    Shows (s.hold inlet literal) (bind inlet (.literal literal) m) := by
  rw [← bind_again]
  have detached := shows_detach inlet shows_
  have within : inlet.node < (unbind inlet m).nodes.size := Nat.lt_of_lt_of_eq inside (size_modify _ _ _).symm
  have known : inlet.node < (s.detach inlet).frame.nodes.size := Nat.lt_of_lt_of_eq within detached.size
  constructor
  case listed =>
    exact detached.listed.of_frame rfl rfl rfl fun id _ => role_modify _ id fun _ => rfl
  case apart =>
    refine detached.apart.of_frame rfl (fun edge member => ?_) (Nat.le_refl _)
    exact (literal_bind literal known edge.target).trans (if_neg (target_of_detached member))
  case bare => rw [bare_bind, detached.bare, ← bare_bind, hold, mapFrame]
  case binding =>
    intro query
    rw [binding_bind _ within, detached.binding, binding?, binding?]
    have held : (s.hold inlet literal).literal? query =
        if query = inlet then some literal else (s.detach inlet).literal? query :=
      literal_bind literal known query
    rw [held]
    split <;> rfl

/-! ### Edges -/

theorem edge_into_cons (edge : Edge) (frame : Module) (query : Inlet) :
    edgeInto? { s with frame := frame, edges := edge :: s.edges } query =
      if query = edge.target then some edge else s.edgeInto? query := by
  unfold edgeInto?
  by_cases same : query = edge.target
  · rw [if_pos same, same]
    exact List.find?_cons_of_pos (by simp)
  · rw [if_neg same]
    exact List.find?_cons_of_neg (by simpa using Ne.symm same)

theorem binding_cons (edge : Edge) {frame : Module} (kept : ∀ query, frame.literal? query = s.literal? query)
    (empty : s.literal? edge.target = none) (query : Inlet) :
    binding? { s with frame := frame, edges := edge :: s.edges } query =
      if query = edge.target then some (.wire edge.source edge.stamp) else s.binding? query := by
  have literal : literal? { s with frame := frame, edges := edge :: s.edges } query = s.literal? query := kept query
  unfold binding?
  rw [edge_into_cons, literal]
  by_cases same : query = edge.target
  · rw [if_pos same, if_pos same, same, empty]
    rfl
  · rw [if_neg same, if_neg same]

theorem shows_edge {source : Outlet} {target : Inlet} (inside : target.node < m.nodes.size)
    (free : ∀ edge ∈ s.edges, edge.target ≠ target) (empty : s.literal? target = none)
    (same : (bind target (.wire source m.stamp) m).bare = m.bare) (shows_ : Shows s m) :
    Shows { s with
        frame := { s.frame with stamp := s.frame.stamp + 1 }
        edges := ⟨source, target, s.frame.stamp⟩ :: s.edges }
      { bind target (.wire source m.stamp) m with stamp := m.stamp + 1 } := by
  have apart := shows_.apart
  constructor
  case listed => exact shows_.listed.of_frame rfl rfl rfl fun _ _ => rfl
  case apart =>
    refine ⟨List.forall_mem_cons.mpr ⟨empty, apart.free⟩, ?_, ?_, List.forall_mem_cons.mpr ⟨Nat.lt_succ_self _, ?_⟩⟩
    · exact List.pairwise_cons.mpr ⟨fun edge member => (free edge member).symm, apart.single⟩
    · exact List.pairwise_cons.mpr ⟨apart.stamped, apart.ordered⟩
    · exact fun edge member => Nat.lt_succ_of_lt (apart.stamped edge member)
  case bare =>
    have here := congrArg (fun shown : Module => { shown with stamp := shown.stamp + 1 }) (same.trans shows_.bare)
    exact here
  case binding =>
    intro query
    refine (binding_bind _ inside query).trans (.trans ?_ (binding_cons ⟨source, target, _⟩ (fun _ => rfl) empty query).symm)
    rw [shows_.binding, shows_.stamp]

theorem shows_connect {source : Outlet} {target : Inlet} (inside : target.node < m.nodes.size) (shows_ : Shows s m) :
    Shows (s.connect source target) (Module.connect source target m) := by
  have detached := shows_detach target shows_
  have declared := shows_map_frame (spares_output source id) detached
  have untied : (s.detach target).literal? target = none := (literal_detach target target).trans (if_pos rfl)
  have same := bind_with_output target (.wire source m.stamp) source id (unbind target m)
  rw [bind_again] at same
  refine Eq.mp (congrArg (Shows _) ?_) (shows_edge ?_ ?_ ?_ ?_ declared)
  · exact congrArg (fun wired : Module => { wired with stamp := m.stamp + 1 }) same
  · rw [size_modify]
    exact Nat.lt_of_lt_of_eq inside (size_modify _ _ _).symm
  · exact fun edge member => target_of_detached member
  · exact (literal_congr ((spares_output source id).binding _ target)).trans untied
  · rw [bind_with_output, (spares_output source id).bare, (spares_output source id).bare, bind_again, bare_bind,
      bare_unbind]

end Dataflow.Store
