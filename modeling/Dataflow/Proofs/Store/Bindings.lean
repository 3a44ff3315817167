import Dataflow.Proofs.Module.Bindings
import Dataflow.Proofs.Store.Reading
set_option autoImplicit false

-- The edges and literals of a store are one map from inputs to what feeds them: the outcome of the
-- touches since the store was made or read, the out edges of a port being its inverse image.
namespace Dataflow

-- An edge as one of the wires at its output port.
def Edge.wire (edge : Edge) : Wire × Inlet :=
  (⟨edge.source.port, edge.target.port, edge.stamp⟩, edge.target)

namespace Store
open Dataflow.Module Touches

section Edges
variable {s : Store} {m : Module} {inlet : Inlet} {outlet : Outlet}

theorem binding_wire_iff (apart : s.Apart) {stamp : Nat} :
    s.binding? inlet = some (.wire outlet stamp) ↔ ⟨outlet, inlet, stamp⟩ ∈ s.edges := by
  unfold binding?
  constructor
  · intro bound
    cases held : s.literal? inlet with
    | some literal =>
        rw [held] at bound
        cases bound
    | none =>
        rw [held] at bound
        obtain ⟨edge, found, same⟩ := Option.map_eq_some_iff.mp bound
        obtain ⟨member, rfl⟩ := (edge_into_iff apart).mp found
        cases same
        exact member
  · intro member
    rw [apart.free _ member, (edge_into_iff apart).mpr ⟨member, rfl⟩]
    rfl

theorem source_iff (apart : s.Apart) :
    s.source? inlet = some outlet ↔ ∃ stamp, ⟨outlet, inlet, stamp⟩ ∈ s.edges := by
  rw [source?, Option.map_eq_some_iff]
  constructor
  · rintro ⟨edge, found, rfl⟩
    obtain ⟨member, rfl⟩ := (edge_into_iff apart).mp found
    exact ⟨edge.stamp, member⟩
  · rintro ⟨stamp, member⟩
    exact ⟨_, (edge_into_iff apart).mpr ⟨member, rfl⟩, rfl⟩

-- The edges of an output port in the order in which they were made. The latest one is kept first.
def edgesFrom (s : Store) (outlet : Outlet) : List Edge :=
  (s.edges.filter fun edge => edge.source = outlet).reverse

theorem mem_edges_from {edge : Edge} : edge ∈ s.edgesFrom outlet ↔ edge ∈ s.edges ∧ edge.source = outlet := by
  rw [edgesFrom, List.mem_reverse, List.mem_filter, decide_eq_true_eq]

theorem edges_from_ascending (apart : s.Apart) (outlet : Outlet) :
    (s.edgesFrom outlet).Pairwise fun first second => first.stamp < second.stamp :=
  List.pairwise_reverse.mpr (apart.ordered.filter _)

theorem edges_from_single (apart : s.Apart) (outlet : Outlet) :
    (s.edgesFrom outlet).Pairwise fun first second => first.target ≠ second.target :=
  List.pairwise_reverse.mpr ((apart.single.filter _).imp Ne.symm)

theorem out_edges_eq (apart : s.Apart) (outlet : Outlet) : s.outEdges outlet = (s.edgesFrom outlet).map Edge.target := by
  have sorted := merge_sort_of_ascending (List.reverse_perm _).symm (edges_from_ascending apart outlet)
  exact congrArg (List.map Edge.target) sorted

theorem out_edges_once (apart : s.Apart) (outlet : Outlet) : (s.outEdges outlet).Nodup := by
  rw [out_edges_eq apart]
  exact List.pairwise_map.mpr (edges_from_single apart outlet)

theorem mem_out_edges (apart : s.Apart) : inlet ∈ s.outEdges outlet ↔ s.source? inlet = some outlet := by
  rw [out_edges_eq apart, source_iff apart, List.mem_map]
  constructor
  · rintro ⟨edge, member, rfl⟩
    obtain ⟨kept, rfl⟩ := mem_edges_from.mp member
    exact ⟨edge.stamp, kept⟩
  · rintro ⟨stamp, member⟩
    exact ⟨_, mem_edges_from.mpr ⟨member, rfl⟩, rfl⟩

end Edges

/-! ### The module that is shown -/

namespace Shows
variable {s : Store} {m : Module} (shows_ : Shows s m)
include shows_

theorem wire_iff {inlet : Inlet} {outlet : Outlet} {stamp : Nat} :
    m.binding? inlet = some (.wire outlet stamp) ↔ ⟨outlet, inlet, stamp⟩ ∈ s.edges := by
  rw [shows_.binding, binding_wire_iff shows_.apart]

theorem wires_at_perm (outlet : Outlet) : (m.wiresAt outlet).Perm ((s.edgesFrom outlet).map Edge.wire) := by
  refine (List.perm_ext_iff_of_nodup ?_ ?_).mpr ?_
  · exact (m.wires_at_once outlet).imp fun different same => different (congrArg Prod.snd same)
  · refine List.pairwise_map.mpr ((edges_from_single shows_.apart outlet).imp fun different same => ?_)
    exact different (congrArg Prod.snd same)
  · rintro ⟨wire, inlet⟩
    rw [mem_wires_at, shows_.wire_iff, List.mem_map]
    constructor
    · rintro ⟨port, target, member⟩
      refine ⟨_, mem_edges_from.mpr ⟨member, rfl⟩, ?_⟩
      rw [Edge.wire, ← port, ← target]
    · rintro ⟨edge, member, same⟩
      obtain ⟨kept, rfl⟩ := mem_edges_from.mp member
      cases same
      exact ⟨rfl, rfl, kept⟩

theorem consumers (outlet : Outlet) : m.consumers outlet = s.outEdges outlet := by
  have ascending : ((s.edgesFrom outlet).map Edge.wire).Pairwise fun first second => first.1.stamp < second.1.stamp :=
    List.pairwise_map.mpr (edges_from_ascending shows_.apart outlet)
  rw [consumers_eq, merge_sort_of_ascending (shows_.wires_at_perm outlet) ascending, out_edges_eq shows_.apart,
    List.map_map]
  rfl

theorem consumed {edge : Edge} (member : edge ∈ s.edges) : edge.target ∈ m.consumers edge.source := by
  rw [shows_.consumers, mem_out_edges shows_.apart, source_iff shows_.apart]
  exact ⟨edge.stamp, member⟩

end Shows

theorem follows_literal_of (value : HostValue) : FollowsStore (literalOf value) (literalOf value) := by
  refine (Edit.Follows.of_except _).seq fun literal => ?_
  cases literal with
  | text text kind => exact (follows_types (LiveTable.follows_literal_type kind)).seq fun type => Edit.Follows.pure rfl
  | function id => exact follows_function_literal id

theorem touches_shown {s : Store} {m : Module} (request : Request) (shows_ : Shows s m) :
    request.touches s = request.touches m := by
  cases request with
  | wire target source =>
      cases follows_wire target source shows_ with
      | ok here there same _ => simp only [Request.touches, here, there, same]
      | error here there _ => simp only [Request.touches, here, there]
  | setLiteral inlet value =>
      cases follows_set_literal inlet value shows_ with
      | error here there _ => simp only [Request.touches, here, there]
      | ok here there _ _ =>
          cases follows_literal_of value shows_ with
          | ok made other same _ => simp only [Request.touches, here, there, made, other, same]
          | error made other _ => simp only [Request.touches, here, there, made, other]
  | _ => rfl

theorem run_touches_shown {s : Store} {m : Module} (requests : List Request) (shows_ : Shows s m) :
    runTouches s requests = runTouches m requests := by
  induction requests generalizing s m with
  | nil => rfl
  | cons request rest ih =>
      rw [runTouches, runTouches, touches_shown request shows_]
      exact congrArg _ (ih ((follows_request request).after shows_))

-- The module that the same requests make of the same origin.
theorem shown_by_run {origin : Origin} {start : Store} (started : origin.start = .ok start) (requests : List Request) :
    ∃ m : Module, origin.start = .ok m ∧ Shows start m ∧ Shows (run start requests) (run m requests) := by
  cases agree_start origin with
  | error here there =>
      rw [started] at here
      cases here
  | ok here there same =>
      rw [started] at here
      cases here
      exact ⟨_, there, same, shows_run requests same⟩

-- Requests see a store as the module that it shows.
theorem refines_module {origin : Origin} {start : Store} (started : origin.start = .ok start) (requests : List Request) :
    ∃ m : Module, origin.start = .ok m ∧ (run start requests).view = run m requests ∧
      (∀ inlet, (run start requests).binding? inlet = (run m requests).binding? inlet) ∧
      (∀ outlet, (run start requests).outEdges outlet = (run m requests).consumers outlet) ∧
      (∀ name, (run start requests).function? name = (run m requests).function? name) ∧
      ∀ id, (run start requests).types.isLive id = (run m requests).types.isLive id := by
  obtain ⟨m, begun, _, final⟩ := shown_by_run started requests
  refine ⟨m, begun, final.view, fun inlet => (final.binding inlet).symm, fun outlet => (final.consumers outlet).symm,
    fun name => ?_, fun id => ?_⟩
  · rw [final.listed.names]
    exact (function_congr final.functions (fun id _ => final.role id) name).symm
  · rw [final.listed.marks.live, final.types]

/-! ### One map -/

structure OneMap (s : Store) (log : Touches Supply) : Prop where
  binding : ∀ inlet, (s.binding? inlet).map Binding.supply = latest? log inlet
  single : s.edges.Pairwise fun first second => first.target ≠ second.target
  free : ∀ edge ∈ s.edges, s.literal? edge.target = none
  listed : ∀ outlet inlet, inlet ∈ s.outEdges outlet ↔ s.source? inlet = some outlet
  once : ∀ outlet, (s.outEdges outlet).Nodup
  order : ∀ outlet, s.outEdges outlet = ((settled log).filter fun touch => touch.2 = .wire outlet).map (·.1)
  inside : ∀ edge ∈ s.edges, (s.frame.output? edge.source).isSome ∧ (s.frame.input? edge.target).isSome ∧
    ∃ scope, s.frame.scopeOf edge.source.node = .ok scope ∧ s.frame.scopeOf edge.target.node = .ok scope

theorem one_map_of_shows {s : Store} {m : Module} {log : Touches Supply} (shows_ : Shows s m) (one : m.OneMap log) :
    s.OneMap log := by
  have apart := shows_.apart
  constructor
  case binding =>
    intro inlet
    rw [← shows_.binding]
    exact one.binding inlet
  case single => exact apart.single
  case free => exact apart.free
  case listed => exact fun outlet inlet => mem_out_edges apart
  case once => exact fun outlet => out_edges_once apart outlet
  case order =>
    intro outlet
    rw [← shows_.consumers]
    exact one.order outlet
  case inside =>
    intro edge member
    obtain ⟨declared, held, scope, here, there⟩ := one.inside (shows_.consumed member)
    rw [← shows_.output] at declared
    rw [← shows_.port] at held
    rw [← shows_.scope] at here there
    exact ⟨declared, held, scope, here, there⟩

theorem positive_of_shows {s : Store} {m : Module} {log : Touches Supply} (shows_ : Shows s m) (one : m.OneMap log)
    (positive : m.Positive) : ∀ edge ∈ s.edges, 1 ≤ edge.source.port ∧ 1 ≤ edge.target.port := by
  intro edge member
  obtain ⟨declared, held, _⟩ := one.inside (shows_.consumed member)
  exact ⟨positive _ _ (.inr declared), positive _ _ (.inl held)⟩

theorem bindings_of_run {origin : Origin} {start : Store} (started : origin.start = .ok start)
    (requests : List Request) :
    (run start requests).OneMap (origin.touches ++ runTouches start requests) ∧
      (Roomy start.view requests → ∀ edge ∈ (run start requests).edges, 1 ≤ edge.source.port ∧ 1 ≤ edge.target.port) := by
  obtain ⟨m, begun, same, final⟩ := shown_by_run started requests
  obtain ⟨one, positive⟩ := one_map_of_run begun requests
  rw [run_touches_shown requests same, same.view]
  refine ⟨one_map_of_shows final one, fun room edge member => ?_⟩
  exact positive_of_shows final one (positive room) edge member

-- A wire into a child graph, then a literal over it: the second edge of the wire is gone.
theorem literal_over_a_wire :
    let requests : List Request := [.addFunction "f", .addNode 0 .ifThenElse, .addGraph 1,
      .addNode 2 .noOp, .wire ⟨3, 1⟩ ⟨0, 1⟩, .setLiteral ⟨3, 1⟩ (.int 4)]
    let s := run (start Module.initial) requests
    s.edges = [⟨⟨0, 1⟩, ⟨1, 1⟩, 0⟩] ∧
      s.OneMap [(⟨1, 1⟩, .wire ⟨0, 1⟩), (⟨3, 1⟩, .wire ⟨2, 1⟩), (⟨3, 1⟩, .literal ⟨"4", some 3⟩)] ∧
      ∀ edge ∈ s.edges, 1 ≤ edge.source.port ∧ 1 ≤ edge.target.port := by
  intro requests s
  have touched : runTouches (start Module.initial) requests =
      [(⟨1, 1⟩, .wire ⟨0, 1⟩), (⟨3, 1⟩, .wire ⟨2, 1⟩), (⟨3, 1⟩, .literal ⟨"4", some 3⟩)] := by
    decide
  have room : Roomy (start Module.initial).view requests := by decide
  obtain ⟨one, positive⟩ := @bindings_of_run .initial (start Module.initial) rfl requests
  rw [touched] at one
  exact ⟨by decide, one, positive room⟩

-- The compound of `crowded` takes the value in at port 0, and its child graph hands it on there.
theorem edges_at_port_zero :
    let s := run (start Module.empty) crowded
    Origin.empty.start = .ok (start Module.empty) ∧ ⟨⟨0, 1⟩, ⟨1, 0⟩, 0⟩ ∈ s.edges ∧ ⟨⟨2, 0⟩, ⟨3, 1⟩, 1⟩ ∈ s.edges ∧
      ¬ ∀ edge ∈ s.edges, 1 ≤ edge.source.port ∧ 1 ≤ edge.target.port := by
  intro s
  exact ⟨rfl, by decide +kernel, by decide +kernel, by decide +kernel⟩

end Store

end Dataflow
