import Dataflow.Proofs.Module.Feeding
import Dataflow.Proofs.Type.Signed
set_option autoImplicit false

-- The function types of graphs. A graph is settled once its arguments have no gaps and its chains are
-- in the table; then asking for its type changes nothing.
namespace Dataflow
open TypeTable

namespace Node

def typedPorts (node : Node) : List (Nat × TypeId) :=
  node.outputs.walk fun _ output => output.type

theorem mem_typed_ports {node : Node} {port : Nat} {type : TypeId} :
    (port, type) ∈ node.typedPorts ↔ node.outputType? port = some type :=
  SortedMap.mem_walk

theorem typed_ports_ascending (node : Node) :
    (node.typedPorts.map (·.1)).Pairwise (· < ·) := by
  refine List.pairwise_map.mpr ((SortedMap.walk_ascending _ node.outputs).imp ?_)
  intro first second less
  exact Nat.compare_eq_lt.mp less

theorem argument_types_eq (node : Node) : Module.argumentTypes node = node.typedPorts.map (·.2) := by
  unfold typedPorts Module.argumentTypes
  rw [SortedMap.walk_values]

theorem typed_keys_eq (node : Node) :
    (node.outputs.keys.filter fun port => (node.outputType? port).isSome) = node.typedPorts.map (·.1) := by
  have ordered : node.outputs.keys.Pairwise (· < ·) :=
    List.pairwise_map.mpr (node.outputs.ascending.imp fun less => Nat.compare_eq_lt.mp less)
  refine List.Perm.eq_of_pairwise ?_ (ordered.filter _) (typed_ports_ascending node) ?_
  · intro first second _ _ less greater
    omega
  · refine (List.perm_ext_iff_of_nodup ?_ ?_).mpr ?_
    · exact (ordered.filter _).imp fun less => Nat.ne_of_lt less
    · exact (typed_ports_ascending node).imp fun less => Nat.ne_of_lt less
    · intro port
      rw [List.mem_filter, List.mem_map, SortedMap.mem_keys_iff]
      constructor
      · rintro ⟨_, typed⟩
        obtain ⟨type, found⟩ := Option.isSome_iff_exists.mp typed
        exact ⟨(port, type), mem_typed_ports.mpr found, rfl⟩
      · rintro ⟨⟨other, type⟩, member, rfl⟩
        have found := mem_typed_ports.mp member
        refine ⟨?_, by rw [found]; rfl⟩
        obtain ⟨output, here, _⟩ := Option.bind_eq_some_iff.mp found
        rw [here]
        rfl

theorem mem_gaps {node : Node} {port : Nat} :
    port ∈ Module.argumentGaps node ↔
      1 ≤ port ∧ node.outputType? port = none ∧ ∃ top, (node.outputType? top).isSome ∧ port < top := by
  unfold Module.argumentGaps
  rw [typed_keys_eq, List.mem_filter, List.mem_range'_1]
  have last : ∀ top, (node.typedPorts.map (·.1)).getLast? = some top →
      (node.outputType? top).isSome ∧ ∀ other, (node.outputType? other).isSome → other ≤ top := by
    intro top found
    obtain ⟨⟨other, type⟩, member, rfl⟩ := List.mem_map.mp (List.mem_of_getLast? found)
    refine ⟨by rw [mem_typed_ports.mp member]; rfl, fun port typed => ?_⟩
    obtain ⟨known, here⟩ := Option.isSome_iff_exists.mp typed
    have inside := List.mem_map_of_mem (f := (·.1)) (mem_typed_ports.mpr here)
    obtain ⟨front, whole⟩ := List.getLast?_eq_some_iff.mp found
    have ordered := typed_ports_ascending node
    rw [whole] at ordered inside
    rcases List.mem_append.mp inside with early | same
    · exact Nat.le_of_lt ((List.pairwise_append.mp ordered).2.2 port early _ List.mem_cons_self)
    · exact Nat.le_of_eq (List.mem_singleton.mp same)
  constructor
  · rintro ⟨⟨low, high⟩, untyped⟩
    have untyped : node.outputType? port = none := by simpa using untyped
    refine ⟨low, untyped, ?_⟩
    cases top : (node.typedPorts.map (·.1)).getLast? with
    | none =>
        rw [top] at high
        simp at high
        omega
    | some top' =>
        rw [top, Option.getD_some] at high
        refine ⟨top', (last top' top).1, ?_⟩
        have different : port ≠ top' := by
          rintro rfl
          have typed := (last port top).1
          rw [untyped] at typed
          cases typed
        omega
  · rintro ⟨low, untyped, top, typed, below⟩
    refine ⟨⟨low, ?_⟩, by rw [untyped]; rfl⟩
    obtain ⟨known, here⟩ := Option.isSome_iff_exists.mp typed
    have inside := List.mem_map_of_mem (f := (·.1)) (mem_typed_ports.mpr here)
    cases found : (node.typedPorts.map (·.1)).getLast? with
    | none =>
        rw [List.getLast?_eq_none_iff.mp found] at inside
        cases inside
    | some highest =>
        have := (last highest found).2 top typed
        rw [Option.getD_some]
        omega

-- An ascending row of numbers from 1 that leaves none out.
theorem eq_range_of_dense {ports : List Nat} (ordered : ports.Pairwise (· < ·))
    (low : ∀ port ∈ ports, 1 ≤ port)
    (dense : ∀ port top, 1 ≤ port → port ≤ top → top ∈ ports → port ∈ ports) :
    ports = List.range' 1 ports.length := by
  cases last : ports.getLast? with
  | none =>
      rw [List.getLast?_eq_none_iff.mp last]
      rfl
  | some top =>
      obtain ⟨front, whole⟩ := List.getLast?_eq_some_iff.mp last
      have highest : ∀ port ∈ ports, port ≤ top := by
        intro port member
        rw [whole] at ordered member
        rcases List.mem_append.mp member with early | same
        · exact Nat.le_of_lt ((List.pairwise_append.mp ordered).2.2 port early top List.mem_cons_self)
        · exact Nat.le_of_eq (List.mem_singleton.mp same)
      have same : ports = List.range' 1 top := by
        refine List.Perm.eq_of_pairwise ?_ ordered List.pairwise_lt_range' ?_
        · intro first second _ _ less greater
          omega
        · refine (List.perm_ext_iff_of_nodup (ordered.imp fun less => Nat.ne_of_lt less)
            List.nodup_range').mpr fun port => ?_
          rw [List.mem_range'_1]
          constructor
          · intro member
            have := low port member
            have := highest port member
            omega
          · intro inside
            exact dense port top inside.1 (by omega) (List.mem_of_getLast? last)
      have length := congrArg List.length same
      rw [List.length_range'] at length
      rw [length]
      exact same

-- Without gaps every argument stands at the place of its port.
theorem argument_at {node : Node} (numbered : ∀ port, (node.outputType? port).isSome → 1 ≤ port)
    (whole : Module.argumentGaps node = []) (place : Nat) :
    (Module.argumentTypes node)[place]? = node.outputType? (place + 1) := by
  have ports : node.typedPorts.map (·.1) = List.range' 1 node.typedPorts.length := by
    have row := eq_range_of_dense (typed_ports_ascending node) ?_ ?_
    · rw [List.length_map] at row
      exact row
    · intro port member
      obtain ⟨⟨other, type⟩, inside, rfl⟩ := List.mem_map.mp member
      exact numbered _ (by rw [mem_typed_ports.mp inside]; rfl)
    · intro port top low below member
      obtain ⟨⟨other, type⟩, inside, rfl⟩ := List.mem_map.mp member
      have typed := mem_typed_ports.mp inside
      rcases Nat.lt_or_eq_of_le below with less | same
      · cases found : node.outputType? port with
        | some known => exact List.mem_map_of_mem (f := (·.1)) (mem_typed_ports.mpr found)
        | none =>
            have gap : port ∈ Module.argumentGaps node :=
              mem_gaps.mpr ⟨low, found, other, by rw [typed]; rfl, less⟩
            rw [whole] at gap
            cases gap
      · rw [same]
        exact member
  rw [argument_types_eq, List.getElem?_map]
  cases found : node.typedPorts[place]? with
  | some entry =>
      obtain ⟨port, type⟩ := entry
      have inside := (List.getElem?_eq_some_iff.mp found).1
      have here : (node.typedPorts.map (·.1))[place]? = some port := by
        rw [List.getElem?_map, found]
        rfl
      rw [ports, List.getElem?_range' inside] at here
      have same : port = place + 1 := by
        have := Option.some.inj here
        omega
      rw [← same, mem_typed_ports.mp (List.mem_of_getElem? found)]
      rfl
  | none =>
      cases typed : node.outputType? (place + 1) with
      | none => rfl
      | some type =>
          have member := List.mem_map_of_mem (f := (·.1)) (mem_typed_ports.mpr typed)
          rw [ports, List.mem_range'_1] at member
          have beyond := List.getElem?_eq_none_iff.mp found
          omega

end Node

end Dataflow
