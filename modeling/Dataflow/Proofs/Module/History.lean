import Dataflow.Proofs.Module.Ports
set_option autoImplicit false

-- What feeds the ports of a module, as the outcome of a history of touches. A later touch of a
-- port settles what feeds it, and the consumers of an output stand in the order of the touches
-- that settled them.
namespace Dataflow

-- What a binding says apart from the moment at which it was made.
inductive Supply where
  | literal (literal : Literal)
  | wire (source : Outlet)
deriving DecidableEq

def Binding.supply : Binding → Supply
  | .literal value => .literal value
  | .wire source _ => .wire source

def Binding.stamp? : Binding → Option Nat
  | .literal _ => none
  | .wire _ stamp => some stamp

abbrev Touches (α : Type) := List (Inlet × α)

namespace Touches

variable {α β : Type}

def latest? (touches : Touches α) (inlet : Inlet) : Option α :=
  (touches.reverse.find? fun touch => touch.1 = inlet).map (·.2)

-- The touches that no later touch of the same port replaces.
def settled : Touches α → Touches α
  | [] => []
  | touch :: later =>
      if later.any fun other => other.1 = touch.1 then settled later else touch :: settled later

def relabel (change : α → β) (touches : Touches α) : Touches β :=
  touches.map fun touch => (touch.1, change touch.2)

theorem latest_nil (inlet : Inlet) : latest? ([] : Touches α) inlet = none := rfl

theorem latest_append (touches : Touches α) (target : Inlet) (value : α) (inlet : Inlet) :
    latest? (touches ++ [(target, value)]) inlet =
      if inlet = target then some value else latest? touches inlet := by
  simp only [latest?, List.reverse_append, List.reverse_cons, List.reverse_nil, List.nil_append,
    List.cons_append, List.find?_cons]
  by_cases same : inlet = target
  · simp [same]
  · have different : ¬ target = inlet := fun equal => same equal.symm
    simp [same, different]

theorem latest_cons (touch : Inlet × α) (later : Touches α) (inlet : Inlet) :
    latest? (touch :: later) inlet =
      (latest? later inlet).or (if touch.1 = inlet then some touch.2 else none) := by
  simp only [latest?, List.reverse_cons, List.find?_append, Option.map_or]
  congr 1
  by_cases same : touch.1 = inlet <;> simp [same]

theorem latest_eq_none_iff {touches : Touches α} {inlet : Inlet} :
    latest? touches inlet = none ↔ ∀ touch ∈ touches, touch.1 ≠ inlet := by
  simp [latest?, List.find?_eq_none]

theorem mem_settled_iff {touches : Touches α} {inlet : Inlet} {value : α} :
    (inlet, value) ∈ settled touches ↔ latest? touches inlet = some value := by
  induction touches with
  | nil => simp [settled, latest_nil]
  | cons touch later ih =>
      rw [latest_cons, settled]
      split
      · rename_i replaced
        obtain ⟨other, member, same⟩ := List.any_eq_true.mp replaced
        rw [ih]
        by_cases here : touch.1 = inlet
        · have known : latest? later inlet ≠ none := by
            intro nothing
            exact latest_eq_none_iff.mp nothing other member ((of_decide_eq_true same).trans here)
          obtain ⟨found, some⟩ := Option.ne_none_iff_exists'.mp known
          simp [some]
        · simp [here]
      · rename_i kept
        have absent : ∀ other ∈ later, other.1 ≠ touch.1 := by
          intro other member same
          exact kept (List.any_eq_true.mpr ⟨other, member, decide_eq_true same⟩)
        rw [List.mem_cons, ih]
        by_cases here : touch.1 = inlet
        · have nothing : latest? later inlet = none := by
            refine latest_eq_none_iff.mpr fun other member => ?_
            rw [← here]
            exact absent other member
          rw [nothing, if_pos here]
          obtain ⟨place, old⟩ := touch
          simp only at here
          subst here
          simp [eq_comm]
        · have different : (inlet, value) ≠ touch := fun same => here (by rw [← same])
          simp [here, different]

theorem settled_sublist (touches : Touches α) : (settled touches).Sublist touches := by
  induction touches with
  | nil => exact .slnil
  | cons touch later ih =>
      rw [settled]
      split
      · exact ih.cons touch
      · exact ih.cons_cons touch

theorem settled_once (touches : Touches α) :
    (settled touches).Pairwise fun first second => first.1 ≠ second.1 := by
  induction touches with
  | nil => exact .nil
  | cons touch later ih =>
      rw [settled]
      split
      · exact ih
      · rename_i kept
        refine List.pairwise_cons.mpr ⟨fun other member same => ?_, ih⟩
        have present := (settled_sublist later).subset member
        exact kept (List.any_eq_true.mpr ⟨other, present, decide_eq_true same.symm⟩)

theorem settled_relabel (change : α → β) (touches : Touches α) :
    settled (relabel change touches) = relabel change (settled touches) := by
  induction touches with
  | nil => rfl
  | cons touch later ih =>
      have same : (relabel change later).any (fun other => other.1 = touch.1) =
          later.any fun other => other.1 = touch.1 := by
        simp [relabel, List.any_map, Function.comp_def]
      change settled ((touch.1, change touch.2) :: relabel change later) = _
      rw [settled, settled]
      simp only [same]
      split
      · exact ih
      · rw [ih]
        rfl

theorem latest_relabel (change : α → β) (touches : Touches α) (inlet : Inlet) :
    latest? (relabel change touches) inlet = (latest? touches inlet).map change := by
  simp only [latest?, relabel, ← List.map_reverse, List.find?_map, Option.map_map]
  congr 1

end Touches

namespace Module
open Touches

-- The module's bindings are what a history settled, and stamps grow along the history.
structure Records (m : Module) (history : Touches Binding) : Prop where
  binding : ∀ inlet, m.binding? inlet = latest? history inlet
  ascending : (history.filterMap fun touch => touch.2.stamp?).Pairwise (· < ·)
  bounded : ∀ stamp ∈ history.filterMap fun touch => touch.2.stamp?, stamp < m.stamp

namespace Records

variable {m changed : Module} {history : Touches Binding}

theorem of_calm (calm : Calm m changed) (records : m.Records history) :
    changed.Records history := by
  refine ⟨fun inlet => (calm.binding inlet).trans (records.binding inlet), records.ascending, ?_⟩
  rw [calm.stamp]
  exact records.bounded

theorem of_literal (target : Inlet) (literal : Literal) (inside : target.node < m.nodes.size)
    (records : m.Records history) :
    (bind target (.literal literal) m).Records (history ++ [(target, .literal literal)]) := by
  refine ⟨fun inlet => ?_, ?_, ?_⟩
  · rw [binding_bind _ inside, latest_append, records.binding]
  · simpa [Binding.stamp?] using records.ascending
  · simpa [Binding.stamp?] using records.bounded

theorem of_connect (source : Outlet) (target : Inlet) (inside : target.node < m.nodes.size)
    (records : m.Records history) :
    (connect source target m).Records (history ++ [(target, .wire source m.stamp)]) := by
  refine ⟨fun inlet => ?_, ?_, ?_⟩
  · rw [binding_connect _ inside, latest_append, records.binding]
  · rw [List.filterMap_append]
    refine List.pairwise_append.mpr ⟨records.ascending, by simp [Binding.stamp?], ?_⟩
    intro earlier member stamp last
    simp only [Binding.stamp?, List.filterMap_cons, List.filterMap_nil, List.mem_singleton] at last
    rw [last]
    exact records.bounded earlier member
  · intro stamp member
    rw [List.filterMap_append] at member
    rw [stamp_connect]
    rcases List.mem_append.mp member with member | last
    · exact Nat.lt_succ_of_lt (records.bounded stamp member)
    · simp only [Binding.stamp?, List.filterMap_cons, List.filterMap_nil, List.mem_singleton] at last
      rw [last]
      exact Nat.lt_succ_self _

end Records

/-! ### Consumers -/

-- Keys that grow strictly leave one order.
theorem merge_sort_of_ascending {α : Type} {key : α → Nat} {values sorted : List α} (perm : values.Perm sorted)
    (ascending : sorted.Pairwise fun first second => key first < key second) :
    (values.mergeSort fun first second => decide (key first ≤ key second)) = sorted := by
  have moved := (List.mergeSort_perm values fun first second => decide (key first ≤ key second)).trans perm
  refine List.Perm.eq_of_pairwise ?_ ?_ (ascending.imp fun less => Nat.le_of_lt less) moved
  · intro first second member other below above
    have distinct := List.pairwise_iff_getElem.mp ascending
    obtain ⟨i, iBound, rfl⟩ := List.mem_iff_getElem.mp (moved.subset member)
    obtain ⟨j, jBound, rfl⟩ := List.mem_iff_getElem.mp other
    rcases Nat.lt_trichotomy i j with less | equal | greater
    · exact absurd (distinct i j iBound jBound less) (Nat.not_lt.mpr above)
    · subst equal
      rfl
    · exact absurd (distinct j i jBound iBound greater) (Nat.not_lt.mpr below)
  · refine (List.pairwise_mergeSort ?_ ?_ _).imp of_decide_eq_true
    · intro first second third
      simp only [decide_eq_true_eq]
      exact Nat.le_trans
    · intro first second
      simp only [Bool.or_eq_true, decide_eq_true_eq]
      exact Nat.le_total _ _

-- The wires at an output port, each with the port that it feeds, in the order of the nodes.
def wiresAt (m : Module) (outlet : Outlet) : List (Wire × Inlet) :=
  (m.nodes.toList.zipIdx.flatMap fun (node, id) =>
    (node.wiresFrom outlet.node).map fun wire => (wire, (⟨id, wire.targetPort⟩ : Inlet))).filter
      (·.1.sourcePort = outlet.port)

theorem consumers_eq (m : Module) (outlet : Outlet) :
    m.consumers outlet =
      ((m.wiresAt outlet).mergeSort fun first second => first.1.stamp ≤ second.1.stamp).map (·.2) :=
  rfl

theorem mem_wires_from {node : Node} {producer : NodeId} {wire : Wire} :
    wire ∈ node.wiresFrom producer ↔
      (node.inputs.get? wire.targetPort).bind (·.binding) =
        some (.wire ⟨producer, wire.sourcePort⟩ wire.stamp) := by
  simp only [Node.wiresFrom, List.mem_filterMap, Option.bind_eq_some_iff]
  constructor
  · rintro ⟨⟨port, input⟩, member, found⟩
    cases bound : input.binding with
    | none => simp [bound] at found
    | some binding =>
        cases binding with
        | literal literal => simp [bound] at found
        | wire source stamp =>
            simp only [bound, Option.ite_none_right_eq_some, Option.some.injEq] at found
            obtain ⟨same, rfl⟩ := found
            exact ⟨input, SortedMap.get?_of_mem_entries member, by rw [bound, ← same]⟩
  · rintro ⟨input, found, bound⟩
    exact ⟨(wire.targetPort, input), SortedMap.mem_entries_of_get? found, by simp [bound]⟩

theorem mem_wires_at {m : Module} {outlet : Outlet} {wire : Wire} {inlet : Inlet} :
    (wire, inlet) ∈ m.wiresAt outlet ↔
      wire.sourcePort = outlet.port ∧ wire.targetPort = inlet.port ∧
        m.binding? inlet = some (.wire outlet wire.stamp) := by
  simp only [wiresAt, List.mem_filter, List.mem_flatMap, List.mem_map, decide_eq_true_eq,
    Prod.mk.injEq]
  constructor
  · rintro ⟨⟨⟨node, id⟩, member, found, from_, rfl, rfl⟩, port⟩
    have here : m.nodes[id]? = some node := by
      rw [← Array.getElem?_toList]
      exact List.mem_zipIdx_iff_getElem?.mp member
    have bound := mem_wires_from.mp from_
    rw [port] at bound
    exact ⟨port, rfl, by simpa [binding?, input?, here] using bound⟩
  · rintro ⟨port, target, bound⟩
    obtain ⟨node, here⟩ := exists_node_iff.mpr (lt_size_of_binding bound)
    refine ⟨⟨(node, inlet.node), ?_, wire, mem_wires_from.mpr ?_, rfl, ?_⟩, port⟩
    · refine List.mem_zipIdx_iff_getElem?.mpr ?_
      rw [Array.getElem?_toList]
      exact here
    · rw [target, port]
      simpa [binding?, input?, here] using bound
    · rw [target]

theorem target_of_wire {input : Input} {port : Nat} {producer : NodeId} {wire : Wire}
    (found : (match input.binding with
      | some (.wire source stamp) => if source.node = producer then some (⟨source.port, port, stamp⟩ : Wire) else none
      | _ => none) = some wire) : wire.targetPort = port := by
  split at found
  · simp only [Option.ite_none_right_eq_some, Option.some.injEq] at found
    rw [← found.2]
  · cases found

theorem wires_from_once (node : Node) (producer : NodeId) :
    (node.wiresFrom producer).Pairwise fun first second => first.targetPort ≠ second.targetPort := by
  refine List.Pairwise.filterMap _ ?_ node.inputs.ascending
  rintro ⟨port, input⟩ ⟨other, otherInput⟩ less first firstFound second secondFound
  rw [target_of_wire firstFound, target_of_wire secondFound]
  intro same
  change port = other at same
  change compare port other = .lt at less
  rw [same] at less
  exact SortedMap.key_lt_irrefl _ less

theorem wires_at_once (m : Module) (outlet : Outlet) :
    (m.wiresAt outlet).Pairwise fun first second => first.2 ≠ second.2 := by
  refine List.Pairwise.filter _ (List.pairwise_flatMap.mpr ⟨?_, ?_⟩)
  · rintro ⟨node, id⟩ _
    refine List.pairwise_map.mpr ((wires_from_once node outlet.node).imp ?_)
    intro first second different same
    exact different (congrArg Inlet.port same)
  · have places : (m.nodes.toList.zipIdx.map (·.2)).Nodup := by
      rw [List.zipIdx_map_snd]
      exact List.nodup_range'
    refine (List.pairwise_map.mp places).imp ?_
    intro first second different _ here _ there same
    obtain ⟨_, _, rfl⟩ := List.mem_map.mp here
    obtain ⟨_, _, rfl⟩ := List.mem_map.mp there
    exact different (congrArg Inlet.node same)

def wireTouch (outlet : Outlet) (touch : Inlet × Binding) : Option (Wire × Inlet) :=
  match touch.2 with
  | .wire source stamp =>
      if source = outlet then some (⟨outlet.port, touch.1.port, stamp⟩, touch.1) else none
  | .literal _ => none

theorem wire_touch_eq_some {outlet : Outlet} {touch : Inlet × Binding} {found : Wire × Inlet}
    (here : wireTouch outlet touch = some found) :
    touch = (found.2, .wire outlet found.1.stamp) ∧
      found.1 = ⟨outlet.port, found.2.port, found.1.stamp⟩ := by
  obtain ⟨inlet, binding⟩ := touch
  cases binding with
  | literal literal => cases here
  | wire source stamp =>
      simp only [wireTouch, Option.ite_none_right_eq_some, Option.some.injEq] at here
      obtain ⟨rfl, rfl⟩ := here
      exact ⟨rfl, rfl⟩

theorem wires_at_perm {m : Module} {history : Touches Binding} (records : m.Records history)
    (outlet : Outlet) :
    (m.wiresAt outlet).Perm ((settled history).filterMap (wireTouch outlet)) := by
  refine (List.perm_ext_iff_of_nodup ?_ ?_).mpr ?_
  · refine (m.wires_at_once outlet).imp ?_
    intro first second different same
    exact different (by rw [same])
  · refine List.Pairwise.filterMap _ ?_ (settled_once history)
    intro first second different found firstFound other otherFound same
    rw [(wire_touch_eq_some firstFound).1, (wire_touch_eq_some otherFound).1, same] at different
    exact different rfl
  · rintro ⟨wire, inlet⟩
    rw [mem_wires_at, records.binding, ← mem_settled_iff, List.mem_filterMap]
    constructor
    · rintro ⟨port, target, member⟩
      refine ⟨_, member, ?_⟩
      simp only [wireTouch, if_true]
      rw [← port, ← target]
    · rintro ⟨touch, member, found⟩
      obtain ⟨same, shape⟩ := wire_touch_eq_some found
      rw [same] at member
      exact ⟨congrArg Wire.sourcePort shape, congrArg Wire.targetPort shape, member⟩

theorem settled_stamps {history : Touches Binding}
    (ascending : (history.filterMap fun touch => touch.2.stamp?).Pairwise (· < ·))
    (outlet : Outlet) :
    ((settled history).filterMap (wireTouch outlet)).Pairwise fun first second =>
      first.1.stamp < second.1.stamp := by
  have kept := List.pairwise_filterMap.mp (ascending.sublist ((settled_sublist history).filterMap _))
  refine List.Pairwise.filterMap _ ?_ kept
  intro first second less found firstFound other otherFound
  refine less found.1.stamp ?_ other.1.stamp ?_
  · rw [(wire_touch_eq_some firstFound).1]
    rfl
  · rw [(wire_touch_eq_some otherFound).1]
    rfl

-- Sorting by stamp gives the order of the history: both sides hold the same wires, and stamps
-- grow strictly along either of them.
theorem consumers_of_history {m : Module} {history : Touches Binding}
    (records : m.Records history) (outlet : Outlet) :
    m.consumers outlet =
      ((settled (relabel Binding.supply history)).filter fun touch =>
        touch.2 = .wire outlet).map (·.1) := by
  have same : ((m.wiresAt outlet).mergeSort fun first second =>
      decide (first.1.stamp ≤ second.1.stamp)) = (settled history).filterMap (wireTouch outlet) :=
    merge_sort_of_ascending (wires_at_perm records outlet) (settled_stamps records.ascending outlet)
  rw [consumers_eq, same, settled_relabel, relabel, List.filter_map, List.map_map]
  induction settled history with
  | nil => rfl
  | cons touch later ih =>
      obtain ⟨inlet, binding⟩ := touch
      cases binding with
      | literal literal =>
          have skipped : wireTouch outlet (inlet, .literal literal) = none := rfl
          simpa [skipped, Binding.supply] using ih
      | wire source stamp =>
          have taken : wireTouch outlet (inlet, .wire source stamp) =
              if source = outlet then some (⟨outlet.port, inlet.port, stamp⟩, inlet) else none := rfl
          by_cases here : source = outlet
          · subst here
            rw [if_pos rfl] at taken
            simpa [taken, Binding.supply] using ih
          · rw [if_neg here] at taken
            simpa [taken, Binding.supply, here] using ih

end Module

end Dataflow
