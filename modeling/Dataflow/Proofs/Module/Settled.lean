import Dataflow.Module.Write
import Dataflow.Proofs.Module.Closing
import Dataflow.Proofs.Module.Quiet
import Dataflow.Proofs.Module.Signatures
set_option autoImplicit false

-- Asking for the type of a graph settles it, and leaves all other graphs settled: it only types ports
-- of this graph that had no type, and only adds types to the table.
namespace Dataflow.Module
open TypeTable
open Read (typed)

def pragmasOf (m : Module) (id : NodeId) : Pragmas :=
  (m.nodes[id]?.map Node.pragmas).getD .empty

def argumentsOf (m : Module) (id : NodeId) : List TypeId :=
  (m.nodes[id]?.map argumentTypes).getD []

def gapsOf (m : Module) (id : NodeId) : List Nat :=
  (m.nodes[id]?.map argumentGaps).getD []

def resultsOf (m : Module) (id : NodeId) : List TypeId :=
  (m.nodes[id]?.map (m.resultTypes id)).getD []

/-! ### Ports of one node -/

def inputsOf (m : Module) (id : NodeId) : SortedMap Nat Input :=
  (m.nodes[id]?.map Node.inputs).getD .empty

def outputsOf (m : Module) (id : NodeId) : SortedMap Nat Output :=
  (m.nodes[id]?.map Node.outputs).getD .empty

theorem get_inputs (m : Module) (id : NodeId) (port : Nat) :
    (m.inputsOf id).get? port = m.input? ⟨id, port⟩ := by
  unfold inputsOf input?
  cases m.nodes[id]? <;> rfl

theorem get_outputs (m : Module) (id : NodeId) (port : Nat) :
    (m.outputsOf id).get? port = m.output? ⟨id, port⟩ := by
  unfold outputsOf output?
  cases m.nodes[id]? <;> rfl

theorem results_eq (m : Module) (id : NodeId) :
    m.resultsOf id = ((m.inputsOf id).walk fun port _ => m.inputType? ⟨id, port⟩).map (·.2) := by
  rw [SortedMap.walk_values]
  unfold resultsOf inputsOf
  cases m.nodes[id]? with
  | none => rfl
  | some node => simp [resultTypes, SortedMap.keys, List.filterMap_map]

theorem arguments_eq (m : Module) (id : NodeId) :
    m.argumentsOf id = ((m.outputsOf id).walk fun _ output => output.type).map (·.2) := by
  rw [SortedMap.walk_values]
  unfold argumentsOf outputsOf
  cases m.nodes[id]? <;> rfl

theorem results_congr {m changed : Module} {id : NodeId}
    (input : ∀ port, changed.input? ⟨id, port⟩ = m.input? ⟨id, port⟩)
    (types : ∀ port, changed.inputType? ⟨id, port⟩ = m.inputType? ⟨id, port⟩) :
    changed.resultsOf id = m.resultsOf id := by
  rw [results_eq, results_eq]
  congr 1
  refine SortedMap.walk_congr fun port => ?_
  rw [get_inputs, get_inputs, input, types]

theorem arguments_congr {m changed : Module} {id : NodeId}
    (output : ∀ port, changed.output? ⟨id, port⟩ = m.output? ⟨id, port⟩) :
    changed.argumentsOf id = m.argumentsOf id := by
  rw [arguments_eq, arguments_eq]
  congr 1
  refine SortedMap.walk_congr fun port => ?_
  rw [get_outputs, get_outputs, output]

theorem output_type_of_node {m : Module} {id : NodeId} {node : Node} (found : m.nodes[id]? = some node)
    (port : Nat) : node.outputType? port = m.outputType? ⟨id, port⟩ := by
  rw [Node.outputType?, outputType?, output_eq_of_node found]

theorem held_of_type {m : Module} {outlet : Outlet} (known : (m.outputType? outlet).isSome) :
    (m.output? outlet).isSome := by
  obtain ⟨type, known⟩ := Option.isSome_iff_exists.mp known
  obtain ⟨output, found, _⟩ := Option.bind_eq_some_iff.mp known
  exact Option.isSome_iff_exists.mpr ⟨output, found⟩

theorem mem_gaps_of {m : Module} {id : NodeId} {port : Nat} :
    port ∈ m.gapsOf id ↔ 1 ≤ port ∧ m.outputType? ⟨id, port⟩ = none ∧
      ∃ top, (m.outputType? ⟨id, top⟩).isSome ∧ port < top := by
  unfold gapsOf
  cases found : m.nodes[id]? with
  | none =>
      have bare : ∀ top, m.outputType? ⟨id, top⟩ = none := by
        intro top
        simp [outputType?, output?, found]
      simp [bare]
  | some node =>
      simp only [Option.map_some, Option.getD_some, Node.mem_gaps, output_type_of_node found]

theorem gaps_eq_nil_iff {m : Module} {id : NodeId} :
    m.gapsOf id = [] ↔ ∀ port, port ∉ m.gapsOf id := by
  rw [List.eq_nil_iff_forall_not_mem]

theorem gaps_congr {m changed : Module} {id : NodeId}
    (output : ∀ port, changed.output? ⟨id, port⟩ = m.output? ⟨id, port⟩) (whole : m.gapsOf id = []) :
    changed.gapsOf id = [] := by
  refine gaps_eq_nil_iff.mpr fun port member => ?_
  simp only [mem_gaps_of, outputType?, output] at member
  have inside : port ∈ m.gapsOf id := by
    simp only [mem_gaps_of, outputType?]
    exact member
  rw [whole] at inside
  cases inside

inductive Settled (m : Module) (id : NodeId) : Option TypeId → Prop
  | untyped (isGraph : m.IsGraph id) (bare : m.resultsOf id = []) : Settled m id none
  | typed {type : TypeId} (isGraph : m.IsGraph id) (results : m.resultsOf id ≠ [])
      (whole : m.gapsOf id = []) (signed : Signed m.types (m.argumentsOf id) (m.resultsOf id) type)
      (live : ∀ known ∈ m.argumentsOf id ++ m.resultsOf id, known ∈ m.types.order) :
      Settled m id (some type)

theorem graph_of_is_graph {m : Module} {id : NodeId} (isGraph : m.IsGraph id) :
    ∃ node, m.nodes[id]? = some node ∧ m.graph id = .ok node := by
  obtain ⟨role, found, other⟩ := isGraph
  obtain ⟨node, here, rfl⟩ := node_of_role found
  refine ⟨node, here, graph_ok_iff.mpr ⟨here, ?_⟩⟩
  unfold Node.isGraph
  cases role : node.role with
  | node graph => exact absurd role (other graph)
  | function name => rfl
  | subgraph compound => rfl

theorem function_type_run {m : Module} {id : NodeId} {type : Option TypeId} (reliable : m.types.Reliable)
    (settled : Settled m id type) : functionType id m = .ok type m := by
  rw [function_type_eq]
  cases settled with
  | untyped isGraph bare =>
      obtain ⟨node, here, found⟩ := graph_of_is_graph isGraph
      have empty : m.resultTypes id node = [] := by simpa [resultsOf, here] using bare
      refine (Edit.bind_query_of_ok (by exact found)).trans ((Edit.bind_get m).trans ?_)
      rw [empty]
      rfl
  | typed isGraph results whole signed live =>
      rename_i type
      obtain ⟨node, here, found⟩ := graph_of_is_graph isGraph
      have sameResults : m.resultsOf id = m.resultTypes id node := by simp [resultsOf, here]
      have sameArguments : m.argumentsOf id = argumentTypes node := by simp [argumentsOf, here]
      have noGaps : argumentGaps node = [] := by simpa [gapsOf, here] using whole
      rw [sameResults] at results signed live
      rw [sameArguments] at signed live
      have some_ : (m.resultTypes id node).isEmpty = false := by
        cases list : m.resultTypes id node with
        | nil => exact absurd list results
        | cons result rest => rfl
      have table : onTypes (signatureType (argumentTypes node) (m.resultTypes id node)) m = .ok type m :=
        Edit.within_of_ok (signature_type_run reliable signed live)
      refine (Edit.bind_query_of_ok (by exact found)).trans ((Edit.bind_get m).trans ?_)
      rw [some_, noGaps]
      refine (Edit.bind_of_ok (rfl : fillGaps id [] m = .ok () m)).trans ?_
      refine (Edit.bind_query_of_ok (by exact node_ok_iff.mpr here)).trans ((Edit.bind_get m).trans ?_)
      exact (Edit.bind_of_ok table).trans rfl

/-! ### Filling gaps -/

def filled (id : NodeId) (wild : TypeId) (gaps : List Nat) (m : Module) : Module :=
  gaps.foldl (fun m port => typed ⟨id, port⟩ wild m) m

theorem typed_shape (outlet : Outlet) (type : TypeId) (m : Module) : SameShape m (typed outlet type m) :=
  same_shape_modify _ _ (fun _ => rfl) (fun _ => rfl) (fun _ => rfl) (fun _ => rfl)

theorem pragmas_of_modify (m : Module) (id : NodeId) (change : Node → Node)
    (pragmas : ∀ node, (change node).pragmas = node.pragmas) (query : NodeId) :
    (modifyNode id change m).pragmasOf query = m.pragmasOf query := by
  simp only [pragmasOf, nodes_modify]
  split
  · cases m.nodes[query]? <;> simp [pragmas]
  · rfl

structure Filled (id : NodeId) (wild : TypeId) (gaps : List Nat) (m changed : Module) : Prop where
  shape : SameShape m changed
  types : changed.types = m.types
  stamp : changed.stamp = m.stamp
  pragmas : changed.pragmas = m.pragmas
  nodePragmas : ∀ query, changed.pragmasOf query = m.pragmasOf query
  input : ∀ inlet, changed.input? inlet = m.input? inlet
  output : ∀ outlet, changed.output? outlet =
    if outlet.node = id ∧ outlet.port ∈ gaps then
      some { (m.output? outlet).getD {} with type := some wild }
    else m.output? outlet

theorem filled_spec {id : NodeId} (wild : TypeId) (gaps : List Nat) {m : Module}
    (inside : id < m.nodes.size) : Filled id wild gaps m (filled id wild gaps m) := by
  induction gaps generalizing m with
  | nil => exact ⟨.refl m, rfl, rfl, rfl, fun _ => rfl, fun _ => rfl, fun _ => by simp [filled]⟩
  | cons port rest ih =>
      have shape := typed_shape ⟨id, port⟩ wild m
      have later := ih (m := typed ⟨id, port⟩ wild m) (by rw [shape.size]; exact inside)
      refine ⟨shape.trans later.shape, later.types, later.stamp, later.pragmas, ?_, ?_, ?_⟩
      · exact fun query => (later.nodePragmas query).trans (pragmas_of_modify m id
          (Node.modifyOutput port fun output => { output with type := some wild }) (fun _ => rfl) query)
      · exact fun inlet => (later.input inlet).trans (input_modify m id
          (Node.modifyOutput port fun output => { output with type := some wild }) (fun _ => rfl) inlet)
      · intro outlet
        have here : (typed ⟨id, port⟩ wild m).output? outlet =
            if outlet = ⟨id, port⟩ then some { (m.output? outlet).getD {} with type := some wild }
            else m.output? outlet :=
          output_modify_output m id port (fun output => { output with type := some wild }) inside outlet
        refine (later.output outlet).trans ?_
        rw [here]
        obtain ⟨node, number⟩ := outlet
        by_cases same : node = id
        · subst same
          by_cases first : number = port
          · subst first
            simp
          · simp [first]
        · simp [same]

theorem set_outputs_ok {id : NodeId} {wild : TypeId} {gaps : List Nat} {m changed : Module}
    (done : (gaps.forM fun port => setOutput ⟨id, port⟩ wild) m = .ok () changed) :
    changed = filled id wild gaps m := by
  induction gaps generalizing m with
  | nil => exact (Edit.pure_ok done).2.symm
  | cons port rest ih =>
      obtain ⟨_, middle, here, later⟩ := Edit.bind_ok done
      obtain ⟨_, _, _, rfl⟩ := Read.set_output_ok here
      exact ih later

theorem set_outputs_run {id : NodeId} {wild : TypeId} {gaps : List Nat} {m : Module}
    (numbered : ∀ port ∈ gaps, 1 ≤ port) (held : Read.TypeHeld m wild) (inside : id < m.nodes.size) :
    (gaps.forM fun port => setOutput ⟨id, port⟩ wild) m = .ok () (filled id wild gaps m) := by
  induction gaps generalizing m with
  | nil => rfl
  | cons port rest ih =>
      have here := @Read.set_output_run ⟨id, port⟩ _ _ (numbered port List.mem_cons_self) held inside
      refine (Edit.bind_of_ok here).trans ?_
      refine ih (fun other member => numbered other (List.mem_cons_of_mem _ member)) held ?_
      rw [(typed_shape ⟨id, port⟩ wild m).size]
      exact inside

structure Retyped (graph : NodeId) (m changed : Module) : Prop where
  shape : SameShape m changed
  types : Grown m.types changed.types
  stamp : changed.stamp = m.stamp
  pragmas : changed.pragmas = m.pragmas
  nodePragmas : ∀ query, changed.pragmasOf query = m.pragmasOf query
  input : ∀ inlet, changed.input? inlet = m.input? inlet
  output : ∀ outlet, changed.output? outlet = m.output? outlet ∨
    outlet.node = graph ∧ m.outputType? outlet = none ∧ 1 ≤ outlet.port ∧
      (∃ top, (m.outputType? ⟨graph, top⟩).isSome ∧ outlet.port < top) ∧
      ∃ wild, changed.types.index.lookup .wild = some wild ∧
        changed.output? outlet = some { (m.output? outlet).getD {} with type := some wild }

theorem input_type_congr {m changed : Module} {inlet : Inlet} (input : changed.input? inlet = m.input? inlet)
    (output : ∀ source stamp, m.binding? inlet = some (.wire source stamp) →
      changed.output? source = m.output? source) : changed.inputType? inlet = m.inputType? inlet := by
  have binding := binding_eq_of_input input
  unfold inputType?
  rw [binding]
  cases bound : m.binding? inlet with
  | none => rfl
  | some found =>
      cases found with
      | literal literal => rfl
      | wire source stamp => simp only [outputType?, output source stamp bound]

namespace Retyped

variable {graph : NodeId} {m changed : Module}

theorem outputs_of_other (retyped : Retyped graph m changed) {outlet : Outlet} (other : outlet.node ≠ graph) :
    changed.output? outlet = m.output? outlet := by
  rcases retyped.output outlet with same | ⟨here, _⟩
  · exact same
  · exact absurd here other

-- What feeds the results of a graph lies in the graph, so other graphs do not change their types.
theorem results_of_other (retyped : Retyped graph m changed) (wired : m.Wired) (isGraph : m.IsGraph graph)
    {id : NodeId} (here : m.IsGraph id) (other : id ≠ graph) : changed.resultsOf id = m.resultsOf id := by
  refine results_congr (fun port => retyped.input _) fun port => ?_
  refine input_type_congr (retyped.input _) fun source stamp bound => ?_
  refine retyped.outputs_of_other ?_
  intro same
  obtain ⟨_, scope, sourceScope, targetScope⟩ := wired.wires bound
  rw [same, Read.scope_of_graph isGraph] at sourceScope
  have target := Read.scope_of_graph here
  rw [targetScope] at target
  cases sourceScope
  cases target
  exact other rfl

theorem settled_of_other (retyped : Retyped graph m changed) (wired : m.Wired) (isGraph : m.IsGraph graph)
    {id : NodeId} {type : Option TypeId} (other : id ≠ graph) (settled : Settled m id type) :
    Settled changed id type := by
  have outputs : ∀ port, changed.output? ⟨id, port⟩ = m.output? ⟨id, port⟩ :=
    fun port => retyped.outputs_of_other other
  cases settled with
  | untyped here bare =>
      refine .untyped (Read.is_graph_of_same_shape retyped.shape here) ?_
      rw [retyped.results_of_other wired isGraph here other]
      exact bare
  | typed here results whole signed live =>
      have sameResults := retyped.results_of_other wired isGraph here other
      have sameArguments := arguments_congr outputs
      refine .typed (Read.is_graph_of_same_shape retyped.shape here) ?_ (gaps_congr outputs whole) ?_ ?_
      · rw [sameResults]
        exact results
      · rw [sameResults, sameArguments]
        exact signed_of_grows retyped.types.grows signed
      · intro known member
        rw [sameResults, sameArguments] at member
        exact retyped.types.grows.live (live known member)

end Retyped

/-! ### Settling a graph -/

theorem fill_gaps_ok {id : NodeId} {gaps : List Nat} {m changed : Module} (reliable : m.types.Reliable)
    (done : fillGaps id gaps m = .ok () changed) :
    ∃ wild table, Grown m.types table ∧ (gaps ≠ [] → table.index.lookup .wild = some wild) ∧
      changed = filled id wild gaps { m with types := table } := by
  rw [fill_gaps_eq] at done
  cases gaps with
  | nil =>
      obtain ⟨_, rfl⟩ := Edit.pure_ok done
      exact ⟨0, m.types, .refl m.types, fun some_ => absurd rfl some_, rfl⟩
  | cons port rest =>
      obtain ⟨wild, middle, adding, done⟩ := Edit.bind_ok done
      obtain ⟨table, added, rfl⟩ := Edit.within_ok adding
      obtain ⟨signature, same, made⟩ := interned_of_add reliable added fun {signature} made => by
        cases made
        exact fun {_ _ _} same => by cases same
      cases same
      exact ⟨wild, table, made.grown, fun _ => made.found, set_outputs_ok done⟩

theorem output_type_filled {id : NodeId} {wild : TypeId} {gaps : List Nat} {m changed : Module}
    (filled : Filled id wild gaps m changed) (outlet : Outlet) :
    changed.outputType? outlet =
      if outlet.node = id ∧ outlet.port ∈ gaps then some wild else m.outputType? outlet := by
  unfold outputType?
  rw [filled.output]
  split <;> rfl

theorem gaps_filled {id : NodeId} {wild : TypeId} {m changed : Module}
    (filled : Filled id wild (m.gapsOf id) m changed) : changed.gapsOf id = [] := by
  refine gaps_eq_nil_iff.mpr fun port member => ?_
  obtain ⟨low, untyped, top, typed, below⟩ := mem_gaps_of.mp member
  rw [output_type_filled filled] at untyped typed
  by_cases gap : port ∈ m.gapsOf id
  · rw [if_pos ⟨rfl, gap⟩] at untyped
    cases untyped
  · rw [if_neg fun both => gap both.2] at untyped
    refine gap (mem_gaps_of.mpr ⟨low, untyped, ?_⟩)
    by_cases above : top ∈ m.gapsOf id
    · obtain ⟨_, _, highest, there, less⟩ := mem_gaps_of.mp above
      exact ⟨highest, there, by omega⟩
    · rw [if_neg fun both => above both.2] at typed
      exact ⟨top, typed, below⟩

theorem mem_results {m : Module} {id : NodeId} {type : TypeId} :
    type ∈ m.resultsOf id ↔ ∃ port, (m.input? ⟨id, port⟩).isSome ∧ m.inputType? ⟨id, port⟩ = some type := by
  rw [results_eq, List.mem_map]
  constructor
  · rintro ⟨⟨port, known⟩, member, rfl⟩
    obtain ⟨input, found, typed⟩ := Option.bind_eq_some_iff.mp (SortedMap.mem_walk.mp member)
    rw [get_inputs] at found
    exact ⟨port, by rw [found]; rfl, typed⟩
  · rintro ⟨port, held, typed⟩
    obtain ⟨input, found⟩ := Option.isSome_iff_exists.mp held
    refine ⟨(port, type), SortedMap.mem_walk.mpr (Option.bind_eq_some_iff.mpr ⟨input, ?_, typed⟩), rfl⟩
    rw [get_inputs]
    exact found

theorem results_kept {m changed : Module} {id : NodeId}
    (input : ∀ port, changed.input? ⟨id, port⟩ = m.input? ⟨id, port⟩)
    (kept : ∀ outlet known, m.outputType? outlet = some known → changed.outputType? outlet = some known)
    (some_ : m.resultsOf id ≠ []) : changed.resultsOf id ≠ [] := by
  obtain ⟨type, member⟩ := List.exists_mem_of_ne_nil _ some_
  obtain ⟨port, held, typed⟩ := mem_results.mp member
  have there : type ∈ changed.resultsOf id := by
    refine mem_results.mpr ⟨port, by rw [input]; exact held, ?_⟩
    unfold inputType? at typed ⊢
    rw [binding_eq_of_input (input port)]
    cases bound : m.binding? ⟨id, port⟩ with
    | none => simp [bound] at typed
    | some binding =>
        cases binding with
        | literal literal => simpa [bound] using typed
        | wire source stamp =>
            simp only [bound] at typed ⊢
            exact kept source type typed
  exact List.ne_nil_of_mem there

theorem results_filled {id : NodeId} {wild : TypeId} {m changed : Module}
    (filled : Filled id wild (m.gapsOf id) m changed) (some_ : m.resultsOf id ≠ []) :
    changed.resultsOf id ≠ [] := by
  refine results_kept (fun port => filled.input _) (fun outlet known found => ?_) some_
  rw [output_type_filled filled, if_neg]
  · exact found
  · rintro ⟨here, gap⟩
    obtain ⟨_, untyped, _⟩ := mem_gaps_of.mp gap
    rw [← here] at untyped
    change m.outputType? outlet = none at untyped
    rw [found] at untyped
    cases untyped

theorem retyped_of_filled {id : NodeId} {wild : TypeId} {table types : TypeTable} {m changed : Module}
    (first : Grown m.types table) (second : Grown table types)
    (handed : m.gapsOf id ≠ [] → table.index.lookup .wild = some wild)
    (filled : Filled id wild (m.gapsOf id) { m with types := table } changed) :
    Retyped id m { changed with types := types } := by
  have shape := filled.shape
  refine ⟨⟨shape.functions, shape.size, shape.role, shape.opcode, shape.nodes, shape.children⟩,
    first.trans second, filled.stamp, filled.pragmas, filled.nodePragmas, filled.input, ?_⟩
  intro outlet
  have found := filled.output outlet
  by_cases gap : outlet.node = id ∧ outlet.port ∈ m.gapsOf id
  · rw [if_pos gap] at found
    obtain ⟨low, untyped, above⟩ := mem_gaps_of.mp gap.2
    refine .inr ⟨gap.1, ?_, low, above, wild, second.grows.index (handed (List.ne_nil_of_mem gap.2)), found⟩
    rw [← gap.1] at untyped
    exact untyped
  · rw [if_neg gap] at found
    exact .inl found

theorem retyped_refl (m : Module) (id : NodeId) : Retyped id m m :=
  ⟨.refl m, .refl m.types, rfl, rfl, fun _ => rfl, fun _ => rfl, fun _ => .inl rfl⟩

theorem function_type_ok {m changed : Module} {id : NodeId} {type : Option TypeId}
    (reliable : m.types.Reliable) (done : functionType id m = .ok type changed) :
    m.IsGraph id ∧ Retyped id m changed ∧ Settled changed id type ∧ (type = none → changed = m) := by
  rw [function_type_eq] at done
  obtain ⟨node, _, query, done⟩ := Edit.bind_ok done
  obtain ⟨found, rfl⟩ := Edit.query_ok query
  obtain ⟨here, _⟩ := graph_ok_iff.mp found
  have isGraph := is_graph_of_graph found
  have sameResults : m.resultsOf id = m.resultTypes id node := by simp [resultsOf, here]
  have sameGaps : m.gapsOf id = argumentGaps node := by simp [gapsOf, here]
  obtain ⟨_, _, got, done⟩ := Edit.bind_ok done
  cases got
  by_cases bare : (m.resultTypes id node).isEmpty = true
  · rw [if_pos bare] at done
    obtain ⟨rfl, rfl⟩ := Edit.pure_ok done
    refine ⟨isGraph, retyped_refl m id, .untyped isGraph ?_, fun _ => rfl⟩
    rw [sameResults]
    exact List.isEmpty_iff.mp bare
  rw [if_neg bare] at done
  obtain ⟨_, middle, filling, done⟩ := Edit.bind_ok done
  rw [← sameGaps] at filling
  obtain ⟨wild, table, grown, handed, rfl⟩ := fill_gaps_ok reliable filling
  have inside : id < m.nodes.size := exists_node_iff.mp ⟨node, here⟩
  have spec := filled_spec wild (m.gapsOf id) (m := { m with types := table }) inside
  have some_ : m.resultsOf id ≠ [] := by
    rw [sameResults]
    exact fun none => bare (List.isEmpty_iff.mpr none)
  generalize filled id wild (m.gapsOf id) { m with types := table } = middle at spec done
  rw [ports_type_eq] at done
  obtain ⟨filledNode, _, query, done⟩ := Edit.bind_ok done
  obtain ⟨there, rfl⟩ := Edit.query_ok query
  have there := node_ok_iff.mp there
  obtain ⟨_, _, got, done⟩ := Edit.bind_ok done
  cases got
  obtain ⟨made, _, typing, done⟩ := Edit.bind_ok done
  obtain ⟨rfl, rfl⟩ := Edit.pure_ok done
  obtain ⟨types, signed, rfl⟩ := Edit.within_ok typing
  have tables : middle.types = table := spec.types
  have middleReliable : middle.types.Reliable := by
    rw [tables]
    exact grown.reliable reliable
  obtain ⟨later, hasSignature, known⟩ := signature_type_ok middleReliable signed
  rw [tables] at later
  refine ⟨isGraph, retyped_of_filled grown later handed spec, ?_, fun none => by cases none⟩
  have finalResults : ({ middle with types := types } : Module).resultsOf id =
      middle.resultTypes id filledNode := by
    simp only [resultsOf, there, Option.map_some, Option.getD_some]
    rfl
  have finalArguments : ({ middle with types := types } : Module).argumentsOf id =
      argumentTypes filledNode := by
    simp only [argumentsOf, there, Option.map_some, Option.getD_some]
  have middleResults : middle.resultsOf id = middle.resultTypes id filledNode := by simp [resultsOf, there]
  refine .typed ?_ ?_ ?_ ?_ ?_
  · exact Read.is_graph_of_same_shape spec.shape isGraph
  · rw [finalResults, ← middleResults]
    exact results_filled (m := { m with types := table }) spec some_
  · have noGaps := gaps_filled (m := { m with types := table }) spec
    exact noGaps
  · rw [finalResults, finalArguments]
    exact hasSignature
  · rw [finalResults, finalArguments]
    exact known

/-! ### All functions -/

-- What asking for the types of several graphs leaves behind.
structure Typed (m changed : Module) : Prop where
  shape : SameShape m changed
  grows : Grows m.types changed.types
  regular : changed.types.Regular
  pragmas : changed.pragmas = m.pragmas
  nodePragmas : ∀ query, changed.pragmasOf query = m.pragmasOf query
  input : ∀ inlet, changed.input? inlet = m.input? inlet
  output : ∀ outlet, changed.output? outlet = m.output? outlet ∨
    m.outputType? outlet = none ∧ 1 ≤ outlet.port ∧
      (∃ top, (m.outputType? ⟨outlet.node, top⟩).isSome ∧ outlet.port < top) ∧
      ∃ wild, wild ∈ changed.types.order ∧
        changed.output? outlet = some { (m.output? outlet).getD {} with type := some wild }

theorem Retyped.typed {id : NodeId} {m changed : Module} (retyped : Retyped id m changed)
    (regular : m.types.Regular) : Typed m changed := by
  have changedRegular := retyped.types.regular regular
  refine ⟨retyped.shape, retyped.types.grows, changedRegular, retyped.pragmas, retyped.nodePragmas,
    retyped.input, fun outlet => ?_⟩
  rcases retyped.output outlet with same | ⟨here, untyped, low, above, wild, handed, found⟩
  · exact .inl same
  · rw [← here] at above
    exact .inr ⟨untyped, low, above, wild, (live_of_lookup changedRegular handed).1, found⟩

theorem Typed.refl {m : Module} (regular : m.types.Regular) : Typed m m :=
  (retyped_refl m 0).typed regular

theorem Typed.trans {m middle changed : Module} (here : Typed m middle) (later : Typed middle changed) :
    Typed m changed := by
  refine ⟨here.shape.trans later.shape, here.grows.trans later.grows, later.regular,
    later.pragmas.trans here.pragmas, fun query => (later.nodePragmas query).trans (here.nodePragmas query),
    fun inlet => (later.input inlet).trans (here.input inlet), fun outlet => ?_⟩
  rcases later.output outlet with same | ⟨untyped, low, ⟨top, typed, below⟩, wild, live, found⟩
  · rcases here.output outlet with before | ⟨untyped, low, above, wild, live, found⟩
    · exact .inl (same.trans before)
    · exact .inr ⟨untyped, low, above, wild, later.grows.live live, same.trans found⟩
  · refine .inr ?_
    have same : middle.output? outlet = m.output? outlet := by
      rcases here.output outlet with same | ⟨_, _, _, other, _, there⟩
      · exact same
      · rw [outputType?, there] at untyped
        cases untyped
    have old : m.outputType? outlet = none := by
      rw [outputType?, ← same]
      exact untyped
    refine ⟨old, low, ?_, wild, live, by rw [← same]; exact found⟩
    rcases here.output ⟨outlet.node, top⟩ with sameTop | ⟨_, _, ⟨higher, there, less⟩, _⟩
    · refine ⟨top, ?_, below⟩
      rw [outputType?, ← sameTop]
      exact typed
    · exact ⟨higher, there, Nat.lt_trans below less⟩

section Typed
variable {m changed : Module}

theorem Typed.output_held (typed : Typed m changed) {outlet : Outlet} (held : (m.output? outlet).isSome) :
    (changed.output? outlet).isSome := by
  rcases typed.output outlet with same | ⟨_, _, _, _, _, found⟩
  · rw [same]
    exact held
  · rw [found]
    rfl

theorem Typed.type_kept (typed : Typed m changed) {outlet : Outlet} {type : TypeId}
    (known : m.outputType? outlet = some type) : changed.outputType? outlet = some type := by
  rcases typed.output outlet with same | ⟨untyped, _⟩
  · rw [outputType?, same]
    exact known
  · rw [known] at untyped
    cases untyped

-- An argument that gets a type is below one that has a type.
theorem Typed.output_below (typed : Typed m changed) {outlet : Outlet} (held : (changed.output? outlet).isSome) :
    ∃ top, (m.output? ⟨outlet.node, top⟩).isSome ∧ outlet.port ≤ top := by
  rcases typed.output outlet with same | ⟨_, _, ⟨top, known, below⟩, _⟩
  · rw [same] at held
    exact ⟨outlet.port, held, Nat.le_refl _⟩
  · exact ⟨top, held_of_type known, Nat.le_of_lt below⟩

end Typed

theorem wired_function_type {m changed : Module} {id : NodeId} {type : Option TypeId} (wired : m.Wired)
    (done : functionType id m = .ok type changed) : changed.Wired := by
  have quiet := quiet_function_type id m
  rw [Edit.after_of_ok done] at quiet
  exact wired.of_calm quiet.toCalm

-- Graphs that are settled stay settled, as asking for the type of one of them changes nothing.
theorem settled_function_types {m changed : Module} {ids : List NodeId} {types : List (Option TypeId)}
    (reliable : m.types.Reliable) (wired : m.Wired) (done : ids.mapM functionType m = .ok types changed) :
    SameShape m changed ∧ Grown m.types changed.types ∧ List.Forall₂ (Settled changed) ids types ∧
      (m.types.Regular → Typed m changed) ∧ ∀ {id type}, Settled m id type → Settled changed id type := by
  induction ids generalizing m types with
  | nil =>
      rw [List.mapM_nil] at done
      obtain ⟨rfl, rfl⟩ := Edit.pure_ok done
      exact ⟨.refl m, .refl m.types, .nil, .refl, fun settled => settled⟩
  | cons id rest ih =>
      rw [List.mapM_cons] at done
      obtain ⟨type, middle, here, done⟩ := Edit.bind_ok done
      obtain ⟨others, final, later, done⟩ := Edit.bind_ok done
      obtain ⟨rfl, rfl⟩ := Edit.pure_ok done
      obtain ⟨isGraph, retyped, settled, _⟩ := function_type_ok reliable here
      obtain ⟨shape, grown, restSettled, typed, kept⟩ :=
        ih (retyped.types.reliable reliable) (wired_function_type wired here) later
      refine ⟨retyped.shape.trans shape, retyped.types.trans grown, .cons (kept settled) restSettled,
        fun regular => (retyped.typed regular).trans (typed (retyped.types.regular regular)),
        fun {other known} before => ?_⟩
      by_cases same : other = id
      · subst same
        cases here.symm.trans (function_type_run reliable before)
        exact kept before
      · exact kept (retyped.settled_of_other wired isGraph same before)

theorem function_types_ok {m changed : Module} {ids : List NodeId} {types : List (Option TypeId)}
    (regular : m.types.Regular) (wired : m.Wired) (done : ids.mapM functionType m = .ok types changed) :
    Typed m changed ∧ List.Forall₂ (Settled changed) ids types ∧
      ∀ {id type}, Settled m id type → Settled changed id type := by
  obtain ⟨_, _, settled, typed, kept⟩ := settled_function_types regular.reliable wired done
  exact ⟨typed regular, settled, kept⟩

theorem function_types_run {m : Module} {ids : List NodeId} {types : List (Option TypeId)}
    (reliable : m.types.Reliable) (settled : List.Forall₂ (Settled m) ids types) :
    ids.mapM functionType m = .ok types m := by
  induction settled with
  | nil => rfl
  | cons here _ ih =>
      rw [List.mapM_cons]
      refine (Edit.bind_of_ok (function_type_run reliable here)).trans ?_
      exact (Edit.bind_of_ok ih).trans rfl

-- Writing asks for the types of the functions, and then only reads.
theorem to_text_inv {m changed : Module} {text : String} (done : toText m = .ok text changed) :
    ∃ types, m.functions.mapM functionType m = .ok types changed ∧ changed.textWith types = .ok text := by
  obtain ⟨_, _, got, done⟩ := Edit.bind_ok done
  cases got
  obtain ⟨types, middle, typing, done⟩ := Edit.bind_ok done
  obtain ⟨written, rfl⟩ := Edit.query_ok done
  exact ⟨types, typing, written⟩

-- What writing a module leaves behind, and what it writes.
theorem to_text_ok {m changed : Module} {text : String} (regular : m.types.Regular) (wired : m.Wired)
    (done : toText m = .ok text changed) :
    Typed m changed ∧ ∃ types, List.Forall₂ (Settled changed) changed.functions types ∧
      changed.textWith types = .ok text := by
  obtain ⟨types, typing, written⟩ := to_text_inv done
  obtain ⟨typed, settled, _⟩ := function_types_ok regular wired typing
  refine ⟨typed, types, ?_, written⟩
  rw [typed.shape.functions]
  exact settled

theorem wired_to_text {m changed : Module} {text : String} (wired : m.Wired) (done : toText m = .ok text changed) :
    changed.Wired := by
  have quiet := quiet_steps.to_text m
  rw [Edit.after_of_ok done] at quiet
  exact wired.of_calm quiet.toCalm

theorem settled_to_text {m changed : Module} {text : String} {id : NodeId} {type : Option TypeId}
    (regular : m.types.Regular) (wired : m.Wired) (done : toText m = .ok text changed)
    (settled : Settled m id type) : Settled changed id type := by
  obtain ⟨types, typing, _⟩ := to_text_inv done
  obtain ⟨_, _, kept⟩ := function_types_ok regular wired typing
  exact kept settled

theorem to_text_run {m : Module} {types : List (Option TypeId)} {text : String} (reliable : m.types.Reliable)
    (settled : List.Forall₂ (Settled m) m.functions types) (written : m.textWith types = .ok text) :
    toText m = .ok text m := by
  refine (Edit.bind_get m).trans ?_
  refine (Edit.bind_of_ok (function_types_run reliable settled)).trans ?_
  exact Edit.query_of_ok written

end Dataflow.Module
