import Mathlib.Logic.Equiv.Basic
import Dataflow.Proofs.Interpreter.Activations
import Dataflow.Proofs.Interpreter.Reread
import Dataflow.Proofs.Module.Bindings
import Dataflow.Proofs.Module.Reordered
set_option autoImplicit false

-- The turns of the nodes of a graph may come in any order in which each node comes after what it reads. What
-- the nodes take in and give out can be told from the final values alone, and those do not show the order.
namespace Dataflow.Interpreter
open Dataflow.Module Value

/-! ### Final values -/

def Frame.Keeps (frame later : Frame) : Prop :=
  ∀ ⦃id values⦄, frame.lookup id = some values → later.lookup id = some values

-- A node that has had its turn on values that are still there.
def Fired (self : Interpreter) (evaluate : Evaluator) (frame : Frame) (id : NodeId) : Prop :=
  ∃ node inputs outputs trace left, self.m.node id = .ok node ∧ self.inputValues frame id node = .ok inputs ∧
    self.evalNode evaluate id inputs trace = .ok outputs left ∧ frame.lookup id = some outputs

section Final
variable {self : Interpreter} {evaluate : Evaluator} {frame later : Frame}

theorem input_value_kept (kept : frame.Keeps later) {inlet : Inlet} {input : Input} {value : Value}
    (done : self.inputValue frame inlet input = .ok value) : self.inputValue later inlet input = .ok value := by
  unfold inputValue at done ⊢
  split at done
  · exact done
  · rename_i source _ _
    split at done
    · rename_i known
      cases done
      obtain ⟨values, found, place⟩ := Option.bind_eq_some_iff.mp known
      have still : later.value? source = some value := Option.bind_eq_some_iff.mpr ⟨values, kept found, place⟩
      rw [still]
    · cases done
  · cases done

theorem Fired.kept {id : NodeId} (kept : frame.Keeps later) (fired : Fired self evaluate frame id) :
    Fired self evaluate later id := by
  obtain ⟨node, inputs, outputs, trace, left, found, gathered, evaluated, held⟩ := fired
  refine ⟨node, inputs, outputs, trace, left, found, ?_, evaluated, kept held⟩
  exact Outcome.map_m_of_forall ((Outcome.map_m_ok gathered).imp fun _ _ => input_value_kept kept)

theorem keeps_next {id : NodeId} (fresh : frame.lookup id = none) (outputs : List Value) :
    frame.Keeps ((id, outputs) :: frame) := by
  intro other values held
  rw [lookup_other (fun same => by rw [same, fresh] at held; cases held)]
  exact held

theorem step_fired {next : Frame} {id : NodeId} {trace left : Trace} (fresh : frame.lookup id = none)
    (done : self.step evaluate frame id trace = .ok next left) :
    (∃ outputs, next = (id, outputs) :: frame) ∧ Fired self evaluate next id := by
  obtain ⟨node, inputs, outputs, found, gathered, evaluated, rfl⟩ := step_inv done
  refine ⟨⟨outputs, rfl⟩, node, inputs, outputs, _, _, found, ?_, evaluated, List.lookup_cons_self⟩
  exact Outcome.map_m_of_forall ((Outcome.map_m_ok gathered).imp fun _ _ => input_value_kept (keeps_next fresh outputs))

-- The induction is on the nodes: each has its turn once, so what it leaves stays.
theorem fold_fired {nodes : List NodeId} {final : Frame} {trace left : Trace} (once : nodes.Nodup)
    (fresh : ∀ id ∈ nodes, frame.lookup id = none)
    (done : nodes.foldlM (self.step evaluate) frame trace = .ok final left) :
    frame.Keeps final ∧ (∀ id ∈ nodes, Fired self evaluate final id) ∧
      ∀ id, (final.lookup id).isSome → (frame.lookup id).isSome ∨ id ∈ nodes := by
  induction nodes generalizing frame trace with
  | nil =>
      cases done
      exact ⟨fun _ _ => id, fun id member => (List.not_mem_nil member).elim, fun _ => .inl⟩
  | cons id rest ih =>
      obtain ⟨absent, once⟩ := List.nodup_cons.mp once
      rw [List.foldlM_cons] at done
      obtain ⟨next, _, here, done⟩ := bind_run_inv done
      have freshHere := fresh id List.mem_cons_self
      obtain ⟨⟨outputs, rfl⟩, fired⟩ := step_fired freshHere here
      have apart : ∀ other ∈ rest, other ≠ id := fun other member same => absent (same ▸ member)
      obtain ⟨kept, turns, only⟩ := ih once (fun other member => by
        rw [lookup_other (apart other member)]
        exact fresh other (List.mem_cons_of_mem _ member)) done
      refine ⟨fun other values held => kept (keeps_next freshHere outputs held), ?_, fun other held => ?_⟩
      · exact List.forall_mem_cons.mpr ⟨fired.kept kept, turns⟩
      · rcases only other held with before | member
        · by_cases same : other = id
          · exact .inr (same ▸ List.mem_cons_self)
          · rw [lookup_other same] at before
            exact .inl before
        · exact .inr (List.mem_cons_of_mem _ member)

-- The final values of a graph, as they are whatever the order of its nodes was.
structure Filled (here : Interpreter) (evaluate : Evaluator) (graph : NodeId) (args : List Value)
    (nodes : List NodeId) (frame : Frame) : Prop where
  own : frame.lookup graph = some args
  fired : ∀ id ∈ nodes, Fired here evaluate frame id
  only : ∀ id, (frame.lookup id).isSome → id = graph ∨ id ∈ nodes

theorem Filled.of_perm {graph : NodeId} {args : List Value} {nodes others : List NodeId}
    (filled : Filled self evaluate graph args nodes frame) (same : others.Perm nodes) :
    Filled self evaluate graph args others frame :=
  ⟨filled.own, fun id member => filled.fired id (same.mem_iff.mp member),
    fun id held => (filled.only id held).imp_right same.mem_iff.mpr⟩

theorem filled_of_fold {graph : NodeId} {args : List Value} {nodes : List NodeId} {final : Frame}
    {trace left : Trace} (once : nodes.Nodup) (outside : graph ∉ nodes)
    (done : nodes.foldlM (self.step evaluate) [(graph, args)] trace = .ok final left) :
    Filled self evaluate graph args nodes final := by
  have start : ∀ id, id ≠ graph → List.lookup id [(graph, args)] = none := fun id apart => by
    rw [lookup_other apart]
    rfl
  obtain ⟨kept, fired, only⟩ := fold_fired once (fun id member => start id fun own => by
    rw [own] at member
    exact outside member) done
  refine ⟨kept List.lookup_cons_self, fired, fun id held => (only id held).imp_left fun first => ?_⟩
  refine Decidable.byContradiction fun apart => ?_
  rw [start id apart] at first
  cases first

end Final

/-! ### Turns in another order -/

structure Reschedules (here there : Interpreter) (number : NodeId ≃ NodeId) : Prop where
  reordered : here.m.Reordered there.m number
  lists : here.m.Lists
  front : there.m.FrontToBack
  limits : there.limits = here.limits
  standard : here.operations = .standard
  standardToo : there.operations = .standard

def Agree (number : NodeId → NodeId) (frame twin : Frame) (id : NodeId) : Prop :=
  twin.lookup (number id) = (frame.lookup id).map (List.map (Value.renumber number))

section Lookups
variable {m other : Module} {number : NodeId ≃ NodeId}

theorem role_reordered (reordered : m.Reordered other number) (id : NodeId) :
    other.role? (number id) = (m.role? id).map (·.renumber number) := by
  cases here : m.nodes[id]? with
  | none =>
      have beyond := Nat.le_of_not_lt fun below => by
        obtain ⟨node, found⟩ := exists_node_iff.mpr ((reordered.inside id).mp below)
        rw [here] at found
        cases found
      rw [role_eq_none_of_size beyond]
      simp [role?, here]
  | some node =>
      obtain ⟨twin, there, same⟩ := reordered.node here
      rw [role_eq_some_of_node here, role_eq_some_of_node there, same.role]
      rfl

theorem function_reordered (reordered : m.Reordered other number) {name : String} {id : NodeId}
    (found : m.function? name = some id) : other.function? name = some (number id) :=
  function_mirrored reordered.functions (fun id _ => role_reordered reordered id) found

theorem literal_reordered (reordered : m.Reordered other number) {inlet twin : Inlet} {literal : Literal}
    {value : Value} (done : literalValue m inlet literal = .ok value) :
    literalValue other twin ⟨literal.text, literal.type.map id⟩ = .ok (value.renumber number) := by
  refine literal_mirrored (fun type definition found => ?_) (function_reordered reordered) done
  rw [reordered.types]
  exact ⟨definition, found, (Signature.map_id _).symm⟩

end Lookups

section Inputs
variable {self other : Interpreter} {number : NodeId ≃ NodeId} {frame later : Frame}

theorem input_value_agree (reordered : self.m.Reordered other.m number) {inlet twinInlet : Inlet} {input twin : Input}
    {value : Value} (same : input.Twin number twin)
    (agree : ∀ source ∈ input.source?, Agree number frame later source.node)
    (done : self.inputValue frame inlet input = .ok value) :
    other.inputValue later twinInlet twin = .ok (value.renumber number) := by
  unfold Input.Twin at same
  unfold Input.source? at agree
  unfold inputValue at done ⊢
  split at done
  · rename_i literal bound
    rw [bound] at same
    obtain ⟨binding, there, supply⟩ := Option.map_eq_some_iff.mp same
    cases binding with
    | wire source stamp => cases supply
    | literal twin =>
        rw [there, Supply.literal.inj supply]
        exact literal_reordered reordered done
  · rename_i source stamp bound
    rw [bound] at same agree
    obtain ⟨binding, there, supply⟩ := Option.map_eq_some_iff.mp same
    cases binding with
    | literal literal => cases supply
    | wire sourceToo stampToo =>
        rw [there, Supply.wire.inj supply]
        dsimp only
        rw [value_alike (agree source rfl)]
        split at done
        · rename_i known
          cases done
          rw [known]
          rfl
        · cases done
  · cases done

theorem gather_agree (reordered : self.m.Reordered other.m number) {id twin : NodeId}
    {entries twins : List (Nat × Input)} {values : List Value} (same : List.Forall₂ (Input.TwinAt number) entries twins)
    (agree : ∀ entry ∈ entries, ∀ source ∈ entry.2.source?, Agree number frame later source.node)
    (done : (entries.mapM fun (port, input) => self.inputValue frame ⟨id, port⟩ input) = .ok values) :
    (twins.mapM fun (port, input) => other.inputValue later ⟨twin, port⟩ input) =
      .ok (values.map (Value.renumber number)) := by
  have each := (List.forall₂_and_left entries twins).mpr ⟨agree, same⟩
  refine Outcome.map_m_related (each.imp fun entry other alike value here => ?_) done
  exact input_value_agree reordered alike.2.2 alike.1 here

end Inputs

section Turns
variable {self other : Interpreter} {number : NodeId ≃ NodeId} {evaluate follow : Evaluator} {frame later : Frame}

theorem result_inputs_alike {graph twin : Node} (same : graph.Rearranged number twin) :
    List.Forall₂ (Input.TwinAt number) (resultInputs graph) (resultInputs twin) := by
  refine List.rel_filter (fun entry other alike => ?_) same.inputs
  have bound : (other.2.binding.map Binding.supply).isSome = _ := congrArg Option.isSome alike.2
  rw [Option.isSome_map, Option.isSome_map] at bound
  change entry.2.binding.isSome = true ↔ other.2.binding.isSome = true
  rw [bound]

theorem ports_alike {entries twins : List (Nat × Input)} (same : List.Forall₂ (Input.TwinAt number) entries twins) :
    twins.map (·.1) = entries.map (·.1) := by
  induction same with
  | nil => rfl
  | cons first _ ih => rw [List.map_cons, List.map_cons, first.1, ih]

theorem Reschedules.conforms (reschedules : Reschedules self other number) : Conforms self other number := by
  refine ⟨number.injective, reschedules.limits, reschedules.standard, reschedules.standardToo, fun found => ?_⟩
  obtain ⟨twin, there, same⟩ := reschedules.reordered.node found
  refine ⟨twin, there, ?_⟩
  exact ports_alike (result_inputs_alike same)

-- What is read has its values.
theorem source_held {id : NodeId} {entries : List (Nat × Input)} {values : List Value}
    (done : (entries.mapM fun (port, input) => self.inputValue frame ⟨id, port⟩ input) = .ok values)
    {entry : Nat × Input} (member : entry ∈ entries) {source : Outlet} (isSource : source ∈ entry.2.source?) :
    (frame.lookup source.node).isSome := by
  obtain ⟨value, evaluated⟩ := Outcome.map_m_each done member
  obtain ⟨port, input⟩ := entry
  unfold Input.source? at isSource
  unfold inputValue at evaluated
  dsimp only at isSource evaluated
  split at isSource
  · rename_i bound
    cases isSource
    rw [bound] at evaluated
    dsimp only at evaluated
    split at evaluated
    · rename_i known
      obtain ⟨values, held, _⟩ := Option.bind_eq_some_iff.mp known
      exact Option.isSome_iff_exists.mpr ⟨values, held⟩
    · cases evaluated
  · cases isSource

theorem turn_agrees (reschedules : Reschedules self other number) (follows : Follows number evaluate follow)
    {id : NodeId} (fired : Fired self evaluate frame id)
    (agree : ∀ node ∈ self.m.nodes[id]?, ∀ source ∈ node.sources, (frame.lookup source.node).isSome →
      Agree number frame later source.node) (there : Trace) :
    ∃ outputs final, other.step follow later (number id) there = .ok ((number id, outputs) :: later) final ∧
      (frame.lookup id).map (List.map (Value.renumber number)) = some outputs := by
  obtain ⟨node, inputs, outputs, trace, left, found, gathered, evaluated, held⟩ := fired
  have here := node_ok_iff.mp found
  obtain ⟨twin, hereToo, same⟩ := reschedules.reordered.node here
  have gatheredToo : other.inputValues later (number id) twin = .ok (inputs.map (Value.renumber number)) :=
    gather_agree reschedules.reordered same.inputs (fun entry member source isSource => by
      have read : source ∈ node.sources := List.mem_filterMap.mpr ⟨entry, member, isSource⟩
      exact agree node here source read (source_held gathered member isSource)) gathered
  have nodes := mimics_eval_node reschedules.conforms follows here hereToo same.opcode same.children
    (Nat.le_of_eq same.max_output) inputs
  obtain ⟨_, final, evaluatedToo, rfl⟩ := nodes evaluated there
  refine ⟨_, final, ?_, by rw [held]; rfl⟩
  unfold step
  rw [bind_find_ok (node_ok_iff.mpr hereToo), bind_checked_ok gatheredToo, bind_run_ok evaluatedToo]
  rfl

-- The induction is on the turns that are left; those before have left what they left in the first order.
theorem turns_agree (reschedules : Reschedules self other number) (follows : Follows number evaluate follow)
    {graph : NodeId} {args : List Value} {before after : List NodeId}
    (listed : other.m.nodesOf (number graph) = (before ++ after).map number)
    (filled : Filled self evaluate graph args (before ++ after) frame)
    (agree : ∀ id, id = graph ∨ id ∈ before → Agree number frame later id) (there : Trace) :
    ∃ final left, (after.map number).foldlM (other.step follow) later there = .ok final left ∧
      ∀ id, (frame.lookup id).isSome → Agree number frame final id := by
  have lists := reschedules.reordered.lists reschedules.lists
  induction after generalizing before later there with
  | nil =>
      refine ⟨later, there, rfl, fun id held => agree id ?_⟩
      rw [← List.append_nil before]
      exact filled.only id held
  | cons id rest ih =>
      obtain ⟨outputs, middle, step, same⟩ := turn_agrees reschedules follows
        (filled.fired id (List.mem_append_right _ List.mem_cons_self)) (fun node found source read held => by
          rcases filled.only source.node held with own | within
          · exact agree source.node (.inl own)
          · exact agree source.node (.inr (reschedules.reordered.produced_before reschedules.front lists listed
              found read within))) there
      obtain ⟨once, outside⟩ := lists (number graph)
      rw [listed] at once outside
      have apart : ∀ other, other = graph ∨ other ∈ before → number other ≠ number id := by
        rintro other (rfl | member) clash
        · rw [clash] at outside
          exact outside (List.mem_map_of_mem (List.mem_append_right _ List.mem_cons_self))
        · have distinct := (List.nodup_append.mp (once.of_map number)).2.2
          exact distinct other member id List.mem_cons_self (number.injective clash)
      have agreeNext : ∀ other, other = graph ∨ other ∈ before ++ [id] →
          Agree number frame ((number id, outputs) :: later) other := by
        intro other place
        by_cases own : other = id
        · rw [own, Agree, same]
          exact List.lookup_cons_self
        · have earlier : other = graph ∨ other ∈ before := by simpa [own] using place
          rw [Agree, lookup_other (apart other earlier)]
          exact agree other earlier
      rw [show before ++ id :: rest = (before ++ [id]) ++ rest by simp] at listed filled
      obtain ⟨final, left, steps, agreeFinal⟩ := ih listed filled agreeNext middle
      refine ⟨final, left, ?_, agreeFinal⟩
      rw [List.map_cons, List.foldlM_cons, bind_run_ok step]
      exact steps

theorem fold_agrees (reschedules : Reschedules self other number) (follows : Follows number evaluate follow)
    {graph : NodeId} {args : List Value} {order : List NodeId}
    (listed : other.m.nodesOf (number graph) = order.map number)
    (filled : Filled self evaluate graph args order frame) (there : Trace) :
    ∃ final left, (order.map number).foldlM (other.step follow) [(number graph, args.map (Value.renumber number))]
      there = .ok final left ∧ ∀ id, (frame.lookup id).isSome → Agree number frame final id := by
  have listed : other.m.nodesOf (number graph) = ([] ++ order).map number := listed
  have filled : Filled self evaluate graph args ([] ++ order) frame := filled
  refine turns_agree reschedules follows listed filled ?_ there
  rintro id (rfl | none)
  · rw [Agree, filled.own]
    exact List.lookup_cons_self
  · cases none

theorem follows_run_graph (reschedules : Reschedules self other number) (follows : Follows number evaluate follow) :
    Follows number (self.runGraph evaluate) (other.runGraph follow) := by
  intro id args trace after values done there
  obtain ⟨graph, _, looked, done⟩ := bind_run_inv done
  obtain ⟨found, rfl⟩ := find_inv looked
  obtain ⟨_, _, checked, done⟩ := bind_run_inv done
  obtain ⟨fitting, rfl⟩ := checked_inv checked
  obtain ⟨frame, _, walked, done⟩ := bind_run_inv done
  obtain ⟨ended, rfl⟩ := checked_inv done
  obtain ⟨here, isGraph⟩ := graph_ok_iff.mp found
  obtain ⟨once, outside⟩ := reschedules.lists id
  rw [show self.m.nodesOf id = graph.nodes by simp [nodesOf, here]] at once outside
  have filled := filled_of_fold once outside walked
  -- The same graph in the other module.
  obtain ⟨twin, hereToo, same⟩ := reschedules.reordered.node here
  have foundToo : other.m.graph (number id) = .ok twin :=
    graph_ok_iff.mpr ⟨hereToo, (kinds_of_role same.role).1.trans isGraph⟩
  have fittingToo : checkArguments (number id) twin (args.map (Value.renumber number)) = .ok () :=
    check_arguments_mirrored (Nat.le_of_eq same.max_output) (kinds_of_role same.role).2 (fun _ => same.max_output) fitting
  obtain ⟨order, listed, among⟩ := same.order
  have nodes : other.m.nodesOf (number id) = order.map number := by simp [nodesOf, hereToo, listed]
  obtain ⟨final, left, steps, agree⟩ := fold_agrees reschedules follows nodes (filled.of_perm among) there
  have results : other.results final (number id) twin = .ok (values.map (Value.renumber number)) :=
    gather_agree reschedules.reordered (result_inputs_alike same) (fun entry member source isSource =>
      agree source.node (source_held ended member isSource)) ended
  refine ⟨_, left, ?_, rfl⟩
  unfold runGraph
  rw [bind_find_ok foundToo, bind_checked_ok fittingToo, listed, bind_run_ok steps, results]
  rfl

theorem follows_eval_graph_reordered (reschedules : Reschedules self other number) (depth : Nat) :
    Follows number (self.evalGraph depth) (other.evalGraph depth) := by
  induction depth with
  | zero => exact fun id args => mimics_throw _ _
  | succ depth ih => exact follows_run_graph reschedules ih

theorem mimics_graph_reordered (reschedules : Reschedules self other number) (id : NodeId) (args : List Value) :
    Mimics (Alike number) (self.run (.graph id args))
      (other.run (.graph (number id) (args.map (Value.renumber number)))) := by
  unfold run respond evaluator
  dsimp only
  rw [reschedules.limits]
  exact follows_eval_graph_reordered reschedules _ id args

theorem mimics_function_reordered (reschedules : Reschedules self other number) (name : String) (args : List Value) :
    Mimics (Alike number) (self.run (.function name args))
      (other.run (.function name (args.map (Value.renumber number)))) := by
  cases found : self.m.function? name with
  | none =>
      unfold run respond
      dsimp only
      rw [found]
      exact mimics_throw _ _
  | some id =>
      have here : self.run (.function name args) = self.run (.graph id args) := by
        unfold run respond
        dsimp only
        rw [found]
      have there : other.run (.function name (args.map (Value.renumber number))) =
          other.run (.graph (number id) (args.map (Value.renumber number))) := by
        unfold run respond
        dsimp only
        rw [function_reordered reschedules.reordered found]
      rw [here, there]
      exact mimics_graph_reordered reschedules id args

end Turns

/-! ### Both ways -/

theorem mimics_iff {first second : Run (List Value)} {number : NodeId ≃ NodeId} {values : List Value}
    (there : Mimics (Alike number) first second) (back : Mimics (Alike number.symm) second first) (trace other : Trace) :
    (∃ after, first trace = .ok values after) ↔
      ∃ after, second other = .ok (values.map (Value.renumber number)) after := by
  constructor
  · rintro ⟨after, done⟩
    obtain ⟨_, final, doneToo, rfl⟩ := there done other
    exact ⟨final, doneToo⟩
  · rintro ⟨after, done⟩
    obtain ⟨_, final, doneToo, rfl⟩ := back done trace
    rw [renumber_list_undone number.symm_apply_apply] at doneToo
    exact ⟨final, doneToo⟩

theorem results_ignore_order {origin : Origin} {start : Module} (started : origin.start = .ok start)
    (requests : List Request) {other : Module} {number : NodeId ≃ NodeId}
    (reordered : (Module.run start requests).Reordered other number)
    (front : (Module.run start requests).FrontToBack) (frontToo : other.FrontToBack) (limits : Limits)
    (traced tracedToo : Bool) (trace traceToo : Trace) :
    let here : Interpreter := { m := Module.run start requests, limits, traced }
    let there : Interpreter := { m := other, limits, traced := tracedToo }
    let renamed : List Value → List Value := List.map (Value.renumber number)
    (∀ id args values, (∃ after, here.run (.graph id args) trace = .ok values after) ↔
        ∃ after, there.run (.graph (number id) (renamed args)) traceToo = .ok (renamed values) after) ∧
      ∀ name args values, (∃ after, here.run (.function name args) trace = .ok values after) ↔
        ∃ after, there.run (.function name (renamed args)) traceToo = .ok (renamed values) after := by
  intro here there renamed
  obtain ⟨_, sound, _⟩ := sound_origin started
  obtain ⟨_, soundNow, _⟩ := sound_run requests sound
  have lists := lists_of_owned soundNow.owned
  have forth : Reschedules here there number := ⟨reordered, lists, frontToo, rfl, rfl, rfl⟩
  have back : Reschedules there here number.symm := ⟨reordered.symm, reordered.lists lists, front, rfl, rfl, rfl⟩
  refine ⟨fun id args values => ?_, fun name args values => ?_⟩
  · have return_ := mimics_graph_reordered back (number id) (renamed args)
    rw [number.symm_apply_apply, renumber_list_undone number.symm_apply_apply] at return_
    exact mimics_iff (mimics_graph_reordered forth id args) return_ trace traceToo
  · have return_ := mimics_function_reordered back name (renamed args)
    rw [renumber_list_undone number.symm_apply_apply] at return_
    exact mimics_iff (mimics_function_reordered forth name args) return_ trace traceToo

def integer? : Ending (List Value) → Option Int64
  | .ok [.int number] _ => some number
  | _ => none

theorem integer_eq_some {ending : Ending (List Value)} {number : Int64} (single : integer? ending = some number) :
    ∃ after, ending = .ok [.int number] after := by
  unfold integer? at single
  split at single
  · cases single
    exact ⟨_, rfl⟩
  · cases single

-- A sum and a product, which one module has in the one order and another one in the other.
theorem sum_and_product_in_either_order :
    let wires : NodeId → NodeId → List Request := fun sum product => [.wire ⟨sum, 1⟩ ⟨0, 1⟩, .wire ⟨sum, 2⟩ ⟨0, 2⟩,
      .wire ⟨product, 1⟩ ⟨0, 1⟩, .wire ⟨product, 2⟩ ⟨0, 2⟩, .wire ⟨3, 1⟩ ⟨product, 1⟩, .wire ⟨3, 2⟩ ⟨sum, 1⟩,
      .wire ⟨0, 1⟩ ⟨3, 1⟩]
    let first := Module.run Module.initial
      ([.addFunction "f", .addNode 0 .plus, .addNode 0 .times, .addNode 0 .minus] ++ wires 1 2)
    let second := Module.run Module.initial
      ([.addFunction "f", .addNode 0 .times, .addNode 0 .plus, .addNode 0 .minus] ++ wires 2 1)
    first.Reordered second (Equiv.swap 1 2) ∧ first.FrontToBack ∧ second.FrontToBack ∧
      ∃ after, ({ m := second } : Interpreter).run (.function "f" [.int 3, .int 4]) #[] = .ok [.int 5] after := by
  intro wires first second
  have sizes : first.nodes.size = 4 ∧ second.nodes.size = 4 := by decide +kernel
  have each : ∀ id < 4, ∃ node ∈ first.nodes[id]?, ∃ twin ∈ second.nodes[Equiv.swap 1 2 id]?,
      node.Rearranged (Equiv.swap 1 2) twin := by decide +kernel
  have front : first.FrontToBack ∧ second.FrontToBack := by decide +kernel
  have functions : second.types = first.types ∧ second.functions = first.functions.map (Equiv.swap 1 2) := by
    decide +kernel
  have answered : integer? (({ m := first } : Interpreter).run (.function "f" [.int 3, .int 4]) #[]) = some 5 := by
    decide +kernel
  have inside : ∀ id, Equiv.swap 1 2 id < 4 ↔ id < 4 := by
    intro id
    rcases eq_or_ne id 1 with rfl | notOne
    · decide
    · rcases eq_or_ne id 2 with rfl | notTwo
      · decide
      · rw [Equiv.swap_apply_of_ne_of_ne notOne notTwo]
  have reordered : first.Reordered second (Equiv.swap 1 2) := by
    refine ⟨by rw [sizes.1, sizes.2]; exact inside, fun {id node} found => ?_, functions.1, functions.2⟩
    have below : id < 4 := sizes.1 ▸ exists_node_iff.mp ⟨node, found⟩
    obtain ⟨_, here, twin, there, same⟩ := each id below
    rw [found] at here
    cases here
    exact ⟨twin, there, same⟩
  refine ⟨reordered, front.1, front.2, ?_⟩
  have started : Origin.initial.start = .ok Module.initial := rfl
  obtain ⟨_, calls⟩ := results_ignore_order started _ reordered front.1 front.2 {} false false #[] #[]
  exact (calls "f" [.int 3, .int 4] [.int 5]).mp (integer_eq_some answered)

end Dataflow.Interpreter
