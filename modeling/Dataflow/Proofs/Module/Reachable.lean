import Dataflow.Proofs.Module.Quiet
set_option autoImplicit false

-- What every request keeps: the ownership forest, wires inside scopes, and the bindings as the
-- outcome of the history of touches.
namespace Dataflow.Module
open Touches

structure Sound (m : Module) (history : Touches Binding) : Prop where
  owned : m.Owned
  wired : m.Wired
  records : m.Records history

namespace Sound

variable {m changed : Module} {history : Touches Binding}

theorem of_quiet (quiet : Quiet m changed) (sound : m.Sound history) : changed.Sound history :=
  ⟨sound.owned.of_same_shape quiet.shape, sound.wired.of_calm quiet.toCalm, sound.records.of_calm quiet.toCalm⟩

theorem of_extends (extends_ : Extends m changed) (owned : changed.Owned) (sound : m.Sound history) :
    changed.Sound history :=
  ⟨owned, extends_.wired sound.wired, extends_.records sound.records⟩

theorem unmoved (sound : m.Sound history) : m.Sound (history ++ []) := by
  rw [List.append_nil]
  exact sound

end Sound

theorem is_graph_of_graph {m : Module} {id : NodeId} {node : Node} (found : m.graph id = .ok node) :
    m.IsGraph id := by
  obtain ⟨here, isGraph⟩ := graph_ok_iff.mp found
  refine ⟨node.role, role_eq_some_of_node here, fun graph role => ?_⟩
  simp [Node.isGraph, role] at isGraph

theorem plain_of_node {m : Module} {id : NodeId} {node : Node} (found : m.nodes[id]? = some node)
    (plain : node.isGraph = false) : ∃ graph, m.role? id = some (.node graph) := by
  rw [role_eq_some_of_node found]
  cases role : node.role with
  | node graph => exact ⟨graph, rfl⟩
  | function name => simp [Node.isGraph, role] at plain
  | subgraph compound => simp [Node.isGraph, role] at plain

/-! ### Literals -/

theorem bind_literal_eq (inlet : Inlet) (literal : Literal) :
    bindLiteral inlet literal = (do
      onTypes (TypeTable.requireLive literal.type)
      let _ ← Edit.query (·.node inlet.node)
      modify (bind inlet (.literal literal)) : Change Unit) :=
  rfl

theorem bind_literal_ok {inlet : Inlet} {literal : Literal} {m changed : Module}
    (done : bindLiteral inlet literal m = .ok () changed) :
    TypeTable.requireLive literal.type m.types = .ok () m.types ∧ inlet.node < m.nodes.size ∧
      changed = bind inlet (.literal literal) m := by
  rw [bind_literal_eq] at done
  obtain ⟨_, _, checked, done⟩ := Edit.bind_ok done
  obtain ⟨types, live, rfl⟩ := Edit.within_ok checked
  obtain ⟨_, rfl⟩ := TypeTable.require_ok live
  obtain ⟨node, _, query, done⟩ := Edit.bind_ok done
  obtain ⟨here, rfl⟩ := Edit.query_ok query
  exact ⟨live, exists_node_iff.mp ⟨node, node_ok_iff.mp here⟩, Edit.modify_ok done⟩

theorem bind_literal_refused {inlet : Inlet} {literal : Literal} {m changed : Module} {error : Error}
    (refused : bindLiteral inlet literal m = .error error changed) : changed = m := by
  rw [bind_literal_eq] at refused
  rcases Edit.bind_error refused with here | ⟨_, _, checked, refused⟩
  · obtain ⟨types, missing, rfl⟩ := Edit.within_error here
    rw [(TypeTable.require_error missing).1]
  · obtain ⟨types, live, rfl⟩ := Edit.within_ok checked
    obtain ⟨_, rfl⟩ := TypeTable.require_ok live
    rcases Edit.bind_error refused with here | ⟨_, _, _, later⟩
    · exact (Edit.query_error here).symm
    · cases later

theorem set_literal_eq (inlet : Inlet) (value : HostValue) :
    setLiteral inlet value = (do
      Edit.ofExcept (checkPort inlet.port)
      let _ ← Edit.query (·.node inlet.node)
      let literal ← literalOf value
      bindLiteral inlet literal : Change Unit) := by
  unfold setLiteral literalOf
  simp only [bind_assoc]
  congr 1
  funext _
  congr 1
  funext _
  congr 1
  funext literal
  cases literal <;> simp only [bind_assoc, pure_bind]

theorem set_literal_ok {inlet : Inlet} {value : HostValue} {m changed : Module}
    (done : setLiteral inlet value m = .ok () changed) :
    ∃ literal typed, literalOf value m = .ok literal typed ∧ 1 ≤ inlet.port ∧
      inlet.node < typed.nodes.size ∧
      TypeTable.requireLive literal.type typed.types = .ok () typed.types ∧
      changed = bind inlet (.literal literal) typed := by
  rw [set_literal_eq] at done
  obtain ⟨_, _, checked, done⟩ := Edit.bind_ok done
  obtain ⟨numbered, rfl⟩ := Edit.of_except_ok checked
  obtain ⟨_, _, query, done⟩ := Edit.bind_ok done
  obtain ⟨_, rfl⟩ := Edit.query_ok query
  obtain ⟨literal, typed, made, done⟩ := Edit.bind_ok done
  obtain ⟨live, inside, rfl⟩ := bind_literal_ok done
  exact ⟨literal, typed, made, numbered_of_check numbered, inside, live, rfl⟩

theorem set_literal_refused {inlet : Inlet} {value : HostValue} {m changed : Module} {error : Error}
    (refused : setLiteral inlet value m = .error error changed) : Quiet m changed := by
  rw [set_literal_eq] at refused
  rcases Edit.bind_error refused with here | ⟨_, _, checked, refused⟩
  · rw [← Edit.of_except_error here]
    exact .refl m
  obtain ⟨_, rfl⟩ := Edit.of_except_ok checked
  rcases Edit.bind_error refused with here | ⟨_, _, query, refused⟩
  · rw [← Edit.query_error here]
    exact .refl m
  obtain ⟨_, rfl⟩ := Edit.query_ok query
  rcases Edit.bind_error refused with here | ⟨literal, typed, made, refused⟩
  · rw [← Edit.after_of_error here]
    exact quiet_steps.literal_of value m
  · have quiet : Quiet m typed := by
      rw [← Edit.after_of_ok made]
      exact quiet_steps.literal_of value m
    rw [bind_literal_refused refused]
    exact quiet

/-! ### One request -/

theorem after_ignoring {α : Type} (change : Change α) (m : Module) :
    (ignoring change).after m = change.after m := by
  cases step : change m with
  | ok value changed =>
      have done : ignoring change m = .ok () changed := (Edit.bind_of_ok step).trans rfl
      rw [Edit.after_of_ok step, Edit.after_of_ok done]
  | error error changed =>
      have refused : ignoring change m = .error error changed := Edit.bind_of_error step
      rw [Edit.after_of_error step, Edit.after_of_error refused]

theorem push_child_ok {node graph : NodeId} {m changed : Module}
    (done : pushChild node graph m = .ok () changed) :
    m.role? graph = some (.subgraph node) ∧ changed = appendChild node graph m := by
  obtain ⟨child, _, query, done⟩ := Edit.bind_ok done
  obtain ⟨found, rfl⟩ := Edit.query_ok query
  by_cases role : child.role = .subgraph node
  · rw [if_pos role] at done
    rw [role_eq_some_of_node (node_ok_iff.mp found), role]
    exact ⟨rfl, Edit.modify_ok done⟩
  · rw [if_neg role] at done
    cases done

theorem intact_push_child (node graph : NodeId) : Edit.Intact (pushChild node graph) := by
  refine Edit.intact_found fun child => ?_
  split
  · exact Edit.intact_modify _
  · exact Edit.intact_throw _

def Request.IsQuiet : Request → Prop
  | .addFunction _ | .addFunctionWith _ _ | .addNode _ _ | .addGraph _ | .pushChild _ _
  | .wire _ _ | .setLiteral _ _ => False
  | _ => True

theorem quiet_request {request : Request} (quiet : request.IsQuiet) : QuietEdit request.perform := by
  cases request with
  | addType => exact quiet_ignoring (quiet_on_types _)
  | addBasic => exact quiet_ignoring (quiet_on_types _)
  | addChain => exact quiet_ignoring (quiet_on_types _)
  | deleteType => exact quiet_on_types _
  | setTypeName => exact quiet_on_types _
  | setTypePragma => exact quiet_on_types _
  | removeTypePragma => exact quiet_ignoring (quiet_on_types _)
  | setPragma => exact Edit.moves_modify fun m => Quiet.of_pragmas m _
  | removePragma => exact Edit.moves_modify fun m => Quiet.of_pragmas m _
  | functionType graph => exact quiet_ignoring (quiet_function_type graph)
  | setOutput outlet type => exact quiet_set_output outlet type
  | addInput inlet => exact quiet_add_input inlet
  | nodePragmas id change => exact quiet_node_pragmas id change
  | inputPragmas inlet change => exact quiet_input_pragmas inlet change
  | outputPragmas outlet change => exact quiet_output_pragmas outlet change
  | toText => exact quiet_ignoring quiet_steps.to_text
  | nodeText id => exact quiet_ignoring (quiet_steps.node_text id)
  | addFunction | addFunctionWith | addNode | addGraph | pushChild | wire | setLiteral =>
      exact absurd quiet id

theorem sound_add_function {m : Module} {history : Touches Binding} (op : Opcode) (name : String)
    (sound : m.Sound history) : (withFunction op name m).Sound history :=
  sound.of_extends (.of_function op name) (owned_with_function op name sound.owned)

theorem after_add_node (m : Module) (graph : NodeId) (op : Opcode) :
    (∃ owner, m.graph graph = .ok owner ∧ (addNode graph op).after m = withNode graph op m) ∨
      (addNode graph op).after m = m := by
  cases found : m.graph graph with
  | ok owner => exact .inl ⟨owner, rfl, Edit.after_of_ok (add_node_run found)⟩
  | error error => exact .inr (Edit.after_of_error (add_node_refused found))

theorem after_add_graph (m : Module) (node : NodeId) :
    (∃ graph, m.role? node = some (.node graph) ∧ (addGraph node).after m = withGraph node m) ∨
      (addGraph node).after m = m := by
  cases found : m.nodes[node]? with
  | none =>
      obtain ⟨error, refused⟩ := add_graph_refused node m (by simp [found])
      exact .inr (Edit.after_of_error refused)
  | some owner =>
      cases plain : owner.isGraph with
      | false =>
          obtain ⟨graph, role⟩ := plain_of_node found plain
          exact .inl ⟨graph, role, Edit.after_of_ok (add_graph_run found plain)⟩
      | true =>
          obtain ⟨error, refused⟩ := add_graph_refused node m (by simp [found, plain])
          exact .inr (Edit.after_of_error refused)

-- What is left of a module after a request, as far as its nodes go: a request adds one thing, feeds inputs, or
-- changes nothing but types, pragmas and ports.
inductive Answered (m : Module) : Request → Module → Prop
  | quiet {request : Request} {changed : Module} (untouched : request.touches m = [])
      (none : request.registers = []) (quiet : Quiet m changed) : Answered m request changed
  | function {request : Request} (op : Opcode) (name : String) (untouched : request.touches m = [])
      (named : request.registers = [name]) : Answered m request (withFunction op name m)
  | node {graph : NodeId} (op : Opcode) (isGraph : m.IsGraph graph) :
      Answered m (.addNode graph op) (withNode graph op m)
  | graph {compound graph : NodeId} (plain : m.role? compound = some (.node graph)) :
      Answered m (.addGraph compound) (withGraph compound m)
  | child {compound child : NodeId} (role : m.role? child = some (.subgraph compound)) :
      Answered m (.pushChild compound child) (appendChild compound child m)
  | wire {target : Inlet} {source : Outlet} {path : List Port} {changed : Module}
      (done : Module.wire target source m = .ok path changed) : Answered m (.wire target source) changed
  | literal {inlet : Inlet} {value : HostValue} {literal : Literal} {typed : Module}
      (done : Module.setLiteral inlet value m = .ok () (bind inlet (.literal literal) typed))
      (found : literalOf value m = .ok literal typed) (quiet : Quiet m typed) (low : 1 ≤ inlet.port)
      (inside : inlet.node < typed.nodes.size) :
      Answered m (.setLiteral inlet value) (bind inlet (.literal literal) typed)

theorem answered_of_quiet {request : Request} (quiet : request.IsQuiet) (m : Module) :
    Answered m request (request.after m) := by
  refine .quiet ?_ ?_ (quiet_request quiet m)
  · cases request with
    | wire | setLiteral => exact absurd quiet id
    | _ => rfl
  · cases request with
    | addFunction | addFunctionWith => exact absurd quiet id
    | _ => rfl

theorem answered_request (m : Module) (request : Request) : Answered m request (request.after m) := by
  by_cases quiet : request.IsQuiet
  · exact answered_of_quiet quiet m
  unfold Request.after
  cases request with
  | addFunction name => exact .function .xGraph name rfl rfl
  | addFunctionWith name op =>
      rw [Request.perform, after_ignoring, addFunctionWith]
      split
      · rename_i known
        exact .function op name rfl (if_pos known)
      · rename_i unknown
        exact .quiet rfl (if_neg unknown) (.refl m)
  | addNode graph op =>
      rw [Request.perform, on_frame_eq, after_ignoring]
      rcases after_add_node m graph op with ⟨owner, found, same⟩ | same
      · rw [same]
        exact .node op (is_graph_of_graph found)
      · rw [same]
        exact .quiet rfl rfl (.refl m)
  | addGraph node =>
      rw [Request.perform, on_frame_eq, after_ignoring]
      rcases after_add_graph m node with ⟨graph, role, same⟩ | same
      · rw [same]
        exact .graph role
      · rw [same]
        exact .quiet rfl rfl (.refl m)
  | pushChild node graph =>
      rw [Request.perform, on_frame_eq]
      cases step : pushChild node graph m with
      | ok _ changed =>
          obtain ⟨role, rfl⟩ := push_child_ok step
          rw [Edit.after_of_ok step]
          exact .child role
      | error error changed =>
          rw [Edit.after_of_error step, intact_push_child _ _ _ _ _ step]
          exact .quiet rfl rfl (.refl m)
  | wire target source =>
      rw [Request.perform, after_ignoring]
      cases step : wire target source m with
      | ok path changed =>
          rw [Edit.after_of_ok step]
          exact .wire step
      | error error changed =>
          rw [Edit.after_of_error step, intact_wire _ _ _ _ _ step]
          exact .quiet (by simp only [Request.touches, step]) rfl (.refl m)
  | setLiteral inlet value =>
      rw [Request.perform]
      cases step : setLiteral inlet value m with
      | ok _ changed =>
          obtain ⟨literal, typed, found, low, inside, _, rfl⟩ := set_literal_ok step
          have quiet := quiet_steps.literal_of value m
          rw [Edit.after_of_ok found] at quiet
          rw [Edit.after_of_ok step]
          exact .literal step found quiet low inside
      | error error changed =>
          rw [Edit.after_of_error step]
          exact .quiet (by simp only [Request.touches, step]) rfl (set_literal_refused step)
  | _ => exact absurd trivial quiet

theorem sound_request {m : Module} {history : Touches Binding} (request : Request)
    (sound : m.Sound history) :
    ∃ made, (request.after m).Sound (history ++ made) ∧
      relabel Binding.supply made = request.touches m := by
  have answered := answered_request m request
  generalize request.after m = changed at answered ⊢
  cases answered with
  | quiet untouched _ quiet => exact ⟨[], (sound.of_quiet quiet).unmoved, untouched.symm⟩
  | function op name untouched _ => exact ⟨[], (sound_add_function op name sound).unmoved, untouched.symm⟩
  | node op isGraph =>
      have owned := owned_with_node op isGraph sound.owned
      exact ⟨[], (sound.of_extends (.of_node _ op) owned).unmoved, rfl⟩
  | graph plain =>
      have owned := owned_with_graph ⟨_, plain⟩ sound.owned
      exact ⟨[], (sound.of_extends (.of_graph _) owned).unmoved, rfl⟩
  | child role =>
      obtain ⟨_, above, plain⟩ := sound.owned.inside role
      have owned := owned_append_child role (lt_size_of_role plain) sound.owned
      exact ⟨[], (sound.of_extends (.of_child _ _) owned).unmoved, rfl⟩
  | wire done =>
      obtain ⟨shape, _, _, wired, made, recorded, touched⟩ := wire_touches (wire_ok done) sound.wired sound.records
      refine ⟨made, ⟨sound.owned.of_same_shape shape, wired, recorded⟩, ?_⟩
      simp only [Request.touches, done]
      exact touched
  | @literal inlet _ literal _ done found quiet _ inside =>
      have kept := sound.of_quiet quiet
      refine ⟨[(inlet, .literal literal)], ⟨kept.owned.of_same_shape (same_shape_bind _ _ _),
        kept.wired.of_literal inlet literal inside, kept.records.of_literal inlet literal inside⟩, ?_⟩
      simp only [Request.touches, done, found]
      rfl

theorem sound_run {m : Module} {history : Touches Binding} (requests : List Request)
    (sound : m.Sound history) :
    ∃ made, (run m requests).Sound (history ++ made) ∧
      relabel Binding.supply made = runTouches m requests := by
  induction requests generalizing m history with
  | nil =>
      exact ⟨[], sound.unmoved, rfl⟩
  | cons request rest ih =>
      obtain ⟨here, kept, touched⟩ := sound_request request sound
      obtain ⟨later, final, more⟩ := ih kept
      refine ⟨here ++ later, ?_, ?_⟩
      · rw [← List.append_assoc]
        exact final
      · rw [relabel_append, touched, more]
        rfl

theorem sound_with_types (types : TypeTable) (pragmas : SortedMap Char String) :
    Sound { withTypes types with pragmas := pragmas } [] := by
  refine ⟨?_, ?_, ?_⟩
  · constructor <;> simp [role?, nodesOf, childrenOf, withTypes]
  · constructor
    simp [input?, output?, binding?, withTypes]
  · constructor <;> simp [latest_nil, input?, binding?, withTypes]

end Dataflow.Module
