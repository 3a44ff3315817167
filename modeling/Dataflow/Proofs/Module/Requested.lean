import Dataflow.Proofs.Module.Reachable
import Dataflow.Proofs.Type.Requests
set_option autoImplicit false

-- What holds of a module that was only changed by requests: child graphs stay listed, no two live
-- types are alike, and keys of pragmas have two characters.
namespace Dataflow

theorem Pragmas.sized_change {pragmas changed : Pragmas} {change : PragmaChange} (sized : pragmas.Sized)
    (done : change.apply pragmas = .ok changed) : changed.Sized := by
  cases change with
  | set key value => exact sized_set sized done
  | remove key =>
      change (pragmas.remove key).map _ = _ at done
      cases removed : pragmas.remove key with
      | error error =>
          rw [removed] at done
          cases done
      | ok pair =>
          rw [removed] at done
          cases done
          exact sized_remove sized removed
  | rename name =>
      cases done
      exact sized_name sized name

namespace Module
open Edit

/-! ### Shapes -/

-- A request leaves the shape of a module, or adds one thing to it.
inductive Reshaped (m : Module) : Module → Prop
  | same {changed : Module} (shape : SameShape m changed) : Reshaped m changed
  | function (op : Opcode) (name : String) : Reshaped m (withFunction op name m)
  | node {graph : NodeId} (op : Opcode) (isGraph : m.IsGraph graph) : Reshaped m (withNode graph op m)
  | graph {compound graph : NodeId} (plain : m.role? compound = some (.node graph)) :
      Reshaped m (withGraph compound m)
  | child {compound child : NodeId} (role : m.role? child = some (.subgraph compound)) :
      Reshaped m (appendChild compound child m)

theorem reshaped_request {m : Module} {history : Touches Binding} (sound : m.Sound history) (request : Request) :
    Reshaped m (request.after m) := by
  have answered := answered_request m request
  generalize request.after m = changed at answered ⊢
  cases answered with
  | quiet _ _ quiet => exact .same quiet.shape
  | function op name _ _ => exact .function op name
  | node op isGraph => exact .node op isGraph
  | graph plain => exact .graph plain
  | child role => exact .child role
  | wire done => exact .same (wire_touches (wire_ok done) sound.wired sound.records).1
  | literal _ _ quiet _ _ => exact .same (quiet.shape.trans (same_shape_bind _ _ _))

section Reshaped
variable {m changed : Module}

theorem role_of_reshaped (reshaped : Reshaped m changed) {id : NodeId} {role : Role}
    (found : m.role? id = some role) : changed.role? id = some role := by
  cases reshaped with
  | same shape => exact (shape.role id).trans found
  | function op name => exact (Extends.of_function op name).role found
  | node op isGraph => exact (Extends.of_node _ op).role found
  | graph plain => exact (Extends.of_graph _).role found
  | child role => exact (Extends.of_child _ _).role found

theorem complete_of_reshaped (reshaped : Reshaped m changed) (complete : m.Complete) : changed.Complete := by
  cases reshaped with
  | same shape => exact complete_of_same_shape shape complete
  | function op name =>
      intro id compound found
      rw [role_with_function] at found
      rw [children_with_function]
      split at found
      · cases found
      · exact complete found
  | node op isGraph =>
      intro id compound found
      rw [role_with_node] at found
      rw [children_with_node]
      split at found
      · cases found
      · exact complete found
  | graph plain =>
      rename_i owner graph
      intro id compound found
      rw [role_with_graph] at found
      rw [children_with_graph _ _ (lt_size_of_role plain)]
      split at found
      · rename_i new
        cases found
        rw [if_pos rfl, new]
        exact List.mem_append_right _ List.mem_cons_self
      · split
        · exact List.mem_append_left _ (complete found)
        · exact complete found
  | child role =>
      rename_i owner child
      intro id compound found
      have same : (appendChild owner child m).role? id = m.role? id := role_modify m id fun _ => rfl
      have inside : owner < m.nodes.size := by
        have listed := complete role
        by_cases bound : owner < m.nodes.size
        · exact bound
        · rw [children_of_size (Nat.le_of_not_lt bound)] at listed
          cases listed
      rw [same] at found
      rw [children_append_child _ _ _ inside]
      split
      · exact List.mem_append_left _ (complete found)
      · exact complete found

end Reshaped

/-! ### Keys of pragmas -/

end Module

structure Node.Sized (node : Node) : Prop where
  own : node.pragmas.Sized
  input : ∀ {port input}, node.inputs.get? port = some input → input.pragmas.Sized
  output : ∀ {port output}, node.outputs.get? port = some output → output.pragmas.Sized

namespace Node

theorem sized_new (opcode : Opcode) (role : Role) : Sized { opcode := opcode, role := role } :=
  ⟨Pragmas.sized_empty, fun found => (by cases found), fun found => by cases found⟩

theorem sized_input {node : Node} {port : Nat} {change : Input → Input} (sized : node.Sized)
    (kept : (change ((node.inputs.get? port).getD {})).pragmas.Sized) : (node.modifyInput port change).Sized := by
  refine ⟨sized.own, fun {query input} found => ?_, sized.output⟩
  change (node.inputs.update port {} change).get? query = _ at found
  rw [SortedMap.get?_update] at found
  split at found
  · cases found
    exact kept
  · exact sized.input found

theorem sized_output {node : Node} {port : Nat} {change : Output → Output} (sized : node.Sized)
    (kept : (change ((node.outputs.get? port).getD {})).pragmas.Sized) : (node.modifyOutput port change).Sized := by
  refine ⟨sized.own, sized.input, fun {query output} found => ?_⟩
  change (node.outputs.update port {} change).get? query = _ at found
  rw [SortedMap.get?_update] at found
  split at found
  · cases found
    exact kept
  · exact sized.output found

theorem sized_old_input {node : Node} (sized : node.Sized) (port : Nat) :
    ((node.inputs.get? port).getD {}).pragmas.Sized := by
  cases found : node.inputs.get? port with
  | none => exact Pragmas.sized_empty
  | some input => exact sized.input found

theorem sized_old_output {node : Node} (sized : node.Sized) (port : Nat) :
    ((node.outputs.get? port).getD {}).pragmas.Sized := by
  cases found : node.outputs.get? port with
  | none => exact Pragmas.sized_empty
  | some output => exact sized.output found

end Node

namespace Module
open Edit TypeTable

structure Sized (m : Module) : Prop where
  node : ∀ {id : NodeId} {node : Node}, m.nodes[id]? = some node → node.Sized

structure Tidy (m : Module) : Prop where
  types : m.types.Neat
  nodes : m.Sized

-- What a request other than a deletion of a type does to the types and to the keys.
structure Tended (m changed : Module) : Prop where
  types : Added m.types changed.types
  nodes : m.Sized → changed.Sized

abbrev TendEdit {α : Type} (change : Change α) : Prop :=
  Moves Tended change

theorem tended_refl (m : Module) : Tended m m :=
  ⟨.refl, id⟩

theorem tended_trans (first second third : Module) (here : Tended first second) (later : Tended second third) :
    Tended first third :=
  ⟨here.types.trans later.types, later.nodes ∘ here.nodes⟩

theorem tended_of_types {m changed : Module} (types : changed.types = m.types) (nodes : m.Sized → changed.Sized) :
    Tended m changed := by
  refine ⟨?_, nodes⟩
  rw [types]

section Sized
variable {m : Module}

theorem sized_modify {id : NodeId} (change : Node → Node) (sized : m.Sized)
    (kept : ∀ {node : Node}, m.nodes[id]? = some node → (change node).Sized) : (modifyNode id change m).Sized := by
  refine ⟨fun {query node} found => ?_⟩
  rw [nodes_modify] at found
  split at found
  · rename_i same
    obtain ⟨old, here, rfl⟩ := Option.map_eq_some_iff.mp found
    exact kept (by rw [← same]; exact here)
  · exact sized.node found

theorem sized_pushed {node : Node} (sized : m.Sized) (new : node.Sized) : (pushed node m).Sized := by
  refine ⟨fun {query other} found => ?_⟩
  rw [nodes_pushed] at found
  split at found
  · cases found
    exact new
  · exact sized.node found

theorem sized_nodes {id : NodeId} (nodes : List NodeId → List NodeId) (sized : m.Sized) :
    (modifyNode id (fun owner => { owner with nodes := nodes owner.nodes }) m).Sized :=
  sized_modify _ sized fun {_} found => ⟨(sized.node found).own, (sized.node found).input, (sized.node found).output⟩

theorem sized_child (compound child : NodeId) (sized : m.Sized) : (appendChild compound child m).Sized :=
  sized_modify _ sized fun {_} found => ⟨(sized.node found).own, (sized.node found).input, (sized.node found).output⟩

theorem sized_new_input {inlet : Inlet} {change : Input → Input} (sized : m.Sized)
    (kept : ∀ {node : Node}, m.nodes[inlet.node]? = some node →
      (change ((node.inputs.get? inlet.port).getD {})).pragmas.Sized) :
    (modifyNode inlet.node (Node.modifyInput inlet.port change) m).Sized :=
  sized_modify _ sized fun {_} found => Node.sized_input (sized.node found) (kept found)

theorem sized_new_output {outlet : Outlet} {change : Output → Output} (sized : m.Sized)
    (kept : ∀ {node : Node}, m.nodes[outlet.node]? = some node →
      (change ((node.outputs.get? outlet.port).getD {})).pragmas.Sized) :
    (modifyNode outlet.node (Node.modifyOutput outlet.port change) m).Sized :=
  sized_modify _ sized fun {_} found => Node.sized_output (sized.node found) (kept found)

theorem sized_bind (inlet : Inlet) (binding : Binding) (sized : m.Sized) : (bind inlet binding m).Sized :=
  sized_new_input sized fun {_} found => Node.sized_old_input (sized.node found) inlet.port

theorem sized_connect (source : Outlet) (target : Inlet) (sized : m.Sized) : (connect source target m).Sized := by
  have bound := sized_bind target (.wire source m.stamp) sized
  have declared : (modifyNode source.node (Node.modifyOutput source.port id)
      (bind target (.wire source m.stamp) m)).Sized :=
    sized_new_output bound fun {_} found => Node.sized_old_output (bound.node found) source.port
  exact ⟨declared.node⟩

theorem sized_declare {output : Output} (port : Nat) (children : List NodeId) (keys : output.pragmas.Sized)
    (sized : m.Sized) : (children.foldl (fun (m : Module) (child : NodeId) => modifyNode child (fun graph =>
      { graph with outputs := graph.outputs.insert port output }) m) m).Sized := by
  induction children generalizing m with
  | nil => exact sized
  | cons child rest ih =>
      refine ih (sized_modify _ sized fun {node} found => ⟨(sized.node found).own, (sized.node found).input, ?_⟩)
      intro query other here
      change (node.outputs.insert port output).get? query = _ at here
      rw [SortedMap.get?_insert] at here
      split at here
      · cases here
        exact keys
      · exact (sized.node found).output here

theorem tended_route (crossings : List Crossing) (routing : Routing Module) :
    Tended routing.m (crossings.foldl Routing.enter routing).m := by
  induction crossings generalizing routing with
  | nil => exact tended_refl routing.m
  | cons crossing rest ih =>
      refine tended_trans _ _ _ (tended_of_types ?_ fun sized => ?_) (ih (routing.enter crossing))
      · exact types_declare _ _ _ _
      · exact sized_declare _ _ Pragmas.sized_empty (sized_connect _ _ sized)

theorem tended_new_function (op : Opcode) (name : String) (m : Module) : Tended m (withFunction op name m) :=
  tended_of_types rfl fun sized => ⟨(sized_pushed sized (Node.sized_new op (.function name))).node⟩

theorem tended_wire {target : Inlet} {source : Outlet} {path : List Port} {changed : Module}
    (step : WireStep m target source path changed) : Tended m changed := by
  obtain ⟨_, _, _, _, crossings, _, _, _, _, _, rfl⟩ := step
  exact tended_trans _ _ _ (tended_route crossings.reverse ⟨m, source, []⟩)
    (tended_of_types (types_connect _) (sized_connect _ _))

end Sized

/-! ### Steps of requests -/

theorem tended_bind {α β : Type} {first : Change α} {next : α → Change β} (here : TendEdit first)
    (later : ∀ value, TendEdit (next value)) : TendEdit (first >>= next) :=
  moves_bind tended_trans here later

theorem tended_query {α : Type} (find : Module → Except Error α) : TendEdit (query find) :=
  moves_query tended_refl find

theorem tended_modify {change : Module → Module} (types : ∀ m, (change m).types = m.types)
    (nodes : ∀ {m : Module}, m.Sized → (change m).Sized) : TendEdit (modify change : Change PUnit) :=
  moves_modify fun m => tended_of_types (types m) nodes

theorem tended_checked (port : Nat) : TendEdit (Edit.ofExcept (checkPort port) : Change Unit) :=
  moves_of_except tended_refl _

theorem tended_set_output (outlet : Outlet) (type : TypeId) : TendEdit (setOutput outlet type) := by
  refine tended_bind (tended_checked _) fun _ => tended_bind (tended_query _) fun _ => ?_
  refine tended_bind (tended_query _) fun _ => tended_modify (fun _ => rfl) fun {m} sized => ?_
  exact sized_new_output sized fun {_} found => Node.sized_old_output (sized.node found) outlet.port

theorem tended_add_input (inlet : Inlet) : TendEdit (addInput inlet) := by
  refine tended_bind (tended_checked _) fun _ => tended_bind (tended_query _) fun _ =>
    tended_modify (fun _ => rfl) fun {m} sized => ?_
  exact sized_new_input sized fun {_} found => Node.sized_old_input (sized.node found) inlet.port

theorem tended_add_output (outlet : Outlet) : TendEdit (addOutput outlet) := by
  refine tended_bind (tended_checked _) fun _ => tended_bind (tended_query _) fun _ =>
    tended_modify (fun _ => rfl) fun {m} sized => ?_
  exact sized_new_output sized fun {_} found => Node.sized_old_output (sized.node found) outlet.port

-- Pragmas are only changed in accepted ways.
theorem tended_accepted {outcome : Except Error Pragmas} {change : Pragmas → Module → Module} {m : Module}
    (later : ∀ pragmas, outcome = .ok pragmas → Tended m (change pragmas m)) :
    Tended m ((Edit.ofExcept outcome >>= fun pragmas => modify (change pragmas) : Change PUnit).after m) := by
  cases outcome with
  | ok pragmas => exact later pragmas rfl
  | error error => exact tended_refl m

theorem tended_node_pragmas (id : NodeId) (change : PragmaChange) : TendEdit (changeNodePragmas id change) := by
  refine moves_found tended_refl fun {m node} found => tended_accepted fun pragmas changing =>
    tended_of_types rfl fun sized => ?_
  have keys := Pragmas.sized_change (sized.node (node_ok_iff.mp found)).own changing
  exact sized_modify (fun node => { node with pragmas := pragmas }) sized fun {_} here =>
    ⟨keys, (sized.node here).input, (sized.node here).output⟩

theorem sized_input_of_module {m : Module} (sized : m.Sized) (inlet : Inlet) :
    ((m.input? inlet).getD {}).pragmas.Sized := by
  unfold input?
  cases found : m.nodes[inlet.node]? with
  | none => exact Pragmas.sized_empty
  | some node => exact Node.sized_old_input (sized.node found) inlet.port

theorem sized_output_of_module {m : Module} (sized : m.Sized) (outlet : Outlet) :
    ((m.output? outlet).getD {}).pragmas.Sized := by
  unfold output?
  cases found : m.nodes[outlet.node]? with
  | none => exact Pragmas.sized_empty
  | some node => exact Node.sized_old_output (sized.node found) outlet.port

theorem tended_input_pragmas (inlet : Inlet) (change : PragmaChange) : TendEdit (changeInputPragmas inlet change) := by
  refine tended_bind (tended_add_input inlet) fun _ => moves_got fun m => ?_
  refine tended_accepted fun pragmas changing => tended_of_types rfl fun sized => ?_
  exact sized_new_input sized fun {_} _ => Pragmas.sized_change (sized_input_of_module sized inlet) changing

theorem tended_output_pragmas (outlet : Outlet) (change : PragmaChange) :
    TendEdit (changeOutputPragmas outlet change) := by
  refine tended_bind (tended_add_output outlet) fun _ => moves_got fun m => ?_
  refine tended_accepted fun pragmas changing => tended_of_types rfl fun sized => ?_
  exact sized_new_output sized fun {_} _ => Pragmas.sized_change (sized_output_of_module sized outlet) changing

theorem tended_steps : Steps Tended where
  refl := tended_refl
  trans := tended_trans
  types _ _ added := ⟨added, fun sized => ⟨sized.node⟩⟩
  output := tended_set_output

theorem tended_set_literal (inlet : Inlet) (value : HostValue) : TendEdit (setLiteral inlet value) := by
  rw [set_literal_eq]
  refine tended_bind (tended_checked _) fun _ => tended_bind (tended_query _) fun _ => ?_
  refine tended_bind (tended_steps.literal_of value) fun literal => ?_
  refine tended_bind (tended_steps.on_types (added_require _)) fun _ => tended_bind (tended_query _) fun _ => ?_
  exact tended_modify (fun _ => rfl) fun sized => sized_bind inlet (.literal literal) sized

/-! ### Requests -/

def Request.deletes? : Request → Option TypeId
  | .deleteType type => some type
  | _ => none

-- A relation that holds of every change that a request other than a deletion consists of.
structure Serving (relation : Module → Module → Prop) : Prop extends Steps relation where
  pragmas : ∀ (m : Module) (pragmas : SortedMap Char String), relation m { m with pragmas := pragmas }
  function : ∀ op name m, relation m (withFunction op name m)
  node : ∀ graph op m, relation m (withNode graph op m)
  graph : ∀ compound m, relation m (withGraph compound m)
  child : ∀ compound child m, relation m (appendChild compound child m)
  wire : ∀ {target source path m changed}, WireStep m target source path changed → relation m changed
  literal : ∀ inlet value, Moves relation (setLiteral inlet value)
  input : ∀ inlet, Moves relation (addInput inlet)
  nodePragmas : ∀ id change, Moves relation (changeNodePragmas id change)
  inputPragmas : ∀ inlet change, Moves relation (changeInputPragmas inlet change)
  outputPragmas : ∀ outlet change, Moves relation (changeOutputPragmas outlet change)

namespace Serving
variable {relation : Module → Module → Prop} (serving : Serving relation)
include serving

theorem add_node (graph : NodeId) (op : Opcode) (m : Module) : relation m ((addNode graph op).after m) := by
  rcases after_add_node m graph op with ⟨_, _, same⟩ | same
  · rw [same]
    exact serving.node graph op m
  · rw [same]
    exact serving.refl m

theorem add_graph (compound : NodeId) (m : Module) : relation m ((addGraph compound).after m) := by
  rcases after_add_graph m compound with ⟨_, _, same⟩ | same
  · rw [same]
    exact serving.graph compound m
  · rw [same]
    exact serving.refl m

theorem request {request : Request} (spares : request.deletes? = none) : Moves relation request.perform := by
  have steps := serving.toSteps
  cases request with
  | deleteType type => cases spares
  | addType code first second => exact steps.ignoring (steps.on_types (added_add code first second))
  | addBasic kind => exact steps.ignoring (steps.on_types (added_basic kind))
  | addChain types code names => exact steps.ignoring (steps.on_types (added_chain types code names))
  | setTypeName type name => exact steps.on_types (added_name type name)
  | setTypePragma type key value => exact steps.on_types (added_set_pragma type key value)
  | removeTypePragma type key => exact steps.ignoring (steps.on_types (added_remove_pragma type key))
  | setPragma key text => exact moves_modify fun m => serving.pragmas m _
  | removePragma key => exact moves_modify fun m => serving.pragmas m _
  | addFunction name => exact steps.ignoring (serving.function .xGraph name)
  | addFunctionWith name op =>
      refine steps.ignoring ?_
      unfold addFunctionWith
      split
      · exact serving.function op name
      · exact moves_throw steps.refl _
  | functionType graph => exact steps.ignoring (steps.function_type graph)
  | addNode graph op => exact steps.ignoring (serving.add_node graph op)
  | addGraph node => exact steps.ignoring (serving.add_graph node)
  | pushChild node graph =>
      refine fun m => related_of_intact (intact_push_child node graph) (steps.refl m) fun _ changed step => ?_
      obtain ⟨_, rfl⟩ := push_child_ok step
      exact serving.child node graph m
  | setOutput outlet type => exact steps.output outlet type
  | addInput inlet => exact serving.input inlet
  | wire target source =>
      refine steps.ignoring fun m => related_of_intact (intact_wire target source) (steps.refl m) fun _ _ step => ?_
      exact serving.wire (wire_ok step)
  | setLiteral inlet value => exact serving.literal inlet value
  | nodePragmas id change => exact serving.nodePragmas id change
  | inputPragmas inlet change => exact serving.inputPragmas inlet change
  | outputPragmas outlet change => exact serving.outputPragmas outlet change
  | toText => exact steps.ignoring steps.to_text
  | nodeText id => exact steps.ignoring (steps.node_text id)

end Serving

theorem tended_serving : Serving Tended where
  toSteps := tended_steps
  pragmas _ _ := tended_of_types rfl fun sized => ⟨sized.node⟩
  function := tended_new_function
  node graph op m := tended_of_types rfl fun sized =>
    sized_nodes (· ++ [m.nodes.size]) (sized_pushed sized (Node.sized_new op (.node graph)))
  graph compound m := tended_of_types rfl fun sized =>
    sized_child compound m.nodes.size (sized_pushed sized (Node.sized_new .xGraph (.subgraph compound)))
  child compound child _ := tended_of_types rfl (sized_child compound child)
  wire := tended_wire
  literal := tended_set_literal
  input := tended_add_input
  nodePragmas := tended_node_pragmas
  inputPragmas := tended_input_pragmas
  outputPragmas := tended_output_pragmas

theorem after_delete_type (m : Module) (type : TypeId) :
    (Request.deleteType type).after m = { m with types := (delete type).after m.types } := by
  change (onTypes (delete type)).after m = _
  unfold onTypes
  cases step : delete type m.types with
  | ok value table =>
      rw [after_of_ok (within_of_ok step), after_of_ok step]
  | error error table =>
      have refused : Edit.within Module.types (fun types m => { m with types := types }) (delete type) m =
          .error error { m with types := table } := by
        unfold Edit.within
        rw [step]
      rw [after_of_error refused, after_of_error step]

-- What one request does to the types: it adds some, or it deletes one.
inductive Revised (table : TypeTable) (request : Request) : TypeTable → Prop
  | added {changed : TypeTable} (spares : request.deletes? = none) (added : Added table changed) :
      Revised table request changed
  | refused {type : TypeId} (asked : request = .deleteType type) (missing : table.get? type = none) :
      Revised table request table
  | deleted {type : TypeId} {definition : TypeDef} (asked : request = .deleteType type)
      (found : table.get? type = some definition) : Revised table request (deleted type definition.signature table)

theorem revised_request (request : Request) (m : Module) : Revised m.types request (request.after m).types := by
  cases spares : request.deletes? with
  | none => exact .added spares (tended_serving.request spares m).types
  | some type =>
      cases request with
      | deleteType type =>
          rw [after_delete_type]
          cases found : m.types.get? type with
          | none =>
              rw [after_of_error (delete_refused found)]
              exact .refused rfl found
          | some definition =>
              rw [after_of_ok (delete_run found)]
              exact .deleted rfl found
      | _ => cases spares

theorem tidy_request (request : Request) {m : Module} (tidy : m.Tidy) : (request.after m).Tidy := by
  cases spares : request.deletes? with
  | none =>
      have tended := tended_serving.request spares m
      exact ⟨neat_added tended.types tidy.types, tended.nodes tidy.nodes⟩
  | some type =>
      cases request with
      | deleteType type =>
          rw [after_delete_type]
          exact ⟨neat_delete type tidy.types, ⟨tidy.nodes.node⟩⟩
      | _ => cases spares

end Module

end Dataflow
