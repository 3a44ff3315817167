import Dataflow.Proofs.Module.Reachable
import Dataflow.Proofs.Store.Steps
set_option autoImplicit false

-- Requests and runs of them go alike on a store and on the module that it shows.
namespace Dataflow.Store
open Dataflow.Module Edit LiveTable

/-! ### Literals -/

theorem follows_bind_literal (inlet : Inlet) (literal : Literal) :
    FollowsStore (bindLiteral inlet literal) (bindLiteral inlet literal) := by
  refine (follows_types (follows_require literal.type)).bind fun _ => ?_
  intro s m shows_
  cases shows_.agree_node inlet.node with
  | error here there =>
      exact .error (bind_query_of_error (by exact here)) (bind_query_of_error (by exact there)) shows_
  | ok here there _ =>
      refine .ok (bind_query_of_ok (by exact here)) (bind_query_of_ok (by exact there)) rfl ?_
      exact shows_hold literal (exists_node_iff.mp ⟨_, node_ok_iff.mp there⟩) shows_

theorem follows_function_literal (id : NodeId) : FollowsStore (functionLiteral id) (functionLiteral id) := by
  refine (follows_query fun shows_ => shows_.function_name id).seq fun name => ?_
  refine (follows_function_type id).seq fun type => ?_
  cases type with
  | none => exact Follows.throw _
  | some type => exact Follows.pure rfl

theorem follows_set_literal (inlet : Inlet) (value : HostValue) :
    FollowsStore (setLiteral inlet value) (setLiteral inlet value) := by
  refine (Follows.of_except _).bind fun _ => (follows_node inlet.node).bind fun _ => ?_
  refine (Follows.of_except _).seq fun literal => ?_
  cases literal with
  | text text kind =>
      refine (follows_types (follows_literal_type kind)).seq fun type => ?_
      exact follows_bind_literal inlet _
  | function id =>
      refine (follows_function_literal id).seq fun literal => ?_
      exact follows_bind_literal inlet literal

/-! ### Texts -/

theorem follows_to_text : FollowsStore toText toText := by
  refine Follows.got fun s m shows_ => ?_
  have same : (Keeper.frame m).functions = (Keeper.frame s).functions := shows_.functions
  rw [same]
  refine (Follows.map_m fun id => follows_function_type id).seq fun types => ?_
  exact follows_query fun shows_ => congrArg (Module.textWith · types) shows_.view

theorem follows_node_text (id : NodeId) : FollowsStore (nodeText id) (nodeText id) := by
  refine (follows_node id).bind fun {held shown} twins => ?_
  rw [twins.role]
  cases shown.role with
  | function name =>
      refine (follows_function_type id).seq fun type => ?_
      refine (follows_query fun shows_ => ?_).seq fun records => Follows.pure rfl
      exact congrArg (Module.functionRecords · id type) shows_.view
  | subgraph compound =>
      refine (follows_query fun shows_ => ?_).seq fun records => Follows.pure rfl
      exact congrArg (fun m : Module => m.subgraphRecords (m.nodeRecords m.depthBound) id) shows_.view
  | node graph =>
      refine (follows_query fun shows_ => ?_).seq fun records => Follows.pure rfl
      exact congrArg (fun m : Module => m.nodeRecords m.depthBound id) shows_.view

/-! ### Requests -/

theorem follows_ignoring {α : Type} {change : Edit Store α} {model : Change α} (follows : FollowsStore change model) :
    FollowsStore (ignoring change) (ignoring model) :=
  follows.bind fun _ => Follows.pure rfl

theorem follows_request (request : Request) : FollowsStore request.perform request.perform := by
  cases request with
  | addType code first second => exact follows_ignoring (follows_types (follows_add code first second))
  | addBasic kind => exact follows_ignoring (follows_types (follows_intern _))
  | addChain types code names => exact follows_ignoring (follows_types (follows_chain types code names))
  | deleteType type => exact follows_types (follows_delete type)
  | setTypeName type name => exact follows_types (follows_set_name type name)
  | setTypePragma type key value => exact follows_types (follows_set_pragma type key value)
  | removeTypePragma type key => exact follows_ignoring (follows_types (follows_remove_pragma type key))
  | setPragma key text => exact follows_map_frame (spares_pragmas (·.insert key text))
  | removePragma key => exact follows_map_frame (spares_pragmas (·.erase key))
  | addFunction name => exact follows_ignoring (follows_add_function .xGraph name)
  | addFunctionWith name op => exact follows_ignoring (follows_add_function_with name op)
  | functionType graph => exact follows_ignoring (follows_function_type graph)
  | addNode graph op => exact follows_ignoring (follows_on_frame fun _ => framed_add_node graph op)
  | addGraph node => exact follows_ignoring (follows_on_frame fun _ => framed_add_graph node)
  | pushChild node graph => exact follows_on_frame fun _ => framed_push_child node graph
  | setOutput outlet type => exact follows_set_output outlet type
  | addInput inlet => exact follows_on_frame fun _ => framed_add_input inlet
  | wire target source => exact follows_ignoring (follows_wire target source)
  | setLiteral inlet value => exact follows_set_literal inlet value
  | nodePragmas id change => exact follows_on_frame fun _ => framed_node_pragmas id change
  | inputPragmas inlet change => exact follows_on_frame fun _ => framed_input_pragmas inlet change
  | outputPragmas outlet change => exact follows_on_frame fun _ => framed_output_pragmas outlet change
  | toText => exact follows_ignoring follows_to_text
  | nodeText id => exact follows_ignoring (follows_node_text id)

theorem shows_run {s : Store} {m : Module} (requests : List Request) (shows_ : Shows s m) :
    Shows (Module.run s requests) (Module.run m requests) := by
  induction requests generalizing s m with
  | nil => exact shows_
  | cons request rest ih => exact ih ((follows_request request).after shows_)

end Dataflow.Store
