import Dataflow.Proofs.Module.History
import Dataflow.Proofs.Module.Ownership
set_option autoImplicit false

-- Wires stay inside one scope. A wire from an enclosing graph is a chain of such wires, one for
-- each compound on the way, and touches exactly the input ports on its path.
namespace Dataflow.Module
open Touches

structure Wired (m : Module) : Prop where
  wires : ∀ {inlet source stamp}, m.binding? inlet = some (.wire source stamp) →
    (m.output? source).isSome ∧
      ∃ scope, m.scopeOf source.node = .ok scope ∧ m.scopeOf inlet.node = .ok scope

theorem input_isSome_of_binding {m : Module} {inlet : Inlet} {binding : Binding}
    (bound : m.binding? inlet = some binding) : (m.input? inlet).isSome := by
  cases found : m.input? inlet with
  | some input => rfl
  | none => simp [binding?, found] at bound

namespace Wired

variable {m changed : Module}

theorem of_calm (calm : Calm m changed) (wired : m.Wired) : changed.Wired := by
  refine ⟨fun {inlet source stamp} bound => ?_⟩
  rw [calm.binding] at bound
  obtain ⟨declared, scope, here, there⟩ := wired.wires bound
  refine ⟨calm.declared source declared, scope, ?_, ?_⟩
  · exact (scope_congr (calm.shape.role source.node) scope).mpr here
  · exact (scope_congr (calm.shape.role inlet.node) scope).mpr there

theorem of_literal (target : Inlet) (literal : Literal) (inside : target.node < m.nodes.size)
    (wired : m.Wired) : (bind target (.literal literal) m).Wired := by
  have same := same_shape_bind target (.literal literal) m
  refine ⟨fun {inlet source stamp} bound => ?_⟩
  rw [binding_bind _ inside] at bound
  split at bound
  · cases bound
  · obtain ⟨declared, scope, here, there⟩ := wired.wires bound
    refine ⟨by rw [output_bind]; exact declared, scope, ?_, ?_⟩
    · exact (scope_congr (same.role source.node) scope).mpr here
    · exact (scope_congr (same.role inlet.node) scope).mpr there

theorem of_connect (source : Outlet) (target : Inlet) {scope : NodeId}
    (sourceScope : m.scopeOf source.node = .ok scope)
    (targetScope : m.scopeOf target.node = .ok scope) (wired : m.Wired) :
    (connect source target m).Wired := by
  have same := same_shape_connect source target m
  refine ⟨fun {inlet other stamp} bound => ?_⟩
  rw [binding_connect source (lt_size_of_scope targetScope)] at bound
  rw [output_connect source other (lt_size_of_scope sourceScope)]
  split at bound
  · rename_i equal
    cases bound
    rw [if_pos rfl, equal]
    refine ⟨rfl, scope, ?_, ?_⟩
    · exact (scope_congr (same.role source.node) scope).mpr sourceScope
    · exact (scope_congr (same.role target.node) scope).mpr targetScope
  · obtain ⟨declared, found, here, there⟩ := wired.wires bound
    refine ⟨?_, found, ?_, ?_⟩
    · split
      · rfl
      · exact declared
    · exact (scope_congr (same.role other.node) found).mpr here
    · exact (scope_congr (same.role inlet.node) found).mpr there

end Wired

/-! ### Paths -/

-- The wires along a path: each input on it is fed from the output before it.
def pathTouches (source : Outlet) : List Port → Touches Supply
  | [] => []
  | .inlet target :: rest => (target, .wire source) :: pathTouches source rest
  | .outlet next :: rest => pathTouches next rest

def pathEnd (source : Outlet) : List Port → Outlet
  | [] => source
  | .inlet _ :: rest => pathEnd source rest
  | .outlet next :: rest => pathEnd next rest

theorem path_touches_append (source : Outlet) (path rest : List Port) :
    pathTouches source (path ++ rest) =
      pathTouches source path ++ pathTouches (pathEnd source path) rest := by
  induction path generalizing source with
  | nil => rfl
  | cons port path ih => cases port <;> simp [pathTouches, pathEnd, ih]

theorem path_end_append (source : Outlet) (path rest : List Port) :
    pathEnd source (path ++ rest) = pathEnd (pathEnd source path) rest := by
  induction path generalizing source with
  | nil => rfl
  | cons port path ih => cases port <;> simp [pathEnd, ih]

/-! ### Crossings -/

-- The way out of a scope, innermost crossing first.
def Leads (m : Module) (outer : NodeId) : List Crossing → NodeId → Prop
  | [], scope => scope = outer
  | crossing :: rest, scope =>
      crossing.child = scope ∧ m.role? scope = some (.subgraph crossing.compound) ∧
        ∃ next, m.scopeOf crossing.compound = .ok next ∧ Leads m outer rest next

theorem crossings_lead {m : Module} {outer : NodeId} {steps : Nat} {scope : NodeId}
    {crossings : List Crossing} (found : m.crossings? outer steps scope = some crossings) :
    m.Leads outer crossings scope := by
  induction steps generalizing scope crossings with
  | zero =>
      simp only [crossings?, Option.ite_none_right_eq_some, Option.some.injEq] at found
      obtain ⟨here, rfl⟩ := found
      exact here
  | succ steps ih =>
      rw [crossings?] at found
      split at found
      · rename_i here
        cases found
        exact here
      · split at found
        · rename_i compound role
          cases next : m.scopeOf compound with
          | error error => simp [next] at found
          | ok scopeAbove =>
              simp only [next, Option.map_eq_some_iff] at found
              obtain ⟨rest, above, rfl⟩ := found
              exact ⟨rfl, role, scopeAbove, next, ih above⟩
        · cases found

-- A wire under way: everything that the wiring of the last port needs.
structure Underway (m : Module) (history : Touches Binding) (source : Outlet) (scope : NodeId)
    (routing : Routing Module) : Prop where
  shape : SameShape m routing.m
  types : routing.m.types = m.types
  pragmas : routing.m.pragmas = m.pragmas
  wired : routing.m.Wired
  here : routing.m.scopeOf routing.current.node = .ok scope
  current : routing.current = pathEnd source routing.path
  records : ∃ made, routing.m.Records (history ++ made) ∧
    relabel Binding.supply made = pathTouches source routing.path

theorem relabel_append {α β : Type} (change : α → β) (first second : Touches α) :
    relabel change (first ++ second) = relabel change first ++ relabel change second :=
  List.map_append

theorem calm_declare (output : Output) (port : Nat) (children : List NodeId) (m : Module) :
    Calm m (children.foldl (fun m child => modifyNode child (fun graph =>
      { graph with outputs := graph.outputs.insert port output }) m) m) := by
  induction children generalizing m with
  | nil => exact .refl m
  | cons child rest ih => exact (calm_output m ⟨child, port⟩ fun _ => output).trans (ih _)

theorem types_declare (output : Output) (port : Nat) (children : List NodeId) (m : Module) :
    (children.foldl (fun m child => modifyNode child (fun graph =>
      { graph with outputs := graph.outputs.insert port output }) m) m).types = m.types := by
  induction children generalizing m with
  | nil => rfl
  | cons child rest ih => exact ih _

theorem pragmas_declare (output : Output) (port : Nat) (children : List NodeId) (m : Module) :
    (children.foldl (fun m child => modifyNode child (fun graph =>
      { graph with outputs := graph.outputs.insert port output }) m) m).pragmas = m.pragmas := by
  induction children generalizing m with
  | nil => rfl
  | cons child rest ih => exact ih _

theorem input_declare (output : Output) (port : Nat) (children : List NodeId) (m : Module) (inlet : Inlet) :
    (children.foldl (fun m child => modifyNode child (fun graph =>
      { graph with outputs := graph.outputs.insert port output }) m) m).input? inlet = m.input? inlet := by
  induction children generalizing m with
  | nil => rfl
  | cons child rest ih =>
      have kept := input_modify m child (fun graph =>
        { graph with outputs := graph.outputs.insert port output }) (fun _ => rfl) inlet
      exact (ih _).trans kept

theorem output_declare {output : Output} {port : Nat} {children : List NodeId} {m : Module} {outlet : Outlet}
    (declared : ((children.foldl (fun m child => modifyNode child (fun graph =>
      { graph with outputs := graph.outputs.insert port output }) m) m).output? outlet).isSome) :
    (m.output? outlet).isSome ∨ outlet.node ∈ children ∧ outlet.port = port := by
  induction children generalizing m with
  | nil => exact .inl declared
  | cons child rest ih =>
      rcases ih declared with before | ⟨member, same⟩
      · by_cases inside : child < m.nodes.size
        · have look := output_modify_output m child port (fun _ => output) inside outlet
          change ((modifyNode child (Node.modifyOutput port fun _ => output) m).output? outlet).isSome at before
          rw [look] at before
          split at before
          · rename_i equal
            rw [equal]
            exact .inr ⟨List.mem_cons_self, rfl⟩
          · exact .inl before
        · dsimp only at before
          rw [Quiet.modify_of_size inside] at before
          exact .inl before
      · exact .inr ⟨List.mem_cons_of_mem _ member, same⟩

theorem Routing.enter_eq (routing : Routing Module) (crossing : Crossing) :
    routing.enter crossing =
      let entry : Inlet := ⟨crossing.compound, routing.m.freePort crossing.compound⟩
      let output : Output := { type := routing.m.outputType? routing.current }
      let children := (routing.m.nodes[crossing.compound]?.map Node.distinctChildren).getD []
      ⟨children.foldl (fun m child => modifyNode child (fun graph =>
          { graph with outputs := graph.outputs.insert entry.port output }) m) (connect routing.current entry routing.m),
        ⟨crossing.child, entry.port⟩, routing.path ++ [.inlet entry, .outlet ⟨crossing.child, entry.port⟩]⟩ :=
  rfl

theorem underway_enter {m : Module} {history : Touches Binding} {source : Outlet}
    {scope inner : NodeId} {routing : Routing Module} {crossing : Crossing}
    (underway : Underway m history source scope routing)
    (outside : m.scopeOf crossing.compound = .ok scope) (child : crossing.child = inner)
    (role : m.role? inner = some (.subgraph crossing.compound)) :
    Underway m history source inner (routing.enter crossing) := by
  have entered : routing.m.scopeOf crossing.compound = .ok scope :=
    (scope_congr (underway.shape.role _) scope).mpr outside
  obtain ⟨_, compoundRole, _⟩ := scope_ok_iff.mp entered
  have inside := lt_size_of_role compoundRole
  let entry : Inlet := ⟨crossing.compound, routing.m.freePort crossing.compound⟩
  let output : Output := { type := routing.m.outputType? routing.current }
  let children := (routing.m.nodes[crossing.compound]?.map Node.distinctChildren).getD []
  have calm := calm_declare output entry.port children (connect routing.current entry routing.m)
  have connected := same_shape_connect routing.current entry routing.m
  have wired : (connect routing.current entry routing.m).Wired :=
    underway.wired.of_connect routing.current entry underway.here entered
  obtain ⟨made, records, touched⟩ := underway.records
  have recorded := records.of_connect routing.current entry inside
  refine ⟨?_, ?_, ?_, ?_, ?_, ?_, made ++ [(entry, .wire routing.current routing.m.stamp)], ?_, ?_⟩
  · exact (underway.shape.trans connected).trans calm.shape
  · exact (types_declare output _ children _).trans underway.types
  · exact (pragmas_declare output _ children _).trans underway.pragmas
  · exact wired.of_calm calm
  · have same := ((underway.shape.trans connected).trans calm.shape).role crossing.child
    refine (scope_congr same inner).mpr (scope_ok_iff.mpr ⟨_, by rw [child]; exact role, ?_⟩)
    exact child.symm
  · change _ = pathEnd source (routing.path ++ [.inlet entry, .outlet ⟨crossing.child, entry.port⟩])
    rw [path_end_append]
    rfl
  · rw [← List.append_assoc]
    exact recorded.of_calm calm
  · change _ = pathTouches source (routing.path ++ [.inlet entry, .outlet ⟨crossing.child, entry.port⟩])
    rw [path_touches_append, relabel_append, touched, ← underway.current]
    rfl

theorem underway_route {m : Module} {history : Touches Binding} {source : Outlet} {outer scope : NodeId}
    {crossings : List Crossing} (wired : m.Wired) (records : m.Records history)
    (start : m.scopeOf source.node = .ok outer) (leads : m.Leads outer crossings scope) :
    Underway m history source scope (crossings.reverse.foldl Routing.enter ⟨m, source, []⟩) := by
  rw [List.foldl_reverse]
  induction crossings generalizing scope with
  | nil =>
      cases leads
      exact ⟨.refl m, rfl, rfl, wired, start, rfl, [], by simpa using records, rfl⟩
  | cons crossing rest ih =>
      obtain ⟨child, role, next, outside, above⟩ := leads
      exact underway_enter (ih above) outside child role

/-! ### Wiring -/

theorem check_port_ok {port : Nat} (numbered : 1 ≤ port) : checkPort port = .ok () :=
  if_neg (Nat.one_le_iff_ne_zero.mp numbered)

theorem check_port_refused {port : Nat} (zero : port = 0) : checkPort port = .error (.invalidPort port) :=
  if_pos zero

theorem numbered_of_check {port : Nat} (checked : checkPort port = .ok ()) : 1 ≤ port := by
  rcases Nat.eq_zero_or_pos port with zero | positive
  · rw [check_port_refused zero] at checked
    cases checked
  · exact positive

structure WireStep (m : Module) (target : Inlet) (source : Outlet) (path : List Port)
    (changed : Module) : Prop where
  targetNumbered : 1 ≤ target.port
  sourceNumbered : 1 ≤ source.port
  made : ∃ outer inner crossings, m.scopeOf source.node = .ok outer ∧
    m.scopeOf target.node = .ok inner ∧ m.Leads outer crossings inner ∧
    m.crossings? outer m.nodes.size inner = some crossings ∧
    let routing := crossings.reverse.foldl Routing.enter ⟨m, source, []⟩
    path = routing.path ++ [.inlet target] ∧ changed = connect routing.current target routing.m

theorem wire_eq (target : Inlet) (source : Outlet) :
    wire target source = (do
      Edit.ofExcept (checkPort target.port)
      Edit.ofExcept (checkPort source.port)
      let outer ← Edit.query (·.scopeOf source.node)
      let inner ← Edit.query (·.scopeOf target.node)
      let m : Module ← get
      match m.crossings? outer m.nodes.size inner with
      | none => throw (.disconnected source target)
      | some crossings =>
          let routing := crossings.reverse.foldl Routing.enter ⟨m, source, []⟩
          set (connect routing.current target routing.m)
          pure (routing.path ++ [.inlet target])) := rfl

theorem wire_ok {m changed : Module} {target : Inlet} {source : Outlet} {path : List Port}
    (done : wire target source m = .ok path changed) : WireStep m target source path changed := by
  rw [wire_eq] at done
  obtain ⟨_, _, targetCheck, done⟩ := Edit.bind_ok done
  obtain ⟨targetChecked, rfl⟩ := Edit.of_except_ok targetCheck
  obtain ⟨_, _, sourceCheck, done⟩ := Edit.bind_ok done
  obtain ⟨sourceChecked, rfl⟩ := Edit.of_except_ok sourceCheck
  obtain ⟨outer, _, outerQuery, done⟩ := Edit.bind_ok done
  obtain ⟨outerFound, rfl⟩ := Edit.query_ok outerQuery
  obtain ⟨inner, _, innerQuery, done⟩ := Edit.bind_ok done
  obtain ⟨innerFound, rfl⟩ := Edit.query_ok innerQuery
  obtain ⟨_, _, got, done⟩ := Edit.bind_ok done
  cases got
  cases found : m.crossings? outer m.nodes.size inner with
  | none =>
      rw [found] at done
      cases done
  | some crossings =>
      rw [found] at done
      obtain ⟨_, _, written, done⟩ := Edit.bind_ok done
      cases written
      cases done
      exact ⟨numbered_of_check targetChecked, numbered_of_check sourceChecked, outer, inner,
        crossings, outerFound, innerFound, crossings_lead found, found, rfl, rfl⟩

theorem intact_wire (target : Inlet) (source : Outlet) : Edit.Intact (wire target source : Change (List Port)) := by
  rw [wire_eq]
  refine Edit.intact_checked fun _ => Edit.intact_checked fun _ => ?_
  refine Edit.intact_found fun _ => Edit.intact_found fun _ => Edit.intact_got fun m => ?_
  split
  · exact Edit.intact_throw _
  · exact Edit.intact_of_runs fun _ => ⟨_, _, rfl⟩

-- What a wire leaves behind: the shape and the types as they were, and one touch for each input
-- on its path.
theorem wire_touches {m changed : Module} {target : Inlet} {source : Outlet} {path : List Port}
    {history : Touches Binding} (step : WireStep m target source path changed) (wired : m.Wired)
    (records : m.Records history) :
    SameShape m changed ∧ changed.types = m.types ∧ changed.pragmas = m.pragmas ∧ changed.Wired ∧
      ∃ made, changed.Records (history ++ made) ∧
        relabel Binding.supply made = pathTouches source path := by
  obtain ⟨_, _, outer, inner, crossings, outerFound, innerFound, leads, _, rfl, rfl⟩ := step
  have underway := underway_route wired records outerFound leads
  generalize crossings.reverse.foldl Routing.enter ⟨m, source, []⟩ = routing at underway ⊢
  obtain ⟨made, recorded, touched⟩ := underway.records
  have targetScope := (scope_congr (underway.shape.role target.node) inner).mpr innerFound
  obtain ⟨_, targetRole, _⟩ := scope_ok_iff.mp targetScope
  refine ⟨underway.shape.trans (same_shape_connect _ _ _), underway.types, underway.pragmas,
    underway.wired.of_connect routing.current target underway.here targetScope,
    made ++ [(target, .wire routing.current routing.m.stamp)], ?_, ?_⟩
  · rw [← List.append_assoc]
    exact recorded.of_connect _ _ (lt_size_of_role targetRole)
  · rw [path_touches_append, relabel_append, touched, ← underway.current]
    rfl

/-! ### New nodes -/

-- Nodes may be added and listed, and no port changes.
structure Extends (m changed : Module) : Prop where
  role : ∀ {id role}, m.role? id = some role → changed.role? id = some role
  input : ∀ inlet, changed.input? inlet = m.input? inlet
  output : ∀ outlet, changed.output? outlet = m.output? outlet
  stamp : changed.stamp = m.stamp

namespace Extends

variable {m changed : Module}

theorem scope (extends_ : Extends m changed) {id scope : NodeId} (found : m.scopeOf id = .ok scope) :
    changed.scopeOf id = .ok scope := by
  obtain ⟨role, here, same⟩ := scope_ok_iff.mp found
  exact scope_ok_iff.mpr ⟨role, extends_.role here, same⟩

theorem wired (extends_ : Extends m changed) (wired : m.Wired) : changed.Wired := by
  refine ⟨fun {inlet source stamp} bound => ?_⟩
  rw [binding_eq_of_input (extends_.input inlet)] at bound
  obtain ⟨declared, scope, here, there⟩ := wired.wires bound
  exact ⟨by rw [extends_.output]; exact declared, scope, extends_.scope here, extends_.scope there⟩

theorem records (extends_ : Extends m changed) {history : Touches Binding}
    (records : m.Records history) : changed.Records history := by
  refine ⟨fun inlet => ?_, records.ascending, ?_⟩
  · rw [binding_eq_of_input (extends_.input inlet)]
    exact records.binding inlet
  · rw [extends_.stamp]
    exact records.bounded

theorem trans {third : Module} (here : Extends m changed) (later : Extends changed third) :
    Extends m third :=
  ⟨fun found => later.role (here.role found), fun inlet => (later.input inlet).trans (here.input inlet),
    fun outlet => (later.output outlet).trans (here.output outlet), later.stamp.trans here.stamp⟩

theorem of_pushed (node : Node) (inputs : node.inputs = .empty) (outputs : node.outputs = .empty) :
    Extends m (pushed node m) := by
  refine ⟨?_, ?_, ?_, rfl⟩
  · intro id role found
    rw [role_pushed, if_neg (Nat.ne_of_lt (lt_size_of_role found))]
    exact found
  · intro inlet
    simp only [input?, nodes_pushed]
    split
    · rename_i new
      simp [new, inputs]
    · rfl
  · intro outlet
    simp only [output?, nodes_pushed]
    split
    · rename_i new
      simp [new, outputs]
    · rfl

theorem of_modify (id : NodeId) (change : Node → Node) (role : ∀ node, (change node).role = node.role)
    (inputs : ∀ node, (change node).inputs = node.inputs)
    (outputs : ∀ node, (change node).outputs = node.outputs) :
    Extends m (modifyNode id change m) := by
  refine ⟨?_, input_modify m id change inputs, output_modify m id change outputs, rfl⟩
  intro query found here
  rw [role_modify m query role]
  exact here

theorem of_functions (functions : List NodeId) : Extends m { m with functions := functions } :=
  ⟨fun found => found, fun _ => rfl, fun _ => rfl, rfl⟩

theorem of_function (op : Opcode) (name : String) : Extends m (withFunction op name m) :=
  (of_pushed _ rfl rfl).trans (of_functions _)

theorem of_node (graph : NodeId) (op : Opcode) : Extends m (withNode graph op m) :=
  (of_pushed _ rfl rfl).trans (of_modify _ _ (fun _ => rfl) (fun _ => rfl) fun _ => rfl)

theorem of_child (compound child : NodeId) : Extends m (appendChild compound child m) :=
  of_modify _ _ (fun _ => rfl) (fun _ => rfl) fun _ => rfl

theorem of_graph (compound : NodeId) : Extends m (withGraph compound m) :=
  (of_pushed _ rfl rfl).trans (of_child _ _)

end Extends

end Dataflow.Module
