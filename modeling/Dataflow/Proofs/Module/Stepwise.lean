import Dataflow.Proofs.Module.Entrances
import Dataflow.Proofs.Module.Preorder
import Dataflow.Proofs.Module.Strict
set_option autoImplicit false

-- Construction with no look-up taken for granted: a node is looked up each time that it is read or changed,
-- and a look-up that fails half-way leaves behind what was changed before it.
namespace Dataflow.Module.Stepwise
open Read.Strict (outputTypeAt)

def changeNode (id : NodeId) (change : Node → Node) : Change Unit := do
  let _ ← Edit.query (·.node id)
  modify (modifyNode id change)

/-! ### Functions, nodes and child graphs -/

def addFunctionWith (name : String) (op : Opcode) : Change NodeId :=
  if op.isGraph then do
    let id ← addFunction name
    changeNode id fun node => { node with opcode := op }
    pure id
  else throw (.invalidGraph (.notAGraphKind op))

def addNode (graph : NodeId) (op : Opcode) : Change NodeId := do
  let _ ← Edit.query (·.graph graph)
  let id ← append { opcode := op, role := .node graph }
  changeNode graph fun owner => { owner with nodes := owner.nodes ++ [id] }
  pure id

def listChild (node graph : NodeId) : Change Unit :=
  changeNode node fun owner => { owner with children := owner.children ++ [graph] }

def addGraph (node : NodeId) : Change NodeId := do
  let owner ← Edit.query (·.node node)
  if owner.isGraph then throw (.invalidGraph (.ownerIsGraph node))
  let id ← append { opcode := .xGraph, role := .subgraph node }
  listChild node id
  pure id

def pushChild (node graph : NodeId) : Change Unit := do
  let child ← Edit.query (·.node graph)
  if child.role = .subgraph node then listChild node graph
  else throw (.invalidGraph (.notAChild graph node))

/-! ### Ports -/

def feed (inlet : Inlet) (binding : Option Binding) : Change Unit :=
  changeNode inlet.node (Node.modifyInput inlet.port fun input => { input with binding := binding })

def bindLiteral (inlet : Inlet) (literal : Literal) : Change Unit := do
  onTypes (TypeTable.requireLive literal.type)
  feed inlet none
  feed inlet (some (.literal literal))

def setLiteral (inlet : Inlet) (value : HostValue) : Change Unit := do
  Edit.ofExcept (checkPort inlet.port)
  let _ ← Edit.query (·.node inlet.node)
  let literal ← literalOf value
  bindLiteral inlet literal

def connect (source : Outlet) (target : Inlet) : Change Unit := do
  let _ ← Edit.query (·.node source.node)
  feed target none
  changeNode source.node (Node.modifyOutput source.port id)
  modify fun m => { bind target (.wire source m.stamp) m with stamp := m.stamp + 1 }

/-! ### Wires -/

-- The loop from the consumer outwards, with a bound on its turns.
def climb (m : Module) (hidden : Error) (outer : NodeId) : Nat → NodeId → Except Error (List Crossing)
  | 0, scope => if scope = outer then pure [] else throw hidden
  | turns + 1, scope => do
      if scope = outer then pure []
      else
        let node ← m.node scope
        match node.role with
        | .subgraph compound =>
            let next ← m.scopeOf compound
            (climb m hidden outer turns next).map (⟨compound, scope⟩ :: ·)
        | _ => throw hidden

def raise (m : Module) (top : Nat) (child : NodeId) : Except Error Nat := do
  let graph ← m.node child
  pure (max top graph.maxOutput)

def freePort (m : Module) (compound : NodeId) : Except Error Nat := do
  let node ← m.node compound
  let top ← node.distinctChildren.foldlM (raise m) node.maxInput
  pure ((top + 1) % Text.wordBound)

def declare (port : Nat) (output : Output) (child : NodeId) : Change Unit :=
  changeNode child fun graph => { graph with outputs := graph.outputs.insert port output }

def enter (way : Outlet × List Port) (crossing : Crossing) : Change (Outlet × List Port) := do
  let port ← Edit.query (freePort · crossing.compound)
  let type ← Edit.query (outputTypeAt · way.1)
  let entry : Inlet := ⟨crossing.compound, port⟩
  let exit : Outlet := ⟨crossing.child, port⟩
  connect way.1 entry
  let compound ← Edit.query (·.node crossing.compound)
  compound.distinctChildren.forM (declare port { type := type })
  pure (exit, way.2 ++ [.inlet entry, .outlet exit])

def wire (turns : Nat) (target : Inlet) (source : Outlet) : Change (List Port) := do
  Edit.ofExcept (checkPort target.port)
  Edit.ofExcept (checkPort source.port)
  let outer ← Edit.query (·.scopeOf source.node)
  let inner ← Edit.query (·.scopeOf target.node)
  let crossings ← Edit.query (climb · (.disconnected source target) outer turns inner)
  let (current, path) ← crossings.reverse.foldlM enter (source, [])
  connect current target
  pure (path ++ [.inlet target])

/-! ### Changes of nodes that are there -/

section Changes
variable {m : Module}

theorem change_node_run {id : NodeId} (change : Node → Node) (inside : id < m.nodes.size) :
    changeNode id change m = .ok () (modifyNode id change m) := by
  obtain ⟨node, found⟩ := exists_node_iff.mpr inside
  exact Edit.bind_query_of_ok (by exact node_ok_iff.mpr found)

end Changes

/-! ### Functions, nodes and child graphs again -/

theorem feed_run {m : Module} {inlet : Inlet} (binding : Option Binding) (inside : inlet.node < m.nodes.size) :
    feed inlet binding m = .ok () (modifyNode inlet.node
      (Node.modifyInput inlet.port fun input => { input with binding := binding }) m) :=
  change_node_run _ inside

theorem bind_literal_eq (inlet : Inlet) (literal : Literal) :
    bindLiteral inlet literal = Module.bindLiteral inlet literal := by
  funext m
  refine Edit.bind_congr fun _ middle _ => ?_
  cases found : middle.node inlet.node with
  | error error =>
      have missing : feed inlet none middle = .error error middle := Edit.bind_query_of_error (by exact found)
      exact (Edit.bind_of_error missing).trans (Edit.bind_query_of_error (by exact found)).symm
  | ok node =>
      have inside := exists_node_iff.mp ⟨node, node_ok_iff.mp found⟩
      have again : inlet.node < (unbind inlet middle).nodes.size := Nat.lt_of_lt_of_eq inside (size_modify _ _ _).symm
      refine (Edit.bind_of_ok (feed_run none inside)).trans ((feed_run _ again).trans ?_)
      refine Eq.trans ?_ (Edit.bind_query_of_ok (by exact found)).symm
      exact congrArg _ (bind_again inlet (.literal literal) middle)

theorem set_literal_eq (inlet : Inlet) (value : HostValue) : setLiteral inlet value = Module.setLiteral inlet value := by
  rw [Module.set_literal_eq]
  unfold setLiteral
  simp only [bind_literal_eq]

theorem connect_run {m : Module} {source : Outlet} {target : Inlet} (left : source.node < m.nodes.size)
    (entered : target.node < m.nodes.size) : connect source target m = .ok () (Module.connect source target m) := by
  obtain ⟨node, found⟩ := exists_node_iff.mpr left
  refine (Edit.bind_query_of_ok (by exact node_ok_iff.mpr found)).trans ((Edit.bind_of_ok (feed_run none entered)).trans ?_)
  refine (Edit.bind_of_ok (change_node_run _ ?_)).trans ?_
  · rw [size_modify]
    exact left
  · have same := bind_with_output target (.wire source m.stamp) source id (unbind target m)
    rw [bind_again] at same
    exact congrArg (fun wired : Module => EStateM.Result.ok () { wired with stamp := m.stamp + 1 }) same

/-! ### Wires again -/

section Wires
variable {m : Module}

section Climb
variable {hidden : Error} {outer scope : NodeId}

theorem climb_out {compound next : NodeId} (apart : scope ≠ outer) (role : m.role? scope = some (.subgraph compound))
    (plain : m.role? compound = some (.node next)) (turns : Nat) :
    climb m hidden outer (turns + 1) scope = (climb m hidden outer turns next).map (⟨compound, scope⟩ :: ·) := by
  obtain ⟨node, found, same⟩ := node_of_role role
  rw [climb, if_neg apart, Outcome.bind_of_ok (node_ok_iff.mpr found), same]
  exact Outcome.bind_of_ok (scope_of_plain plain)

theorem crossings_out {compound next : NodeId} (apart : scope ≠ outer) (role : m.role? scope = some (.subgraph compound))
    (plain : m.role? compound = some (.node next)) (turns : Nat) :
    m.crossings? outer (turns + 1) scope = (m.crossings? outer turns next).map (⟨compound, scope⟩ :: ·) := by
  have named : m.nodes[scope]?.map Node.role = some (.subgraph compound) := role
  rw [crossings?, if_neg apart, named]
  simp only [scope_of_plain plain]

theorem climb_stuck {role : Role} (apart : scope ≠ outer) (found : m.role? scope = some role)
    (rooted : ∀ compound, role ≠ .subgraph compound) (turns : Nat) : climb m hidden outer turns scope = .error hidden := by
  obtain ⟨node, here, same⟩ := node_of_role found
  cases turns with
  | zero => exact if_neg apart
  | succ turns =>
      rw [climb, if_neg apart, Outcome.bind_of_ok (node_ok_iff.mpr here), same]
      cases role with
      | subgraph compound => exact absurd rfl (rooted compound)
      | node | function => rfl

theorem crossings_stuck {role : Role} (apart : scope ≠ outer) (found : m.role? scope = some role)
    (rooted : ∀ compound, role ≠ .subgraph compound) (turns : Nat) : m.crossings? outer turns scope = none := by
  have named : m.nodes[scope]?.map Node.role = some role := found
  cases turns with
  | zero => exact if_neg apart
  | succ turns =>
      rw [crossings?, if_neg apart, named]
      cases role with
      | subgraph compound => exact absurd rfl (rooted compound)
      | node | function => rfl

-- Each turn of the loop leads to an earlier node, so any bound that is as high as the scope is high enough.
theorem climb_run (owned : m.Owned) (hidden : Error) (outer : NodeId) {turns steps : Nat} (inside : scope < m.nodes.size)
    (bound : scope ≤ turns) (boundToo : scope ≤ steps) :
    climb m hidden outer turns scope = (m.crossings? outer steps scope).elim (.error hidden) .ok := by
  induction scope using Nat.strong_induction_on generalizing turns steps with
  | h scope ih =>
      by_cases here : scope = outer
      · cases turns <;> cases steps <;> simp [climb, crossings?, here] <;> rfl
      obtain ⟨node, found⟩ := exists_node_iff.mpr inside
      have role := role_eq_some_of_node found
      by_cases nested : ∃ compound, node.role = .subgraph compound
      · obtain ⟨compound, same⟩ := nested
        rw [same] at role
        obtain ⟨before, next, plain⟩ := owned.inside role
        have below := Nat.lt_trans (owned.held plain).1 before
        cases turns with
        | zero => exact absurd (Nat.lt_of_lt_of_le below bound) (Nat.not_lt_zero _)
        | succ turns =>
            cases steps with
            | zero => exact absurd (Nat.lt_of_lt_of_le below boundToo) (Nat.not_lt_zero _)
            | succ steps =>
                have lower := Nat.le_of_lt_succ (Nat.lt_of_lt_of_le below bound)
                have lowerToo := Nat.le_of_lt_succ (Nat.lt_of_lt_of_le below boundToo)
                have above := ih next below (Nat.lt_trans below inside) lower lowerToo
                rw [climb_out here role plain, crossings_out here role plain, above]
                cases m.crossings? outer steps next <;> rfl
      · have rooted : ∀ compound, node.role ≠ .subgraph compound := fun compound same => nested ⟨compound, same⟩
        rw [climb_stuck here role rooted, crossings_stuck here role rooted]
        rfl

end Climb

theorem raise_run {children : List NodeId} (inside : ∀ child ∈ children, child < m.nodes.size) (top : Nat) :
    children.foldlM (raise m) top =
      .ok (children.foldl (fun top child => max top (m.nodes[child]?.map Node.maxOutput |>.getD 0)) top) := by
  induction children generalizing top with
  | nil => rfl
  | cons child rest ih =>
      obtain ⟨here, later⟩ := List.forall_mem_cons.mp inside
      obtain ⟨graph, found⟩ := exists_node_iff.mpr here
      have raised : raise m top child = .ok (max top graph.maxOutput) := Outcome.bind_of_ok (node_ok_iff.mpr found)
      rw [List.foldlM_cons, Outcome.bind_of_ok raised, List.foldl_cons, found]
      exact ih later _

theorem child_inside (owned : m.Owned) {id child : NodeId} {node : Node} (found : m.nodes[id]? = some node)
    (member : child ∈ node.distinctChildren) : child < m.nodes.size := by
  rw [mem_distinct_children, ← children_of_node found] at member
  exact lt_size_of_role (owned.child member)

theorem free_port_run (owned : m.Owned) {compound : NodeId} (inside : compound < m.nodes.size) :
    freePort m compound = .ok (m.freePort compound) := by
  obtain ⟨node, found⟩ := exists_node_iff.mpr inside
  have raised := raise_run (fun _ member => child_inside owned found member) node.maxInput
  unfold freePort Module.freePort topPort
  rw [Outcome.bind_of_ok (node_ok_iff.mpr found), Outcome.bind_of_ok raised, found]
  rfl

theorem output_type_run {outlet : Outlet} (inside : outlet.node < m.nodes.size) :
    outputTypeAt m outlet = .ok (m.outputType? outlet) := by
  obtain ⟨node, found⟩ := exists_node_iff.mpr inside
  unfold outputTypeAt outputType?
  rw [Outcome.bind_of_ok (node_ok_iff.mpr found), output_eq_of_node found]
  rfl

theorem declare_run (port : Nat) (output : Output) {children : List NodeId}
    (inside : ∀ child ∈ children, child < m.nodes.size) :
    children.forM (declare port output) m = .ok () (children.foldl (fun m child => modifyNode child (fun graph =>
      { graph with outputs := graph.outputs.insert port output }) m) m) := by
  induction children generalizing m with
  | nil => rfl
  | cons child rest ih =>
      obtain ⟨here, later⟩ := List.forall_mem_cons.mp inside
      refine (Edit.bind_of_ok (change_node_run _ here)).trans (ih fun other member => ?_)
      rw [size_modify]
      exact later other member

theorem enter_run {routing : Routing Module} {crossing : Crossing} (owned : routing.m.Owned)
    (left : routing.current.node < routing.m.nodes.size) (inside : crossing.compound < routing.m.nodes.size) :
    enter (routing.current, routing.path) crossing routing.m =
      .ok ((routing.enter crossing).current, (routing.enter crossing).path) (routing.enter crossing).m := by
  let entry : Inlet := ⟨crossing.compound, routing.m.freePort crossing.compound⟩
  have connected := same_shape_connect routing.current entry routing.m
  obtain ⟨before, held⟩ := exists_node_iff.mpr inside
  obtain ⟨node, found⟩ := exists_node_iff.mpr (connected.size ▸ inside)
  have same : before.distinctChildren = node.distinctChildren := by
    have children := connected.children crossing.compound
    rw [children_of_node held, children_of_node found] at children
    simp [Node.distinctChildren, children]
  have known := fun child => @child_inside _ (owned.of_same_shape connected) _ child _ found
  refine (Edit.bind_query_of_ok (by exact free_port_run owned inside)).trans ?_
  refine (Edit.bind_query_of_ok (by exact output_type_run left)).trans ?_
  refine (Edit.bind_of_ok (connect_run left inside)).trans ?_
  refine (Edit.bind_query_of_ok (by exact node_ok_iff.mpr found)).trans ?_
  refine (Edit.bind_of_ok (declare_run _ _ known)).trans ?_
  rw [Routing.enter_eq, held, ← same]
  rfl

theorem route_run {source : Outlet} {outer scope : NodeId} {crossings : List Crossing} {history : Touches Binding}
    (owned : m.Owned) (wired : m.Wired) (records : m.Records history)
    (start : m.scopeOf source.node = .ok outer) (leads : m.Leads outer crossings scope) :
    let routing := crossings.reverse.foldl Routing.enter ⟨m, source, []⟩
    crossings.reverse.foldlM enter (source, []) m = .ok (routing.current, routing.path) routing.m := by
  induction crossings generalizing scope with
  | nil => rfl
  | cons crossing rest ih =>
      obtain ⟨_, _, next, outside, above⟩ := leads
      have underway := underway_route wired records start above
      rw [List.reverse_cons, List.foldl_append, List.foldlM_append]
      refine (Edit.bind_of_ok (ih above)).trans ?_
      rw [List.foldlM_cons]
      refine (Edit.bind_of_ok (enter_run (owned.of_same_shape underway.shape) ?_ ?_)).trans rfl
      · exact lt_size_of_scope underway.here
      · rw [underway.shape.size]
        exact lt_size_of_scope outside

theorem wire_eq {history : Touches Binding} (sound : m.Sound history) {turns : Nat} (bound : m.nodes.size ≤ turns)
    (target : Inlet) (source : Outlet) : wire turns target source m = Module.wire target source m := by
  refine Edit.checked_congr fun _ _ => Edit.checked_congr fun _ _ => ?_
  refine Edit.found_congr fun outer left => Edit.found_congr fun inner entered => ?_
  rw [Edit.bind_get]
  have inside := lt_size_of_scope entered
  have below := Nat.lt_of_le_of_lt (scope_le sound.owned entered) inside
  have first := Nat.le_of_lt below
  have climbed := climb_run sound.owned (.disconnected source target) outer below (Nat.le_trans first bound) first
  cases crossing : m.crossings? outer m.nodes.size inner with
  | none =>
      rw [crossing] at climbed
      exact Edit.bind_query_of_error (by exact climbed)
  | some crossings =>
      rw [crossing] at climbed
      have leads := crossings_lead crossing
      have underway := underway_route sound.wired sound.records left leads
      refine (Edit.bind_query_of_ok (by exact climbed)).trans ?_
      refine (Edit.bind_of_ok (route_run sound.owned sound.wired sound.records left leads)).trans ?_
      refine (Edit.bind_of_ok (connect_run (lt_size_of_scope underway.here) ?_)).trans rfl
      rw [underway.shape.size]
      exact inside

end Wires

end Dataflow.Module.Stepwise
