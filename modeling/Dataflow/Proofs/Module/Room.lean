import Dataflow.Proofs.Module.Requested
import Dataflow.Proofs.Module.Reading
set_option autoImplicit false

-- Ports are numbered from 1, and a compound that a wire enters takes the value in at the port after its last
-- one. After the last number of 32 bits comes port 0, so a wire has room where no compound on its way has a
-- port of that number.
namespace Dataflow.Module
open Text (wordBound)
open Touches

/-! ### The highest port -/

section Fold
variable {α : Type} (size : α → Nat)

theorem le_fold_max (values : List α) (top : Nat) :
    top ≤ values.foldl (fun top value => max top (size value)) top := by
  induction values generalizing top with
  | nil => exact Nat.le_refl top
  | cons value rest ih => exact Nat.le_trans (Nat.le_max_left _ _) (ih _)

theorem size_le_fold_max {values : List α} {value : α} (member : value ∈ values) (top : Nat) :
    size value ≤ values.foldl (fun top value => max top (size value)) top := by
  induction values generalizing top with
  | nil => cases member
  | cons first rest ih =>
      rcases List.mem_cons.mp member with rfl | later
      · exact Nat.le_trans (Nat.le_max_right _ _) (le_fold_max size rest _)
      · exact ih later _

theorem fold_max_le {values : List α} {top bound : Nat} (start : top ≤ bound)
    (below : ∀ value ∈ values, size value ≤ bound) :
    values.foldl (fun top value => max top (size value)) top ≤ bound := by
  induction values generalizing top with
  | nil => exact start
  | cons value rest ih =>
      refine ih (Nat.max_le.mpr ⟨start, below value List.mem_cons_self⟩) fun other member => ?_
      exact below other (List.mem_cons_of_mem _ member)

end Fold

theorem distinct_children_mem {m : Module} {compound child : NodeId} :
    child ∈ (m.nodes[compound]?.map Node.distinctChildren).getD [] ↔ child ∈ m.childrenOf compound := by
  unfold childrenOf Node.distinctChildren
  cases m.nodes[compound]? with
  | none => exact .rfl
  | some node => exact List.mem_eraseDups

section TopPort
variable {m changed : Module} {compound child port : Nat}

theorem input_le_top_port (held : (m.input? ⟨compound, port⟩).isSome) : port ≤ m.topPort compound := by
  cases found : m.nodes[compound]? with
  | none => simp [input?, found] at held
  | some node =>
      rw [input_eq_of_node found] at held
      unfold topPort
      rw [found]
      exact Nat.le_trans (SortedMap.le_last_key held) (le_fold_max _ _ _)

theorem output_le_top_port (member : child ∈ m.childrenOf compound) (held : (m.output? ⟨child, port⟩).isSome) :
    port ≤ m.topPort compound := by
  obtain ⟨graph, inside⟩ := exists_node_iff.mpr (lt_size_of_output held)
  rw [output_eq_of_node inside] at held
  have listed := distinct_children_mem.mpr member
  cases found : m.nodes[compound]? with
  | none => simp [found] at listed
  | some node =>
      rw [found] at listed
      have counted := size_le_fold_max (fun child => m.nodes[child]?.map Node.maxOutput |>.getD 0) listed node.maxInput
      simp only [inside, Option.map_some, Option.getD_some] at counted
      unfold topPort
      rw [found]
      exact Nat.le_trans (SortedMap.le_last_key held) counted

theorem top_port_le {bound : Nat} (inputs : ∀ {port}, (m.input? ⟨compound, port⟩).isSome → port ≤ bound)
    (outputs : ∀ {child port}, child ∈ m.childrenOf compound → (m.output? ⟨child, port⟩).isSome → port ≤ bound) :
    m.topPort compound ≤ bound := by
  unfold topPort
  cases found : m.nodes[compound]? with
  | none => exact Nat.zero_le bound
  | some node =>
      refine fold_max_le _ (SortedMap.last_key_le fun {port} held => ?_) fun child listed => ?_
      · exact inputs (by rw [input_eq_of_node found]; exact held)
      · cases inside : m.nodes[child]? with
        | none => exact Nat.zero_le bound
        | some graph =>
            have member : child ∈ m.childrenOf compound := distinct_children_mem.mp (by rw [found]; exact listed)
            refine SortedMap.last_key_le fun {port} held => outputs member ?_
            rw [output_eq_of_node inside]
            exact held

theorem top_port_congr (children : changed.childrenOf compound = m.childrenOf compound)
    (inputs : ∀ port, changed.input? ⟨compound, port⟩ = m.input? ⟨compound, port⟩)
    (outputs : ∀ child ∈ m.childrenOf compound, ∀ port, changed.output? ⟨child, port⟩ = m.output? ⟨child, port⟩) :
    changed.topPort compound = m.topPort compound := by
  refine Nat.le_antisymm (top_port_le (fun held => ?_) fun member held => ?_)
    (top_port_le (fun held => ?_) fun member held => ?_)
  · exact input_le_top_port (by rw [← inputs]; exact held)
  · rw [children] at member
    exact output_le_top_port member (by rw [← outputs _ member]; exact held)
  · exact input_le_top_port (by rw [inputs]; exact held)
  · exact output_le_top_port (by rw [children]; exact member) (by rw [outputs _ member]; exact held)

theorem free_port_eq (room : m.topPort compound + 1 < wordBound) : m.freePort compound = m.topPort compound + 1 :=
  Nat.mod_eq_of_lt room

theorem free_port_input (room : m.topPort compound + 1 < wordBound) : m.input? ⟨compound, m.freePort compound⟩ = none := by
  refine Option.not_isSome_iff_eq_none.mp fun held => ?_
  have below := input_le_top_port held
  rw [free_port_eq room] at below
  exact Nat.lt_irrefl _ below

theorem free_port_output (room : m.topPort compound + 1 < wordBound) (member : child ∈ m.childrenOf compound) :
    m.output? ⟨child, m.freePort compound⟩ = none := by
  refine Option.not_isSome_iff_eq_none.mp fun held => ?_
  have below := output_le_top_port member held
  rw [free_port_eq room] at below
  exact Nat.lt_irrefl _ below

end TopPort

/-! ### What lies further in -/

section Inside
variable {m : Module} {compound scope : NodeId}

theorem scope_unique {id other : NodeId} (here : m.scopeOf id = .ok scope) (there : m.scopeOf id = .ok other) :
    scope = other :=
  Except.ok.inj (here.symm.trans there)

theorem scope_lt_of_plain (owned : m.Owned) (plain : ∃ graph, m.role? compound = some (.node graph))
    (outside : m.scopeOf compound = .ok scope) : scope < compound := by
  obtain ⟨graph, role⟩ := plain
  obtain ⟨_, found, rfl⟩ := scope_ok_iff.mp outside
  rw [role] at found
  cases found
  exact (owned.held role).1

end Inside

-- A wire that has come to `scope` has changed ports of the compounds on its way and of their child graphs.
structure Ahead (m : Module) (scope : NodeId) (routing : Routing Module) : Prop where
  shape : SameShape m routing.m
  here : m.scopeOf routing.current.node = .ok scope
  inputs : ∀ {inlet}, scope < inlet.node → routing.m.input? inlet = m.input? inlet
  outputs : ∀ {outlet compound}, m.role? outlet.node = some (.subgraph compound) → scope < compound →
    routing.m.output? outlet = m.output? outlet

theorem Ahead.top_port {m : Module} {scope compound : NodeId} {routing : Routing Module} (ahead : Ahead m scope routing)
    (owned : m.Owned) (further : scope < compound) : routing.m.topPort compound = m.topPort compound :=
  top_port_congr (ahead.shape.children compound) (fun _ => ahead.inputs further)
    fun _ member _ => ahead.outputs (owned.child member) further

theorem output_apart_of_declare {output : Output} {port : Nat} {children : List NodeId} {m : Module} {outlet : Outlet}
    (apart : outlet.node ∉ children) :
    (children.foldl (fun m child => modifyNode child (fun graph =>
      { graph with outputs := graph.outputs.insert port output }) m) m).output? outlet = m.output? outlet := by
  induction children generalizing m with
  | nil => rfl
  | cons child rest ih =>
      obtain ⟨other, later⟩ := not_or.mp (mt List.mem_cons.mpr apart)
      refine (ih later).trans ?_
      simp only [output?, nodes_modify, if_neg other]

theorem ahead_enter {m : Module} {scope : NodeId} {routing : Routing Module} {crossing : Crossing} (owned : m.Owned)
    (ahead : Ahead m scope routing) (located : m.scopeOf crossing.compound = .ok scope)
    (role : m.role? crossing.child = some (.subgraph crossing.compound)) :
    Ahead m crossing.child (routing.enter crossing) := by
  obtain ⟨above, plain⟩ := owned.inside role
  have below := scope_lt_of_plain owned plain located
  have inside : crossing.compound < routing.m.nodes.size := by
    rw [ahead.shape.size]
    exact lt_size_of_scope located
  have known : routing.current.node < routing.m.nodes.size := by
    rw [ahead.shape.size]
    exact lt_size_of_scope ahead.here
  have declares := calm_declare { type := routing.m.outputType? routing.current } (routing.m.freePort crossing.compound)
    ((routing.m.nodes[crossing.compound]?.map Node.distinctChildren).getD [])
    (connect routing.current ⟨crossing.compound, routing.m.freePort crossing.compound⟩ routing.m)
  constructor
  case shape => exact (ahead.shape.trans (same_shape_connect _ _ _)).trans declares.shape
  case here => exact scope_ok_iff.mpr ⟨_, role, rfl⟩
  case inputs =>
    intro inlet further
    refine (input_declare _ _ _ _ inlet).trans ((input_connect _ (by exact inside) inlet).trans ?_)
    rw [if_neg fun same => ?_]
    · exact ahead.inputs (Nat.lt_trans below (Nat.lt_trans above further))
    · rw [same] at further
      exact Nat.lt_asymm above further
  case outputs =>
    intro outlet compound child further
    have different : crossing.compound ≠ compound := Nat.ne_of_lt (Nat.lt_trans above further)
    refine (output_apart_of_declare fun member => ?_).trans ((output_connect _ outlet known).trans ?_)
    · have listed : outlet.node ∈ routing.m.childrenOf crossing.compound := distinct_children_mem.mp member
      rw [ahead.shape.children] at listed
      exact different (Role.subgraph.inj (Option.some.inj ((owned.child listed).symm.trans child)))
    · rw [if_neg fun same => ?_]
      · exact ahead.outputs child (Nat.lt_trans below (Nat.lt_trans above further))
      · rw [same] at child
        have itself := scope_unique ahead.here (scope_ok_iff.mpr ⟨_, child, rfl⟩)
        have later := (owned.inside child).1
        change scope = routing.current.node at itself
        rw [← itself] at later
        exact Nat.lt_asymm (Nat.lt_trans below above) (Nat.lt_trans further later)

theorem ahead_route {m : Module} {source : Outlet} {outer scope : NodeId} {crossings : List Crossing} (owned : m.Owned)
    (start : m.scopeOf source.node = .ok outer) (leads : m.Leads outer crossings scope) :
    Ahead m scope (crossings.reverse.foldl Routing.enter ⟨m, source, []⟩) := by
  rw [List.foldl_reverse]
  induction crossings generalizing scope with
  | nil =>
      cases leads
      exact ⟨.refl m, start, fun _ => rfl, fun _ _ => rfl⟩
  | cons crossing rest ih =>
      obtain ⟨rfl, role, next, located, above⟩ := leads
      exact ahead_enter owned (ih above) located role

/-! ### Room -/

-- The compounds that a wire enters, innermost first.
def compoundsBetween (m : Module) (target : Inlet) (source : Outlet) : List NodeId :=
  match m.scopeOf source.node, m.scopeOf target.node with
  | .ok outer, .ok inner => ((m.crossings? outer m.nodes.size inner).getD []).map Crossing.compound
  | _, _ => []

def HasRoom (m : Module) (target : Inlet) (source : Outlet) : Prop :=
  ∀ compound ∈ m.compoundsBetween target source, m.topPort compound + 1 < wordBound

instance (m : Module) (target : Inlet) (source : Outlet) : Decidable (m.HasRoom target source) :=
  inferInstanceAs (Decidable (∀ _ ∈ _, _))

def Request.HasRoom (m : Module) : Request → Prop
  | .wire target source => m.HasRoom target source
  | _ => True

instance (m : Module) (request : Request) : Decidable (request.HasRoom m) := by
  cases request <;> unfold Request.HasRoom <;> infer_instance

-- No wire of a run comes to a compound whose port numbers have run out.
def Roomy (m : Module) : List Request → Prop
  | [] => True
  | request :: rest => request.HasRoom m ∧ Roomy (request.after m) rest

def decideRoomy (m : Module) : (requests : List Request) → Decidable (Roomy m requests)
  | [] => .isTrue trivial
  | request :: rest =>
      @instDecidableAnd _ _ (inferInstanceAs (Decidable (request.HasRoom m))) (decideRoomy (request.after m) rest)

instance (m : Module) (requests : List Request) : Decidable (Roomy m requests) :=
  decideRoomy m requests

-- Node 3 of the child graph of compound 1 reads from the function, and the compound has the last port.
def crowded : List Request :=
  [.addFunction "f", .addNode 0 .ifThenElse, .addInput ⟨1, 4294967295⟩, .addGraph 1, .addNode 2 .noOp,
    .wire ⟨3, 1⟩ ⟨0, 1⟩]

theorem HasRoom.of_crossing {m : Module} {target : Inlet} {source : Outlet} {outer inner : NodeId}
    {crossings : List Crossing} {crossing : Crossing} (room : m.HasRoom target source)
    (left : m.scopeOf source.node = .ok outer) (entered : m.scopeOf target.node = .ok inner)
    (crossed : m.crossings? outer m.nodes.size inner = some crossings) (member : crossing ∈ crossings) :
    m.topPort crossing.compound + 1 < wordBound := by
  refine room _ ?_
  rw [compoundsBetween, left, entered]
  simp only [crossed, Option.getD_some]
  exact List.mem_map_of_mem member

/-! ### Positive ports -/

def PositiveAt (m : Module) (id : NodeId) : Prop :=
  ∀ port, (m.input? ⟨id, port⟩).isSome ∨ (m.output? ⟨id, port⟩).isSome → 1 ≤ port

def Positive (m : Module) : Prop :=
  ∀ id, m.PositiveAt id

namespace PositiveAt
variable {m changed : Module} {id : NodeId}

theorem of_empty (inputs : ∀ port, m.input? ⟨id, port⟩ = none) (outputs : ∀ port, m.output? ⟨id, port⟩ = none) :
    m.PositiveAt id := by
  intro port held
  rw [inputs, outputs] at held
  exact absurd held (by decide)

theorem of_size (beyond : m.nodes.size ≤ id) : m.PositiveAt id :=
  of_empty (fun _ => by simp [input?, beyond]) fun _ => by simp [output?, beyond]

theorem of_quiet (quiet : Quiet m changed) (positive : m.PositiveAt id) : changed.PositiveAt id := by
  rintro port (held | held)
  · exact (quiet.inputs _ held).elim (fun before => positive port (.inl before)) fun low => low
  · exact (quiet.outputs _ held).elim (fun before => positive port (.inr before)) fun low => low

theorem of_extends (extends_ : Extends m changed) (positive : m.PositiveAt id) : changed.PositiveAt id := by
  intro port held
  rw [extends_.input, extends_.output] at held
  exact positive port held

theorem of_literal {target : Inlet} (literal : Literal) (inside : target.node < m.nodes.size) (low : 1 ≤ target.port)
    (positive : m.PositiveAt id) : (bind target (.literal literal) m).PositiveAt id := by
  intro port held
  rw [input_bind _ inside, output_bind] at held
  split at held
  · rename_i same
    rw [← same] at low
    exact low
  · exact positive port held

theorem of_connect {source : Outlet} {target : Inlet} (sourceInside : source.node < m.nodes.size)
    (targetInside : target.node < m.nodes.size) (sourceLow : source.node = id → 1 ≤ source.port)
    (targetLow : target.node = id → 1 ≤ target.port) (positive : m.PositiveAt id) :
    (connect source target m).PositiveAt id := by
  rintro port (held | held)
  · rw [input_connect source targetInside] at held
    split at held
    · rename_i same
      rw [← same] at targetLow
      exact targetLow rfl
    · exact positive port (.inl held)
  · rw [output_connect source _ sourceInside] at held
    split at held
    · rename_i same
      rw [← same] at sourceLow
      exact sourceLow rfl
    · exact positive port (.inr held)

theorem of_declare {output : Output} {port : Nat} {children : List NodeId} (low : id ∈ children → 1 ≤ port)
    (positive : m.PositiveAt id) :
    (children.foldl (fun m child => modifyNode child (fun graph =>
      { graph with outputs := graph.outputs.insert port output }) m) m).PositiveAt id := by
  rintro query (held | held)
  · rw [input_declare] at held
    exact positive query (.inl held)
  · rcases output_declare held with before | ⟨member, same⟩
    · exact positive query (.inr before)
    · change query = port at same
      rw [same]
      exact low member

end PositiveAt

-- Nothing that a wire enters, at a module of this shape.
def Rooted (m : Module) (id : NodeId) : Prop :=
  ∀ role, m.role? id = some role → ∃ name, role = .function name

-- A wire numbers the ports of functions from 1 wherever it leads, and all ports where it has room.
theorem positive_route {m : Module} {source : Outlet} {outer scope id : NodeId} {crossings : List Crossing}
    (owned : m.Owned) (low : 1 ≤ source.port) (start : m.scopeOf source.node = .ok outer)
    (leads : m.Leads outer crossings scope) (positive : m.PositiveAt id)
    (room : (∀ crossing ∈ crossings, m.topPort crossing.compound + 1 < wordBound) ∨ m.Rooted id) :
    let routing := crossings.reverse.foldl Routing.enter ⟨m, source, []⟩
    routing.m.PositiveAt id ∧ (routing.current.node = id → 1 ≤ routing.current.port) := by
  rw [List.foldl_reverse]
  induction crossings generalizing scope with
  | nil => exact ⟨positive, fun _ => low⟩
  | cons crossing rest ih =>
      obtain ⟨rfl, role, next, located, above⟩ := leads
      have ahead := ahead_route owned start above
      rw [List.foldl_reverse] at ahead
      obtain ⟨before, current⟩ := ih above
        (room.imp_left fun room other member => room other (List.mem_cons_of_mem _ member))
      rw [List.foldr_cons]
      generalize rest.foldr (fun crossing routing => Routing.enter routing crossing) ⟨m, source, []⟩ = routing
        at ahead before current ⊢
      obtain ⟨_, graph, plain⟩ := owned.inside role
      have below := scope_lt_of_plain owned ⟨graph, plain⟩ located
      have free : id = crossing.compound ∨ (∃ compound, m.role? id = some (.subgraph compound)) →
          1 ≤ routing.m.freePort crossing.compound := by
        intro entered
        rcases room with room | rooted
        · have same := ahead.top_port owned below
          rw [free_port_eq (by rw [same]; exact room crossing List.mem_cons_self)]
          exact Nat.le_add_left 1 _
        · rcases entered with rfl | ⟨compound, child⟩
          · cases (rooted _ plain).choose_spec
          · cases (rooted _ child).choose_spec
      refine ⟨.of_declare (fun member => ?_) (.of_connect ?_ ?_ current (fun same => ?_) before), fun same => ?_⟩
      · have listed : id ∈ routing.m.childrenOf crossing.compound := distinct_children_mem.mp member
        rw [ahead.shape.children] at listed
        exact free (.inr ⟨_, owned.child listed⟩)
      · rw [ahead.shape.size]
        exact lt_size_of_scope ahead.here
      · rw [ahead.shape.size]
        exact lt_size_of_scope located
      · exact free (.inl same.symm)
      · exact free (.inr ⟨_, by rw [← same]; exact role⟩)

theorem positive_wire {m changed : Module} {target : Inlet} {source : Outlet} {path : List Port} {id : NodeId}
    (owned : m.Owned) (done : wire target source m = .ok path changed) (room : m.HasRoom target source ∨ m.Rooted id)
    (positive : m.PositiveAt id) : changed.PositiveAt id := by
  obtain ⟨targetLow, sourceLow, outer, inner, crossings, left, entered, leads, crossed, _, rfl⟩ := wire_ok done
  obtain ⟨before, current⟩ := positive_route owned sourceLow left leads positive
    (room.imp_left fun room crossing member => room.of_crossing left entered crossed member)
  have ahead := ahead_route owned left leads
  refine .of_connect ?_ ?_ current (fun _ => targetLow) before
  · rw [ahead.shape.size]
    exact lt_size_of_scope ahead.here
  · rw [ahead.shape.size]
    exact lt_size_of_scope entered

theorem positive_request {m : Module} {history : Touches Binding} {id : NodeId} (sound : m.Sound history)
    (request : Request) (room : request.HasRoom m ∨ m.Rooted id) (positive : m.PositiveAt id) :
    (request.after m).PositiveAt id := by
  have answered := answered_request m request
  generalize request.after m = changed at answered ⊢
  cases answered with
  | quiet _ _ quiet => exact positive.of_quiet quiet
  | function op name _ _ => exact positive.of_extends (.of_function op name)
  | node op _ => exact positive.of_extends (.of_node _ op)
  | graph _ => exact positive.of_extends (.of_graph _)
  | child _ => exact positive.of_extends (.of_child _ _)
  | wire done => exact positive_wire sound.owned done room positive
  | literal _ _ quiet low inside => exact (positive.of_quiet quiet).of_literal _ inside low

theorem rooted_of_request {m : Module} {history : Touches Binding} {id : NodeId} (sound : m.Sound history)
    {request : Request} (rooted : (request.after m).Rooted id) : m.Rooted id :=
  fun role found => rooted role (role_of_reshaped (reshaped_request sound request) found)

theorem rooted_of_run {m : Module} {history : Touches Binding} {id : NodeId} (sound : m.Sound history)
    {requests : List Request} (rooted : (run m requests).Rooted id) : m.Rooted id := by
  induction requests generalizing m history with
  | nil => exact rooted
  | cons request rest ih =>
      obtain ⟨_, kept, _⟩ := sound_request request sound
      exact rooted_of_request sound (ih kept rooted)

theorem positive_run {m : Module} {history : Touches Binding} {id : NodeId} (sound : m.Sound history)
    {requests : List Request} (room : Roomy m requests ∨ (run m requests).Rooted id) (positive : m.PositiveAt id) :
    (run m requests).PositiveAt id := by
  induction requests generalizing m history with
  | nil => exact positive
  | cons request rest ih =>
      obtain ⟨_, kept, _⟩ := sound_request request sound
      have here : request.HasRoom m ∨ m.Rooted id :=
        room.imp And.left fun rooted => rooted_of_request sound (rooted_of_run kept rooted)
      exact ih kept (room.imp_left And.right) (positive_request sound request here positive)

namespace Read
open Record (Word)

theorem positive_fed {graph : NodeId} {m changed : Module} {pending : Pending} (owned : m.Owned)
    (isGraph : m.IsGraph graph) (positive : m.Positive) (fed : Fed graph (m.nodesOf graph) m pending changed) :
    changed.Positive := by
  intro id
  cases fed with
  | wire feed sourceAt targetAt sourceLow targetLow =>
      rename_i label port source target
      have quiet := quiet_offered ⟨source, port⟩ sourceLow pending.type m
      have inside : ∀ {node}, m.scopeOf node = .ok graph → node < (offered ⟨source, port⟩ pending.type m).nodes.size := by
        intro node located
        rw [quiet.shape.size]
        exact lt_size_of_scope located
      refine .of_quiet (quiet_noted targetLow _ _) (.of_connect ?_ ?_ (fun _ => sourceLow) (fun _ => targetLow)
        ((positive id).of_quiet quiet))
      · exact inside (node_at_scope owned isGraph sourceAt)
      · exact inside (node_at_scope owned isGraph targetAt)
  | text feed targetAt low held =>
      exact ((positive id).of_literal _ (lt_size_of_scope (node_at_scope owned isGraph targetAt)) low).of_quiet
        (quiet_noted low _ _)

theorem positive_action {labels : List Nat} {state next : State} {touches : Touches Supply}
    {history : Touches Binding} (sound : StateSound state history) (positive : state.m.Positive)
    (action : Action labels state touches next) : next.m.Positive := by
  cases action with
  | close done =>
      exact (end_graph_keeps Positive sound.sound.owned (sound.scopes _ List.mem_cons_self) positive
        (fun _ _ _ owned isGraph positive fed => positive_fed owned isGraph positive fed) done).1
  | @function m declared line record type single parsed typed declares =>
      intro id
      have quiet := quiet_declare_arguments m.nodes.size type
        (setNodePragmas m.nodes.size record.pragmas (withFunction .xGraph record.name m))
      rw [Edit.after_of_ok declares] at quiet
      exact (((positive id).of_extends (.of_function .xGraph record.name)).of_quiet
        (.of_node_pragmas _ _ _)).of_quiet quiet
  | node => exact fun id => ((positive id).of_extends (.of_node _ _)).of_quiet (.of_node_pragmas _ _ _)
  | compound => exact fun id => (positive id).of_extends (.of_node _ _)
  | subgraph => exact fun id => ((positive id).of_extends (.of_graph _)).of_quiet (.of_node_pragmas _ _ _)
  | trailer =>
      exact fun id => (positive id).of_extends (.of_modify _ _ (fun _ => rfl) (fun _ => rfl) fun _ => rfl)
  | edge | literal => exact positive

theorem positive_actions {labels : List Nat} {state final : State} {touches : Touches Supply}
    {history : Touches Binding} (sound : StateSound state history) (positive : state.m.Positive)
    (run : Actions labels state touches final) : final.m.Positive := by
  induction run generalizing history with
  | nil => exact positive
  | cons action _ ih =>
      obtain ⟨_, kept, _⟩ := sound_action sound action
      exact ih kept (positive_action sound positive action)

theorem positive_build {document : Document} {m : Module} (single : ∀ entry ∈ document.body, '\n' ∉ entry.2)
    (done : build document = .ok m) : m.Positive :=
  positive_actions (start_sound document) (fun _ => .of_size (Nat.zero_le _)) (build_actions single done)

/-! ### Ports of an accepted text -/

def Pending.Ported (pending : Pending) : Prop :=
  1 ≤ pending.port ∧ ∀ {label port}, pending.feed = .wire label port → 1 ≤ port

def Scope.Ported : Scope → Prop
  | .graph _ pendings => ∀ pending ∈ pendings, pending.Ported
  | .compound _ _ _ => True

theorem ported_of_resolve {graph : NodeId} {nodes : List NodeId} {m changed : Module} {pending : Pending}
    (done : resolve graph nodes m pending = .ok changed) : pending.Ported := by
  unfold resolve at done
  cases feed : pending.feed with
  | wire label port =>
      rw [feed] at done
      obtain ⟨_, _, done⟩ := Outcome.bind_ok done
      obtain ⟨_, _, done⟩ := Outcome.bind_ok done
      obtain ⟨_, applied, _⟩ := Outcome.bind_ok done
      have feeding := apply_ok applied
      rw [feed_wire_eq] at feeding
      obtain ⟨_, _, _, feeding⟩ := Edit.bind_ok feeding
      obtain ⟨_, _, wiring, _⟩ := Edit.bind_ok feeding
      have step := wire_ok wiring
      refine ⟨step.targetNumbered, fun same => ?_⟩
      cases feed.symm.trans same
      exact step.sourceNumbered
  | text text =>
      rw [feed] at done
      obtain ⟨_, _, done⟩ := Outcome.bind_ok done
      obtain ⟨_, applied, _⟩ := Outcome.bind_ok done
      refine ⟨(feed_text_ok (apply_ok applied)).1, fun same => ?_⟩
      cases feed.symm.trans same

theorem ported_of_end_graph {id : NodeId} {pendings : List Pending} {m changed : Module}
    (done : endGraph id pendings m = .ok changed) : Scope.Ported (.graph id pendings) := by
  intro pending member
  obtain ⟨_, _, resolved⟩ := Outcome.fold_m_member done member
  exact ported_of_resolve resolved

-- A port 0 would be refused when its graph ends, so none waits in a reading that succeeds.
theorem ported_of_action {labels : List Nat} {state next : State} {touches : Touches Supply}
    (action : Action labels state touches next) (ported : ∀ scope ∈ next.scopes, scope.Ported) :
    ∀ scope ∈ state.scopes, scope.Ported := by
  cases action with
  | close done => exact List.forall_mem_cons.mpr ⟨ported_of_end_graph done, ported⟩
  | function => exact fun _ member => by cases member
  | node => exact ported
  | compound => exact (List.forall_mem_cons.mp ported).2
  | subgraph =>
      have rest := (List.forall_mem_cons.mp (List.forall_mem_cons.mp ported).2).2
      exact List.forall_mem_cons.mpr ⟨trivial, rest⟩
  | trailer => exact List.forall_mem_cons.mpr ⟨trivial, ported⟩
  | edge | literal =>
      obtain ⟨head, rest⟩ := List.forall_mem_cons.mp ported
      exact List.forall_mem_cons.mpr ⟨fun pending member => head pending (List.mem_append_left _ member), rest⟩

theorem ported_of_actions {labels : List Nat} {state : State} {m : Module} {touches : Touches Supply}
    (run : Actions labels state touches ⟨m, []⟩) : ∀ scope ∈ state.scopes, scope.Ported := by
  generalize same : (⟨m, []⟩ : State) = final at run
  induction run with
  | nil =>
      rw [← same]
      exact fun _ member => by cases member
  | cons action _ ih => exact ported_of_action action (ih same)

theorem pending_ported {state next : State} {pending : Pending} (done : addPending pending state = .ok next)
    (waiting : ∀ scope ∈ next.scopes, scope.Ported) : pending.Ported := by
  obtain ⟨id, earlier, scopes, _, rfl⟩ := add_pending_ok done
  have head : Scope.Ported (.graph id (earlier ++ [pending])) := waiting _ List.mem_cons_self
  exact head pending (List.mem_append_right _ List.mem_cons_self)

theorem ported_of_edge {labels : List Nat} {line : Word} {state next : State}
    (done : readEdge labels line state = .ok next) (waiting : ∀ scope ∈ next.scopes, scope.Ported) :
    ∃ record, Record.parseEdge line = .ok record ∧ 1 ≤ record.sourcePort ∧ 1 ≤ record.targetPort := by
  obtain ⟨record, parsed, done⟩ := Outcome.bind_ok done
  obtain ⟨type, _, done⟩ := Outcome.bind_ok done
  have ported : (edgePending line record type).Ported := pending_ported done waiting
  exact ⟨record, on_line_ok parsed, ported.2 rfl, ported.1⟩

theorem ported_of_literal {labels : List Nat} {line : Word} {state next : State}
    (done : readLiteral labels line state = .ok next) (waiting : ∀ scope ∈ next.scopes, scope.Ported) :
    ∃ record, Record.parseLiteral line = .ok record ∧ 1 ≤ record.targetPort := by
  obtain ⟨record, parsed, done⟩ := Outcome.bind_ok done
  obtain ⟨type, _, done⟩ := Outcome.bind_ok done
  have ported : (literalPending line record type).Ported := pending_ported done waiting
  exact ⟨record, on_line_ok parsed, ported.1⟩

-- A record of a wire or of a literal has the ports of what waits for the end of its graph.
theorem ported_of_step {labels : List Nat} {state next : State} {record : Record} {kind : Kind} (clear : record.Clear)
    (found : kindOf record = some kind) (done : step labels state (kind, Record.line record) = .ok next)
    (waiting : ∀ scope ∈ next.scopes, scope.Ported) : record.Ported := by
  cases record with
  | edge record =>
      cases found
      simp only [step] at done
      obtain ⟨read, parsed, ported⟩ := ported_of_edge done waiting
      cases parsed.symm.trans (Record.parse_edge_line clear)
      exact ported
  | literal record =>
      cases found
      simp only [step] at done
      obtain ⟨read, parsed, ported⟩ := ported_of_literal done waiting
      cases parsed.symm.trans (Record.parse_literal_line clear)
      exact ported
  | _ => trivial

theorem ported_of_body {labels : List Nat} {state final : State} {body : List Record} {copy : Module} {line : Word}
    (single : ∀ entry ∈ body.filterMap bodyLine, '\n' ∉ entry.2) (clear : ∀ record ∈ body, record.Clear)
    (kinds : ∀ record ∈ body, (kindOf record).isSome)
    (done : (body.filterMap bodyLine).foldlM (step labels) state = .ok final)
    (ended : endAll line final.m final.scopes = .ok copy) : ∀ record ∈ body, record.Ported := by
  induction body generalizing state with
  | nil => exact fun _ member => by cases member
  | cons record rest ih =>
      obtain ⟨kind, found⟩ := Option.isSome_iff_exists.mp (kinds record List.mem_cons_self)
      have here : bodyLine record = some (kind, Record.line record) := by
        rw [bodyLine, found]
        rfl
      rw [List.filterMap_cons, here] at done single
      obtain ⟨middle, step, later⟩ := Outcome.fold_m_cons done
      have singleLater := fun entry member => single entry (List.mem_cons_of_mem _ member)
      have waiting := ported_of_actions (body_actions singleLater later ended)
      have others := ih singleLater (fun other member => clear other (List.mem_cons_of_mem _ member))
        (fun other member => kinds other (List.mem_cons_of_mem _ member)) later
      exact List.forall_mem_cons.mpr
        ⟨ported_of_step (clear record List.mem_cons_self) found step waiting, others⟩

theorem ported_of_build {lines : TypeLines} {pragmas : SortedMap Char String} {body : List Record} {copy : Module}
    (single : ∀ entry ∈ body.filterMap bodyLine, '\n' ∉ entry.2) (clear : ∀ record ∈ body, record.Clear)
    (kinds : ∀ record ∈ body, (kindOf record).isSome)
    (built : build ⟨lines, pragmas, body.filterMap bodyLine⟩ = .ok copy) : ∀ record ∈ body, record.Ported := by
  obtain ⟨_, _, built⟩ := Outcome.bind_ok built
  obtain ⟨_, _, built⟩ := Outcome.bind_ok built
  obtain ⟨final, folded, ended⟩ := Outcome.bind_ok built
  exact ported_of_body single clear kinds folded ended

end Read

end Dataflow.Module
