import Mathlib.Logic.Relation
import Dataflow.Proofs.Module.Made
import Dataflow.Proofs.Module.Threads
set_option autoImplicit false

-- A wire from an enclosing graph enters the compounds on its way one after the other. Each of them takes
-- the value in at a port that had no use, its child graphs declare an output of that number, and what is
-- not on the path stays as it was.
namespace Dataflow.Module

/-! ### What is visible -/

-- A step out, from a child graph to the graph that holds its compound.
def StepsOut (m : Module) (inner outer : NodeId) : Prop :=
  ∃ compound, m.role? inner = some (.subgraph compound) ∧ m.role? compound = some (.node outer)

def Visible (m : Module) (target : Inlet) (source : Outlet) : Prop :=
  ∃ inner outer, m.scopeOf target.node = .ok inner ∧ m.scopeOf source.node = .ok outer ∧
    Relation.ReflTransGen m.StepsOut inner outer

theorem scope_of_plain {m : Module} {id graph : NodeId} (plain : m.role? id = some (.node graph)) :
    m.scopeOf id = .ok graph :=
  scope_ok_iff.mpr ⟨_, plain, rfl⟩

theorem scope_le {m : Module} (owned : m.Owned) {id scope : NodeId} (located : m.scopeOf id = .ok scope) :
    scope ≤ id := by
  obtain ⟨role, found, rfl⟩ := scope_ok_iff.mp located
  cases role with
  | node graph => exact Nat.le_of_lt (owned.held found).1
  | function name => exact Nat.le_refl id
  | subgraph compound => exact Nat.le_refl id

-- Each step out leads to an earlier node, so the search does not run out of steps.
theorem crossings_of_steps {m : Module} (owned : m.Owned) {outer : NodeId} {steps : Nat} {inner : NodeId}
    (bound : inner ≤ steps) (outward : Relation.ReflTransGen m.StepsOut inner outer) :
    ∃ crossings, m.crossings? outer steps inner = some crossings := by
  induction steps generalizing inner with
  | zero =>
      rcases outward.cases_head with rfl | ⟨_, ⟨compound, role, _⟩, _⟩
      · exact ⟨[], if_pos rfl⟩
      · exact absurd (Nat.lt_of_lt_of_le (owned.inside role).1 bound) (Nat.not_lt_zero _)
  | succ steps ih =>
      rw [crossings?]
      by_cases here : inner = outer
      · exact ⟨[], if_pos here⟩
      · rcases outward.cases_head with same | ⟨next, ⟨compound, role, plain⟩, further⟩
        · exact absurd same here
        · have below : next < inner := Nat.lt_trans (owned.held plain).1 (owned.inside role).1
          obtain ⟨crossings, found⟩ := ih (Nat.le_of_lt_succ (Nat.lt_of_lt_of_le below bound)) further
          have named : m.nodes[inner]?.map Node.role = some (.subgraph compound) := role
          refine ⟨⟨compound, inner⟩ :: crossings, ?_⟩
          rw [if_neg here, named]
          simp only [scope_of_plain plain, found, Option.map_some]

theorem steps_of_leads {m : Module} (owned : m.Owned) {outer scope : NodeId} {crossings : List Crossing}
    (leads : m.Leads outer crossings scope) : Relation.ReflTransGen m.StepsOut scope outer := by
  induction crossings generalizing scope with
  | nil =>
      cases leads
      exact .refl
  | cons crossing rest ih =>
      obtain ⟨_, role, next, located, above⟩ := leads
      obtain ⟨_, graph, plain⟩ := owned.inside role
      have same := scope_unique located (scope_of_plain plain)
      subst same
      exact .head ⟨_, role, plain⟩ (ih above)

theorem wire_runs {m : Module} {target : Inlet} {source : Outlet} {outer inner : NodeId} {crossings : List Crossing}
    (targetNumbered : 1 ≤ target.port) (sourceNumbered : 1 ≤ source.port) (left : m.scopeOf source.node = .ok outer)
    (entered : m.scopeOf target.node = .ok inner) (found : m.crossings? outer m.nodes.size inner = some crossings) :
    let routing := crossings.reverse.foldl Routing.enter ⟨m, source, []⟩
    wire target source m = .ok (routing.path ++ [.inlet target]) (connect routing.current target routing.m) := by
  intro routing
  rw [wire_eq, check_port_ok targetNumbered, check_port_ok sourceNumbered, Edit.bind_of_except, Edit.bind_of_except]
  refine (Edit.bind_query_of_ok (by exact left)).trans ((Edit.bind_query_of_ok (by exact entered)).trans ?_)
  rw [Edit.bind_get, found]
  rfl

theorem wire_succeeds_iff {m : Module} (owned : m.Owned) (target : Inlet) (source : Outlet) :
    (∃ path changed, wire target source m = .ok path changed) ↔
      1 ≤ target.port ∧ 1 ≤ source.port ∧ target.node < m.nodes.size ∧ source.node < m.nodes.size ∧
        m.Visible target source := by
  constructor
  · rintro ⟨path, changed, done⟩
    obtain ⟨targetNumbered, sourceNumbered, outer, inner, crossings, left, entered, leads, _⟩ := wire_ok done
    obtain ⟨_, targetRole, _⟩ := scope_ok_iff.mp entered
    obtain ⟨_, sourceRole, _⟩ := scope_ok_iff.mp left
    exact ⟨targetNumbered, sourceNumbered, lt_size_of_role targetRole, lt_size_of_role sourceRole, inner, outer,
      entered, left, steps_of_leads owned leads⟩
  · rintro ⟨targetNumbered, sourceNumbered, inside, _, inner, outer, entered, left, outward⟩
    have bound : inner ≤ m.nodes.size := Nat.le_of_lt (Nat.lt_of_le_of_lt (scope_le owned entered) inside)
    obtain ⟨crossings, found⟩ := crossings_of_steps owned bound outward
    exact ⟨_, _, wire_runs targetNumbered sourceNumbered left entered found⟩

/-! ### Declarations -/

theorem output_declare_eq {output : Output} {port : Nat} {children : List NodeId} {m : Module}
    (known : ∀ child ∈ children, child < m.nodes.size) (outlet : Outlet) :
    (children.foldl (fun m child => modifyNode child (fun graph =>
      { graph with outputs := graph.outputs.insert port output }) m) m).output? outlet =
        if outlet.node ∈ children ∧ outlet.port = port then some output else m.output? outlet := by
  induction children generalizing m with
  | nil => simp
  | cons child rest ih =>
      have look := output_modify_output m child port (fun _ => output) (known child List.mem_cons_self) outlet
      rw [List.foldl_cons, ih]
      · change (if _ then _ else (modifyNode child (Node.modifyOutput port fun _ => output) m).output? outlet) = _
        rw [look]
        obtain ⟨id, number⟩ := outlet
        simp only [Outlet.mk.injEq, List.mem_cons]
        by_cases here : number = port
        · by_cases first : id = child
          · simp [here, first]
          · simp [here, first]
        · simp [here]
      · intro other member
        rw [size_modify]
        exact known other (List.mem_cons_of_mem _ member)

/-! ### Entrances -/

-- A crossing and the port at which the value passes it.
structure Entrance where
  crossing : Crossing
  port : Nat

namespace Entrance

def inlet (entrance : Entrance) : Inlet :=
  ⟨entrance.crossing.compound, entrance.port⟩

def outlet (entrance : Entrance) : Outlet :=
  ⟨entrance.crossing.child, entrance.port⟩

def ports (entrance : Entrance) : List Port :=
  [.inlet entrance.inlet, .outlet entrance.outlet]

theorem inlet_mem {entrances : List Entrance} {inlet : Inlet} :
    Port.inlet inlet ∈ entrances.flatMap ports ↔ ∃ entrance ∈ entrances, inlet = entrance.inlet := by
  simp [ports, List.mem_flatMap]

theorem length_ports (entrances : List Entrance) : (entrances.flatMap ports).length = 2 * entrances.length := by
  induction entrances with
  | nil => rfl
  | cons entrance rest ih =>
      rw [List.flatMap_cons, List.length_append, ih, List.length_cons]
      change 2 + _ = _
      omega

end Entrance

-- Follows a value back from an output, out of `count` child graphs: what a child graph gives at a port is what
-- its compound takes in at the same number. The ports on the way come with the outlet that the value starts from.
def followed (m : Module) : Nat → Outlet → Option (Outlet × List Port)
  | 0, outlet => some (outlet, [])
  | count + 1, outlet =>
      match m.role? outlet.node with
      | some (.subgraph compound) =>
          (m.source? ⟨compound, outlet.port⟩).bind fun source =>
            (m.followed count source).map fun found =>
              (found.1, found.2 ++ [.inlet ⟨compound, outlet.port⟩, .outlet outlet])
      | _ => none

theorem followed_step {m : Module} {entrance : Entrance} {count : Nat} {current source : Outlet} {path : List Port}
    (role : m.role? entrance.crossing.child = some (.subgraph entrance.crossing.compound))
    (fed : m.source? entrance.inlet = some current) (found : m.followed count current = some (source, path)) :
    m.followed (count + 1) entrance.outlet = some (source, path ++ entrance.ports) := by
  rw [followed]
  change (match m.role? entrance.crossing.child with | some (.subgraph _) => _ | _ => _) = _
  rw [role]
  change (m.source? entrance.inlet).bind _ = _
  rw [fed, Option.bind_some, found]
  rfl

theorem followed_congr {m changed : Module} (roles : ∀ id, changed.role? id = m.role? id) {count : Nat}
    {outlet source : Outlet} {path : List Port} (found : m.followed count outlet = some (source, path))
    (sources : ∀ {inlet}, .inlet inlet ∈ path → changed.source? inlet = m.source? inlet) :
    changed.followed count outlet = some (source, path) := by
  induction count generalizing outlet path with
  | zero => exact found
  | succ count ih =>
      rw [followed, roles]
      rw [followed] at found
      split at found
      · rename_i compound _
        obtain ⟨current, fed, found⟩ := Option.bind_eq_some_iff.mp found
        obtain ⟨⟨origin, earlier⟩, further, same⟩ := Option.map_eq_some_iff.mp found
        cases same
        have kept := sources (List.mem_append_right earlier List.mem_cons_self)
        have before := ih further fun member => sources (List.mem_append_left _ member)
        simp only [kept, fed, Option.bind_some, before, Option.map_some]
      · cases found

-- What the entrance of a value changes at one compound.
structure Entered (m changed : Module) (type : Option TypeId) (entrance : Entrance) : Prop where
  role : m.role? entrance.crossing.child = some (.subgraph entrance.crossing.compound)
  unused : m.input? entrance.inlet = none
  undeclared : ∀ {child}, m.role? child = some (.subgraph entrance.crossing.compound) →
    m.output? ⟨child, entrance.port⟩ = none
  taken : (changed.input? entrance.inlet).isSome
  single : ∀ {port}, port ≠ entrance.port →
    changed.input? ⟨entrance.crossing.compound, port⟩ = m.input? ⟨entrance.crossing.compound, port⟩
  declared : ∀ {child}, m.role? child = some (.subgraph entrance.crossing.compound) →
    changed.output? ⟨child, entrance.port⟩ = some { type := type }

theorem Entered.later {m changed later : Module} {type : Option TypeId} {entrance : Entrance}
    (entered : Entered m changed type entrance)
    (inputs : ∀ port, later.input? ⟨entrance.crossing.compound, port⟩ =
      changed.input? ⟨entrance.crossing.compound, port⟩)
    (kept : ∀ {outlet output}, changed.output? outlet = some output → later.output? outlet = some output) :
    Entered m later type entrance := by
  refine ⟨entered.role, entered.unused, entered.undeclared, ?_, fun {port} other => ?_, fun {child} role => ?_⟩
  · exact (congrArg Option.isSome (inputs entrance.port)).trans entered.taken
  · exact (inputs port).trans (entered.single other)
  · exact kept (entered.declared role)

-- The outputs that a value declares: where it starts, and behind the entrances.
def Declares (m : Module) (source : Outlet) (entrances : List Entrance) (outlet : Outlet) : Prop :=
  (m.output? outlet).isSome ∨ outlet = source ∨
    ∃ entrance ∈ entrances, m.role? outlet.node = some (.subgraph entrance.crossing.compound) ∧
      outlet.port = entrance.port

-- A value that has passed the entrances, the outermost one first.
structure Entering (m : Module) (source : Outlet) (scope : NodeId) (entrances : List Entrance) (routing : Routing Module) :
    Prop where
  shape : SameShape m routing.m
  here : m.scopeOf routing.current.node = .ok scope
  path : routing.path = entrances.flatMap Entrance.ports
  followed : routing.m.followed entrances.length routing.current = some (source, routing.path)
  type : routing.m.outputType? routing.current = m.outputType? source
  outside : ∀ entrance ∈ entrances, entrance.crossing.compound < scope
  inward : entrances.Pairwise fun first second => first.crossing.compound < second.crossing.compound
  entered : ∀ entrance ∈ entrances, Entered m routing.m (m.outputType? source) entrance
  inputs : ∀ {inlet}, .inlet inlet ∉ routing.path → routing.m.input? inlet = m.input? inlet
  kept : ∀ {outlet output}, m.output? outlet = some output → routing.m.output? outlet = some output
  outputs : ∀ {outlet}, (routing.m.output? outlet).isSome ∨ outlet = routing.current →
    m.Declares source entrances outlet

-- A value that has passed the entrances and feeds an input.
structure Arrived (m : Module) (source : Outlet) (entrances : List Entrance) (target : Inlet) (changed : Module) :
    Prop where
  followed : (changed.source? target).bind (changed.followed entrances.length) =
    some (source, entrances.flatMap Entrance.ports)
  inward : entrances.Pairwise fun first second => first.crossing.compound < second.crossing.compound
  entered : ∀ entrance ∈ entrances, Entered m changed (m.outputType? source) entrance
  inputs : ∀ {inlet}, .inlet inlet ∉ entrances.flatMap Entrance.ports ++ [.inlet target] →
    changed.input? inlet = m.input? inlet
  kept : ∀ {outlet output}, m.output? outlet = some output → changed.output? outlet = some output
  outputs : ∀ {outlet}, (changed.output? outlet).isSome → m.Declares source entrances outlet

section Connection
variable {m : Module} {source : Outlet} {scope : NodeId} {entrances : List Entrance} {routing : Routing Module}

theorem connect_keeps {m : Module} {current outlet : Outlet} {target : Inlet} {output : Output}
    (known : current.node < m.nodes.size) (declared : m.output? outlet = some output) :
    (connect current target m).output? outlet = some output := by
  rw [output_connect current outlet known, declared]
  exact ite_self _

-- The input lies in the graph that the value has come to, and so apart from all entrances.
theorem arrived_of_entering (owned : m.Owned) (entering : Entering m source scope entrances routing) {target : Inlet}
    (located : m.scopeOf target.node = .ok scope) :
    Arrived m source entrances target (connect routing.current target routing.m) := by
  have there := (scope_congr (entering.shape.role _) scope).mpr located
  obtain ⟨_, targetRole, _⟩ := scope_ok_iff.mp there
  obtain ⟨_, currentRole, _⟩ := scope_ok_iff.mp ((scope_congr (entering.shape.role _) scope).mpr entering.here)
  have inside := lt_size_of_role targetRole
  have known := lt_size_of_role currentRole
  have apart : ∀ entrance ∈ entrances, ∀ port, (⟨entrance.crossing.compound, port⟩ : Inlet) ≠ target := by
    intro entrance member port same
    have below := entering.outside entrance member
    rw [← congrArg Inlet.node same] at located
    exact Nat.lt_irrefl _ (Nat.lt_of_lt_of_le below (scope_le owned located))
  have inputs : ∀ {inlet}, inlet ≠ target →
      (connect routing.current target routing.m).input? inlet = routing.m.input? inlet := by
    intro inlet other
    rw [input_connect routing.current inside, if_neg other]
  have keeps : ∀ {outlet output}, routing.m.output? outlet = some output →
      (connect routing.current target routing.m).output? outlet = some output := connect_keeps known
  constructor
  case followed =>
    rw [source_connect routing.current inside, if_pos rfl, Option.bind_some, ← entering.path]
    refine followed_congr (same_shape_connect _ _ _).role entering.followed fun {inlet} member => ?_
    rw [entering.path] at member
    obtain ⟨entrance, passed, rfl⟩ := Entrance.inlet_mem.mp member
    exact source_eq_of_binding (binding_eq_of_input (inputs (apart entrance passed _)))
  case inward => exact entering.inward
  case entered =>
    intro entrance member
    exact (entering.entered entrance member).later (fun port => inputs (apart entrance member port)) keeps
  case inputs =>
    intro inlet absent
    rw [List.mem_append, not_or] at absent
    rw [inputs fun same => absent.2 (by rw [same]; exact List.mem_singleton_self _)]
    exact entering.inputs (by rw [entering.path]; exact absent.1)
  case kept => exact fun declared => keeps (entering.kept declared)
  case outputs =>
    intro outlet declared
    rw [output_connect routing.current outlet known] at declared
    split at declared
    · rename_i same
      exact entering.outputs (.inr same)
    · exact entering.outputs (.inl declared)

end Connection

def Routing.entrance (routing : Routing Module) (crossing : Crossing) : Entrance :=
  ⟨crossing, routing.m.freePort crossing.compound⟩

def Routing.connected (routing : Routing Module) (target : Inlet) : Module :=
  connect routing.current target routing.m

theorem Declares.append {m : Module} {source : Outlet} {entrances : List Entrance} {outlet : Outlet}
    (declares : m.Declares source entrances outlet) (entrance : Entrance) :
    m.Declares source (entrances ++ [entrance]) outlet := by
  rcases declares with before | same | ⟨passed, member, behind⟩
  · exact .inl before
  · exact .inr (.inl same)
  · exact .inr (.inr ⟨passed, List.mem_append_left _ member, behind⟩)

theorem declares_behind {m : Module} {source : Outlet} (entrances : List Entrance) {entrance : Entrance}
    {outlet : Outlet} (role : m.role? outlet.node = some (.subgraph entrance.crossing.compound))
    (number : outlet.port = entrance.port) : m.Declares source (entrances ++ [entrance]) outlet :=
  .inr (.inr ⟨entrance, List.mem_append_right _ (List.mem_singleton_self _), role, number⟩)

section Enter
variable {m : Module} {source : Outlet} {scope : NodeId} {entrances : List Entrance} {routing : Routing Module}
  {crossing : Crossing}

theorem input_enter (inlet : Inlet) : (routing.enter crossing).m.input? inlet =
    (routing.connected (routing.entrance crossing).inlet).input? inlet :=
  input_declare _ _ _ _ inlet

theorem output_enter (known : ∀ child ∈ routing.m.childrenOf crossing.compound, child < routing.m.nodes.size)
    (outlet : Outlet) :
    (routing.enter crossing).m.output? outlet =
      if outlet.node ∈ routing.m.childrenOf crossing.compound ∧ outlet.port = (routing.entrance crossing).port then
        some { type := routing.m.outputType? routing.current }
      else (routing.connected (routing.entrance crossing).inlet).output? outlet := by
  simp only [← distinct_children_mem] at known ⊢
  refine output_declare_eq (fun child member => ?_) outlet
  refine Nat.lt_of_lt_of_eq ?_ (same_shape_connect _ _ _).size.symm
  exact known child member

end Enter

-- A value in front of the next crossing.
structure Facing (m : Module) (source : Outlet) (scope : NodeId) (entrances : List Entrance) (routing : Routing Module)
    (crossing : Crossing) : Prop where
  owned : m.Owned
  complete : m.Complete
  entering : Entering m source scope entrances routing
  ahead : Ahead m scope routing
  room : m.topPort crossing.compound + 1 < Text.wordBound
  located : m.scopeOf crossing.compound = .ok scope
  role : m.role? crossing.child = some (.subgraph crossing.compound)

namespace Facing
variable {m : Module} {source : Outlet} {scope : NodeId} {entrances : List Entrance} {routing : Routing Module}
  {crossing : Crossing} (facing : Facing m source scope entrances routing crossing)
include facing

theorem below : scope < crossing.compound :=
  scope_lt_of_plain facing.owned (facing.owned.inside facing.role).2 facing.located

theorem roomNow : routing.m.topPort crossing.compound + 1 < Text.wordBound := by
  rw [facing.ahead.top_port facing.owned facing.below]
  exact facing.room

theorem absent (port : Nat) : .inlet ⟨crossing.compound, port⟩ ∉ entrances.flatMap Entrance.ports := by
  intro member
  obtain ⟨passed, before, same⟩ := Entrance.inlet_mem.mp member
  have compound : crossing.compound = passed.crossing.compound := congrArg Inlet.node same
  have outside := facing.entering.outside passed before
  rw [← compound] at outside
  exact Nat.lt_asymm outside facing.below

theorem child_iff {child : NodeId} : child ∈ routing.m.childrenOf crossing.compound ↔
    m.role? child = some (.subgraph crossing.compound) := by
  rw [facing.entering.shape.children]
  exact ⟨facing.owned.child, facing.complete⟩

theorem inside : crossing.compound < routing.m.nodes.size := by
  obtain ⟨_, found, _⟩ := scope_ok_iff.mp facing.located
  rw [facing.entering.shape.size]
  exact lt_size_of_role found

theorem known : routing.current.node < routing.m.nodes.size := by
  obtain ⟨_, found, _⟩ := scope_ok_iff.mp facing.entering.here
  rw [facing.entering.shape.size]
  exact lt_size_of_role found

theorem arrived :
    Arrived m source entrances (routing.entrance crossing).inlet (routing.connected (routing.entrance crossing).inlet) :=
  arrived_of_entering facing.owned facing.entering facing.located

theorem fed : (routing.enter crossing).m.source? (routing.entrance crossing).inlet = some routing.current := by
  rw [source_eq_of_binding (binding_eq_of_input (input_enter _))]
  refine (source_connect routing.current facing.inside _).trans ?_
  exact if_pos rfl

theorem output (outlet : Outlet) :
    (routing.enter crossing).m.output? outlet =
      if outlet.node ∈ routing.m.childrenOf crossing.compound ∧ outlet.port = (routing.entrance crossing).port then
        some { type := routing.m.outputType? routing.current }
      else (routing.connected (routing.entrance crossing).inlet).output? outlet := by
  refine output_enter (fun child member => ?_) outlet
  rw [facing.entering.shape.size]
  exact lt_size_of_role (facing.child_iff.mp member)

theorem declared {child : NodeId} (isChild : m.role? child = some (.subgraph crossing.compound)) :
    (routing.enter crossing).m.output? ⟨child, (routing.entrance crossing).port⟩ =
      some { type := m.outputType? source } := by
  rw [facing.output, if_pos ⟨facing.child_iff.mpr isChild, rfl⟩, facing.entering.type]

-- The value comes from further out than the child graphs.
theorem fresh {child : NodeId} (member : child ∈ routing.m.childrenOf crossing.compound) :
    (routing.connected (routing.entrance crossing).inlet).output? ⟨child, (routing.entrance crossing).port⟩ = none := by
  have isChild := facing.child_iff.mp member
  refine (output_connect routing.current _ facing.known).trans ?_
  rw [if_neg]
  · exact free_port_output facing.roomNow member
  · intro same
    have itself : child = routing.current.node := congrArg Outlet.node same
    have here := facing.entering.here
    rw [← itself] at here
    have equal := scope_unique here (scope_ok_iff.mpr ⟨_, isChild, rfl⟩)
    have further := Nat.lt_trans facing.below (facing.owned.inside isChild).1
    exact Nat.lt_irrefl _ (equal ▸ further)

theorem keeps {outlet : Outlet} {output : Output}
    (before : (routing.connected (routing.entrance crossing).inlet).output? outlet = some output) :
    (routing.enter crossing).m.output? outlet = some output := by
  rw [facing.output, if_neg]
  · exact before
  · rintro ⟨member, number⟩
    have nothing := facing.fresh member
    rw [← number] at nothing
    cases nothing.symm.trans before

theorem entered : Entered m (routing.enter crossing).m (m.outputType? source) (routing.entrance crossing) := by
  constructor
  case role => exact facing.role
  case unused =>
    have absent := facing.absent (routing.entrance crossing).port
    rw [← facing.entering.path] at absent
    exact (facing.entering.inputs absent).symm.trans (free_port_input facing.roomNow)
  case undeclared =>
    intro child isChild
    cases before : m.output? ⟨child, (routing.entrance crossing).port⟩ with
    | none => rfl
    | some output =>
        have nothing := free_port_output facing.roomNow (facing.child_iff.mpr isChild)
        cases nothing.symm.trans (facing.entering.kept before)
  case taken =>
    obtain ⟨stamp, bound⟩ := source_eq_some_iff.mp facing.fed
    exact input_isSome_of_binding bound
  case single =>
    intro port other
    refine (input_enter _).trans (facing.arrived.inputs ?_)
    rw [List.mem_append, not_or]
    refine ⟨facing.absent port, fun member => other ?_⟩
    exact congrArg Inlet.port (Port.inlet.inj (List.mem_singleton.mp member))
  case declared => exact facing.declared

theorem enter : Entering m source crossing.child (entrances ++ [routing.entrance crossing]) (routing.enter crossing) := by
  have above := (facing.owned.inside facing.role).1
  have arrived := facing.arrived
  have aside := aside_enter facing.inside facing.known
  have shape : SameShape m (routing.enter crossing).m := facing.entering.shape.trans aside.shape
  have path : (routing.enter crossing).path = (entrances ++ [routing.entrance crossing]).flatMap Entrance.ports := by
    rw [List.flatMap_append, ← facing.entering.path]
    rfl
  constructor
  case shape => exact shape
  case here => exact scope_ok_iff.mpr ⟨_, facing.role, rfl⟩
  case path => exact path
  case followed =>
    have before : (routing.enter crossing).m.followed entrances.length routing.current = some (source, routing.path) := by
      refine followed_congr aside.shape.role facing.entering.followed fun {inlet} member => ?_
      rw [facing.entering.path] at member
      refine source_eq_of_binding (binding_eq_of_input (aside.input inlet fun same => ?_))
      rw [same] at member
      exact facing.absent _ member
    rw [path, List.length_append, List.flatMap_append, ← facing.entering.path]
    have role := (shape.role crossing.child).trans facing.role
    exact @followed_step _ (routing.entrance crossing) _ _ _ _ role facing.fed before
  case type =>
    have declared : (routing.enter crossing).m.output? (routing.enter crossing).current =
        some { type := m.outputType? source } := facing.declared facing.role
    rw [outputType?, declared]
    rfl
  case outside =>
    intro entrance member
    rcases List.mem_append.mp member with before | last
    · exact Nat.lt_trans (facing.entering.outside entrance before) (Nat.lt_trans facing.below above)
    · rw [List.mem_singleton.mp last]
      exact above
  case inward =>
    refine List.pairwise_append.mpr ⟨facing.entering.inward, List.pairwise_singleton _ _, ?_⟩
    intro entrance before last member
    rw [List.mem_singleton.mp member]
    exact Nat.lt_trans (facing.entering.outside entrance before) facing.below
  case entered =>
    intro entrance member
    rcases List.mem_append.mp member with before | last
    · exact (arrived.entered entrance before).later (fun port => input_enter _) facing.keeps
    · rw [List.mem_singleton.mp last]
      exact facing.entered
  case inputs =>
    intro inlet absent
    refine (input_enter inlet).trans (arrived.inputs fun member => absent ?_)
    rw [path, List.flatMap_append]
    rcases List.mem_append.mp member with before | last
    · exact List.mem_append_left _ before
    · rw [List.mem_singleton.mp last]
      exact List.mem_append_right _ List.mem_cons_self
  case kept => exact fun before => facing.keeps (arrived.kept before)
  case outputs =>
    intro outlet declared
    rcases declared with declared | rfl
    · rw [facing.output] at declared
      split at declared
      · rename_i behind
        exact declares_behind entrances (facing.child_iff.mp behind.1) behind.2
      · exact (arrived.outputs declared).append _
    · exact declares_behind entrances facing.role rfl

end Facing

/-! ### The whole wire -/

theorem entering_route {m : Module} (owned : m.Owned) (complete : m.Complete) {source : Outlet} {outer scope : NodeId}
    {crossings : List Crossing} (left : m.scopeOf source.node = .ok outer) (leads : m.Leads outer crossings scope)
    (room : ∀ crossing ∈ crossings, m.topPort crossing.compound + 1 < Text.wordBound) :
    ∃ entrances, entrances.map Entrance.crossing = crossings.reverse ∧
      Entering m source scope entrances (crossings.reverse.foldl Routing.enter ⟨m, source, []⟩) := by
  rw [List.foldl_reverse]
  induction crossings generalizing scope with
  | nil =>
      cases leads
      refine ⟨[], rfl, .refl m, left, rfl, rfl, rfl, ?_, .nil, ?_, fun _ => rfl, id, fun declared => ?_⟩
      · exact fun _ none => absurd none List.not_mem_nil
      · exact fun _ none => absurd none List.not_mem_nil
      · exact declared.imp_right .inl
  | cons crossing rest ih =>
      obtain ⟨rfl, role, next, located, above⟩ := leads
      obtain ⟨entrances, same, entering⟩ := ih above fun other member => room other (List.mem_cons_of_mem _ member)
      have ahead := ahead_route owned left above
      rw [List.foldl_reverse] at ahead
      have facing : Facing m source next entrances _ crossing :=
        ⟨owned, complete, entering, ahead, room crossing List.mem_cons_self, located, role⟩
      refine ⟨entrances ++ [_], ?_, facing.enter⟩
      rw [List.map_append, same, List.reverse_cons]
      rfl

-- The wire passes the compounds between the two graphs, and nothing else.
structure Through (m : Module) (target : Inlet) (source : Outlet) (path : List Port) (changed : Module)
    (entrances : List Entrance) : Prop where
  between : ∃ outer inner, m.scopeOf source.node = .ok outer ∧ m.scopeOf target.node = .ok inner ∧
    m.Leads outer (entrances.map Entrance.crossing).reverse inner
  length : path.length = 2 * entrances.length + 1
  ports : path = entrances.flatMap Entrance.ports ++ [.inlet target]
  arrived : Arrived m source entrances target changed

theorem through_of_wire {m changed : Module} (owned : m.Owned) (complete : m.Complete) {target : Inlet}
    {source : Outlet} {path : List Port} (done : wire target source m = .ok path changed)
    (room : m.HasRoom target source) : ∃ entrances, Through m target source path changed entrances := by
  obtain ⟨_, _, outer, inner, crossings, left, located, leads, crossed, rfl, rfl⟩ := wire_ok done
  obtain ⟨entrances, same, entering⟩ := entering_route owned complete left leads fun crossing member =>
    room.of_crossing left located crossed member
  refine ⟨entrances, ⟨outer, inner, left, located, ?_⟩, ?_, ?_, arrived_of_entering owned entering located⟩
  · rw [same, List.reverse_reverse]
    exact leads
  · rw [entering.path, List.length_append, Entrance.length_ports]
    rfl
  · rw [entering.path]

theorem wire_is_exact {origin : Origin} {start : Module} (started : origin.start = .ok start)
    (requests : List Request) (complete : (run start requests).Complete) (target : Inlet) (source : Outlet) :
    let m := run start requests
    ((∃ path changed, wire target source m = .ok path changed) ↔
      1 ≤ target.port ∧ 1 ≤ source.port ∧ target.node < m.nodes.size ∧ source.node < m.nodes.size ∧
        m.Visible target source) ∧
    ∀ path changed, wire target source m = .ok path changed → m.HasRoom target source →
      ∃ entrances, Through m target source path changed entrances := by
  intro m
  obtain ⟨_, sound, _⟩ := sound_origin started
  obtain ⟨_, soundNow, _⟩ := sound_run requests sound
  exact ⟨wire_succeeds_iff soundNow.owned target source,
    fun _ _ done room => through_of_wire soundNow.owned complete done room⟩

-- After the last port comes port 0, and after that port 0 again, so a second wire takes the port of the first one.
theorem second_wire_takes_the_port :
    let m := run empty crowded
    let path : List Port := [.inlet ⟨1, 0⟩, .outlet ⟨2, 0⟩, .inlet ⟨3, 2⟩]
    m.Complete ∧ m.source? ⟨1, 0⟩ = some ⟨0, 1⟩ ∧
      ∃ changed, wire ⟨3, 2⟩ ⟨0, 2⟩ m = .ok path changed ∧ changed.source? ⟨1, 0⟩ = some ⟨0, 2⟩ := by
  intro m path
  obtain ⟨_, made⟩ := made_run crowded (made_start (.inr rfl))
  have routed : ((wire ⟨3, 2⟩ ⟨0, 2⟩).result m).toOption.any (fun done =>
      done.1 = path ∧ done.2.source? ⟨1, 0⟩ = some ⟨0, 2⟩) = true := by decide +kernel
  refine ⟨made.complete, by decide +kernel, ?_⟩
  cases step : wire ⟨3, 2⟩ ⟨0, 2⟩ m with
  | ok found changed =>
      obtain ⟨rfl, source⟩ : found = path ∧ changed.source? ⟨1, 0⟩ = some ⟨0, 2⟩ := by
        simpa [Edit.result, step, Except.toOption] using routed
      exact ⟨changed, rfl, source⟩
  | error error changed =>
      rw [Edit.result, step] at routed
      cases routed

-- Two compounds, one inside of the other. The outer one lists a child graph twice, and another one into which
-- a value was led before.
theorem nested_wire_is_exact :
    let requests : List Request := [.addFunction "f", .addNode 0 .ifThenElse, .addGraph 1, .addGraph 1,
      .pushChild 1 2, .addNode 2 .iterate, .addGraph 4, .addNode 5 .noOp, .wire ⟨3, 1⟩ ⟨0, 2⟩, .setOutput ⟨0, 1⟩ 3]
    let m := run Module.initial requests
    let path : List Port := [.inlet ⟨1, 2⟩, .outlet ⟨2, 2⟩, .inlet ⟨4, 1⟩, .outlet ⟨5, 1⟩, .inlet ⟨6, 1⟩]
    m.Complete ∧ m.Visible ⟨6, 1⟩ ⟨0, 1⟩ ∧ ∃ changed entrances,
      wire ⟨6, 1⟩ ⟨0, 1⟩ m = .ok path changed ∧ Through m ⟨6, 1⟩ ⟨0, 1⟩ path changed entrances := by
  intro requests m path
  have started : Origin.initial.start = .ok Module.initial := rfl
  have complete : m.Complete := by
    obtain ⟨_, made⟩ := made_run requests (made_start (.inl rfl))
    exact made.complete
  obtain ⟨visible, through⟩ := wire_is_exact started requests complete ⟨6, 1⟩ ⟨0, 1⟩
  have routed : ((wire ⟨6, 1⟩ ⟨0, 1⟩).outcome m).1 = .ok path := by decide +kernel
  cases step : wire ⟨6, 1⟩ ⟨0, 1⟩ m with
  | ok found changed =>
      rw [Edit.outcome, step] at routed
      cases routed
      obtain ⟨entrances, passed⟩ := through path changed step (by decide +kernel)
      exact ⟨complete, (visible.mp ⟨path, changed, step⟩).2.2.2.2, changed, entrances, rfl, passed⟩
  | error error changed =>
      rw [Edit.outcome, step] at routed
      cases routed

end Dataflow.Module
