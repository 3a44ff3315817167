import Dataflow.Proofs.Module.Bindings
set_option autoImplicit false

-- A wire into nested graphs threads its value through the compounds on the way. Each of them takes the
-- value in at its last port, and each child graph finds it at its last output of the same number.
namespace Dataflow.Module

-- The inputs are the ports from 1 to `count`, all fed, and no child graph has further ports.
structure Compact (m : Module) (compound : NodeId) (count : Nat) : Prop where
  opcode : m.opcode? compound = some .ifThenElse ∨ m.opcode? compound = some .iterate
  ports : ∀ {port}, (m.input? ⟨compound, port⟩).isSome → 1 ≤ port ∧ port ≤ count
  fed : ∀ {port}, 1 ≤ port → port ≤ count → (m.binding? ⟨compound, port⟩).isSome
  declared : ∀ {child port}, child ∈ m.childrenOf compound → (m.output? ⟨child, port⟩).isSome → port ≤ count

def IsBody (m : Module) (compound body : NodeId) : Prop :=
  m.opcode? compound = some .iterate ∧ (m.childrenOf compound).head? = some body

-- Ports are numbers of 32 bits, and one of them is left.
structure Gapless (m : Module) (compound : NodeId) (count : Nat) : Prop where
  compact : m.Compact compound count
  room : count + 1 < Text.wordBound
  returned : ∀ {body port}, m.IsBody compound body → (m.binding? ⟨body, port⟩).isSome → port ≤ count

-- A crossing that the value has entered. A body may hand the value back, and nothing else in its place.
structure Carries (m : Module) (source : Outlet) (crossing : Crossing) (count : Nat) : Prop where
  compact : m.Compact crossing.compound (count + 1)
  taken : m.source? ⟨crossing.compound, count + 1⟩ = some source
  returned : ∀ {body port}, m.IsBody crossing.compound body → (m.binding? ⟨body, port⟩).isSome →
    port ≤ count ∨ m.source? ⟨body, port⟩ = some ⟨body, count + 1⟩

-- Crossings from the outside in, and where they take a value.
inductive Threaded (m : Module) : Outlet → List Crossing → Outlet → Prop
  | here {source : Outlet} : Threaded m source [] source
  | into {source final : Outlet} {crossing : Crossing} {rest : List Crossing} {count : Nat}
      (carries : m.Carries source crossing count)
      (deeper : Threaded m ⟨crossing.child, count + 1⟩ rest final) : Threaded m source (crossing :: rest) final

section FreePort
variable {m : Module} {compound : NodeId} {count : Nat}

theorem Compact.top_port (compact : m.Compact compound count) : m.topPort compound = count := by
  refine Nat.le_antisymm (top_port_le (fun held => (compact.ports held).2) compact.declared) ?_
  rcases Nat.eq_zero_or_pos count with rfl | positive
  · exact Nat.zero_le _
  · obtain ⟨binding, bound⟩ := Option.isSome_iff_exists.mp (compact.fed positive (Nat.le_refl count))
    exact input_le_top_port (input_isSome_of_binding bound)

theorem Gapless.free_port (gapless : m.Gapless compound count) : m.freePort compound = count + 1 := by
  have top := gapless.compact.top_port
  rw [free_port_eq (by rw [top]; exact gapless.room), top]

end FreePort

/-! ### One connection and the declarations after it -/

theorem source_eq_of_binding {m changed : Module} {inlet : Inlet}
    (same : changed.binding? inlet = m.binding? inlet) : changed.source? inlet = m.source? inlet := by
  refine Option.ext fun outlet => ?_
  rw [source_eq_some_iff, source_eq_some_iff, same]

theorem source_connect {m : Module} {target : Inlet} (source : Outlet) (inside : target.node < m.nodes.size)
    (inlet : Inlet) :
    (connect source target m).source? inlet = if inlet = target then some source else m.source? inlet := by
  have bound := binding_connect source inside inlet
  by_cases same : inlet = target
  · rw [if_pos same] at bound ⊢
    exact source_eq_some_iff.mpr ⟨_, bound⟩
  · rw [if_neg same] at bound ⊢
    exact source_eq_of_binding bound

-- What a connection and the declarations at the child graphs of a compound leave alone.
structure Aside (m changed : Module) (current : Outlet) (target : Inlet) (children : List NodeId) (port : Nat) :
    Prop where
  shape : SameShape m changed
  input : ∀ inlet, inlet ≠ target → changed.input? inlet = m.input? inlet
  taken : changed.source? target = some current
  output : ∀ {outlet}, (changed.output? outlet).isSome → (m.output? outlet).isSome ∨ outlet = current ∨
    outlet.node ∈ children ∧ outlet.port = port

theorem aside_connect {m : Module} {current : Outlet} {target : Inlet} (port : Nat)
    (inside : target.node < m.nodes.size) (known : current.node < m.nodes.size) :
    Aside m (connect current target m) current target [] port := by
  refine ⟨same_shape_connect current target m, fun inlet other => ?_, ?_, fun {outlet} declared => ?_⟩
  · rw [input_connect current inside, if_neg other]
  · rw [source_connect current inside, if_pos rfl]
  · rw [output_connect current outlet known] at declared
    split at declared
    · rename_i same
      exact .inr (.inl same)
    · exact .inl declared

theorem Aside.of_declare {m changed : Module} {current : Outlet} {target : Inlet} {port : Nat} (output : Output)
    (children : List NodeId) (aside : Aside m changed current target [] port) :
    Aside m (children.foldl (fun m child => modifyNode child (fun graph =>
      { graph with outputs := graph.outputs.insert port output }) m) changed) current target children port := by
  have calm := calm_declare output port children changed
  refine ⟨aside.shape.trans calm.shape, fun inlet other => ?_, ?_, fun {outlet} declared => ?_⟩
  · exact (input_declare output port children changed inlet).trans (aside.input inlet other)
  · exact (source_eq_of_binding (calm.binding target)).trans aside.taken
  · rcases output_declare declared with before | new
    · rcases aside.output before with old | same | ⟨nothing, _⟩
      · exact .inl old
      · exact .inr (.inl same)
      · cases nothing
    · exact .inr (.inr new)

theorem aside_enter {routing : Routing Module} {crossing : Crossing} (inside : crossing.compound < routing.m.nodes.size)
    (known : routing.current.node < routing.m.nodes.size) :
    Aside routing.m (routing.enter crossing).m routing.current
      ⟨crossing.compound, routing.m.freePort crossing.compound⟩
      ((routing.m.nodes[crossing.compound]?.map Node.distinctChildren).getD [])
      (routing.m.freePort crossing.compound) :=
  (aside_connect _ (by exact inside) known).of_declare _ _

section Aside
variable {m changed : Module} {current source : Outlet} {target : Inlet} {children : List NodeId} {port : Nat}
  {compound : NodeId} {crossing : Crossing} {count : Nat}

theorem Aside.is_body (aside : Aside m changed current target children port) {body : NodeId} :
    changed.IsBody compound body ↔ m.IsBody compound body := by
  unfold IsBody
  rw [aside.shape.opcode, aside.shape.children]

theorem IsBody.mem_children {body : NodeId} (isBody : m.IsBody compound body) : body ∈ m.childrenOf compound :=
  List.mem_of_head? isBody.2

theorem Compact.of_aside (compact : m.Compact compound count) (aside : Aside m changed current target children port)
    (outside : target.node ≠ compound) (own : current.node ∈ m.childrenOf compound → current.port ≤ count)
    (apart : ∀ child ∈ children, child ∉ m.childrenOf compound) : changed.Compact compound count := by
  have inputs : ∀ port, changed.input? ⟨compound, port⟩ = m.input? ⟨compound, port⟩ := fun port =>
    aside.input _ fun same => outside (congrArg Inlet.node same).symm
  refine ⟨?_, fun {port} held => ?_, fun {port} positive below => ?_, fun {child port} member held => ?_⟩
  · rw [aside.shape.opcode]
    exact compact.opcode
  · rw [inputs] at held
    exact compact.ports held
  · rw [binding_eq_of_input (inputs port)]
    exact compact.fed positive below
  · rw [aside.shape.children] at member
    rcases aside.output held with before | rfl | ⟨declared, _⟩
    · exact compact.declared member before
    · exact own member
    · exact absurd member (apart child declared)

theorem Gapless.of_aside (gapless : m.Gapless compound count) (aside : Aside m changed current target children port)
    (outside : target.node ≠ compound) (own : current.node ∈ m.childrenOf compound → current.port ≤ count)
    (apart : ∀ child ∈ children, child ∉ m.childrenOf compound) (plain : target.node ∉ m.childrenOf compound) :
    changed.Gapless compound count := by
  refine ⟨gapless.compact.of_aside aside outside own apart, gapless.room, fun {body port} isBody bound => ?_⟩
  have before := aside.is_body.mp isBody
  have other : (⟨body, port⟩ : Inlet) ≠ target := fun same =>
    plain (by rw [← same]; exact before.mem_children)
  rw [binding_eq_of_input (aside.input _ other)] at bound
  exact gapless.returned before bound

theorem Carries.of_aside (carries : m.Carries source crossing count)
    (aside : Aside m changed current target children port) (outside : target.node ≠ crossing.compound)
    (own : current.node ∈ m.childrenOf crossing.compound → current.port ≤ count + 1)
    (apart : ∀ child ∈ children, child ∉ m.childrenOf crossing.compound)
    (back : target.node ∈ m.childrenOf crossing.compound → current = ⟨target.node, count + 1⟩) :
    changed.Carries source crossing count := by
  refine ⟨carries.compact.of_aside aside outside own apart, ?_, fun {body port} isBody bound => ?_⟩
  · have other : (⟨crossing.compound, count + 1⟩ : Inlet) ≠ target := fun same => outside (by rw [← same])
    rw [source_eq_of_binding (binding_eq_of_input (aside.input _ other))]
    exact carries.taken
  · have before := aside.is_body.mp isBody
    by_cases same : (⟨body, port⟩ : Inlet) = target
    · subst same
      rw [aside.taken, back before.mem_children]
      exact .inr rfl
    · have kept := binding_eq_of_input (aside.input _ same)
      rw [kept] at bound
      rw [source_eq_of_binding kept]
      exact carries.returned before bound

-- The compound that is entered takes one more value in, at the port that its child graphs get.
theorem Gapless.carries (gapless : m.Gapless crossing.compound count)
    (aside : Aside m changed current ⟨crossing.compound, count + 1⟩ children (count + 1))
    (own : current.node ∉ m.childrenOf crossing.compound) (plain : crossing.compound ∉ m.childrenOf crossing.compound) :
    changed.Carries current crossing count := by
  have inputs : ∀ port, port ≠ count + 1 →
      changed.input? ⟨crossing.compound, port⟩ = m.input? ⟨crossing.compound, port⟩ := fun port other =>
    aside.input _ fun same => other (congrArg Inlet.port same)
  refine ⟨⟨?_, fun {port} held => ?_, fun {port} positive below => ?_, fun {child port} member held => ?_⟩,
    aside.taken, fun {body port} isBody bound => ?_⟩
  · rw [aside.shape.opcode]
    exact gapless.compact.opcode
  · by_cases new : port = count + 1
    · omega
    · rw [inputs port new] at held
      have := gapless.compact.ports held
      omega
  · by_cases new : port = count + 1
    · obtain ⟨stamp, bound⟩ := source_eq_some_iff.mp aside.taken
      rw [new, bound]
      rfl
    · rw [binding_eq_of_input (inputs port new)]
      exact gapless.compact.fed positive (by omega)
  · rw [aside.shape.children] at member
    rcases aside.output held with before | rfl | ⟨_, same⟩
    · exact Nat.le_succ_of_le (gapless.compact.declared member before)
    · exact absurd member own
    · exact Nat.le_of_eq same
  · have before := aside.is_body.mp isBody
    have other : (⟨body, port⟩ : Inlet) ≠ ⟨crossing.compound, count + 1⟩ := by
      intro same
      have itself : body = crossing.compound := congrArg Inlet.node same
      subst itself
      exact plain before.mem_children
    rw [binding_eq_of_input (aside.input _ other)] at bound
    exact .inl (gapless.returned before bound)

end Aside

/-! ### The way in -/

section Inside
variable {m : Module} {compound child scope : NodeId}

theorem scope_of_child (owned : m.Owned) (member : child ∈ m.childrenOf compound) :
    m.role? child = some (.subgraph compound) ∧ m.scopeOf child = .ok child ∧ compound < child := by
  have role := owned.child member
  exact ⟨role, scope_ok_iff.mpr ⟨_, role, rfl⟩, (owned.inside role).1⟩

end Inside

-- A wire that has come to `scope`. What lies further in is as it was.
structure Routed (m : Module) (source : Outlet) (crossings : List Crossing) (scope : NodeId) (routing : Routing Module) :
    Prop where
  shape : SameShape m routing.m
  here : routing.m.scopeOf routing.current.node = .ok scope
  threaded : routing.m.Threaded source crossings.reverse routing.current
  outside : ∀ crossing ∈ crossings, crossing.compound < scope
  port : ∀ crossing ∈ crossings, ∀ {count}, m.role? scope = some (.subgraph crossing.compound) →
    routing.m.Compact crossing.compound (count + 1) → routing.current = ⟨scope, count + 1⟩
  deeper : ∀ {compound count}, scope < compound → m.Gapless compound count → routing.m.Gapless compound count

-- Where the value is now it can only be a port of the child graph that it entered last.
theorem Routed.last {m : Module} {source : Outlet} {crossings : List Crossing} {scope : NodeId} {routing : Routing Module}
    (routed : Routed m source crossings scope routing) (owned : routing.m.Owned) {id : NodeId}
    (located : routing.m.scopeOf id = .ok scope) {crossing : Crossing} (member : crossing ∈ crossings) {count : Nat}
    (compact : routing.m.Compact crossing.compound (count + 1))
    (child : id ∈ routing.m.childrenOf crossing.compound) : routing.current = ⟨id, count + 1⟩ := by
  obtain ⟨role, itself, _⟩ := scope_of_child owned child
  have same := scope_unique located itself
  subst same
  rw [routed.shape.role] at role
  exact routed.port crossing member role compact

-- The value is still outside of every child graph from here on.
theorem Routed.early {m : Module} {source : Outlet} {crossings : List Crossing} {scope : NodeId} {routing : Routing Module}
    (routed : Routed m source crossings scope routing) (owned : routing.m.Owned) {compound : NodeId}
    (further : scope < compound) : routing.current.node ∉ routing.m.childrenOf compound := by
  intro member
  obtain ⟨_, itself, after⟩ := scope_of_child owned member
  rw [scope_unique routed.here itself] at further
  exact Nat.lt_asymm further after

end Dataflow.Module
