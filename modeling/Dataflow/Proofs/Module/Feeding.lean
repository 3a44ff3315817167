import Dataflow.Proofs.Module.Reachable
import Dataflow.Proofs.Outcome
import Dataflow.Proofs.Type.Canonical
set_option autoImplicit false

-- Feeding the inputs of a graph that ends. All ports belong to the scope of the graph, so a wire is
-- a single connection, and each record changes what a few ports hold.
namespace Dataflow.Module.Read
open Touches

def TypeHeld (m : Module) (type : TypeId) : Prop :=
  (m.types.get? type).isSome

theorem held_of_find {m : Module} {type : TypeId} {definition : TypeDef}
    (found : m.types.find type = .ok definition) : TypeHeld m type := by
  rw [TypeHeld, TypeTable.find_ok_iff.mp found]
  rfl

theorem find_of_held {m : Module} {type : TypeId} (held : TypeHeld m type) :
    ∃ definition, m.types.find type = .ok definition := by
  obtain ⟨definition, found⟩ := Option.isSome_iff_exists.mp held
  exact ⟨definition, TypeTable.find_ok_iff.mpr found⟩

/-! ### Single changes -/

def typed (outlet : Outlet) (type : TypeId) (m : Module) : Module :=
  modifyNode outlet.node (Node.modifyOutput outlet.port fun output => { output with type := some type }) m

theorem set_output_run {outlet : Outlet} {type : TypeId} {m : Module} (numbered : 1 ≤ outlet.port)
    (held : TypeHeld m type) (inside : outlet.node < m.nodes.size) :
    setOutput outlet type m = .ok () (typed outlet type m) := by
  obtain ⟨definition, found⟩ := find_of_held held
  obtain ⟨node, here⟩ := exists_node_iff.mpr inside
  unfold setOutput
  rw [check_port_ok numbered]
  refine (Edit.bind_of_except () m).trans ?_
  refine (Edit.bind_query_of_ok (by exact found)).trans ?_
  exact (Edit.bind_query_of_ok (by exact node_ok_iff.mpr here)).trans rfl

theorem set_output_ok {outlet : Outlet} {type : TypeId} {m changed : Module}
    (done : setOutput outlet type m = .ok () changed) :
    1 ≤ outlet.port ∧ TypeHeld m type ∧ outlet.node < m.nodes.size ∧ changed = typed outlet type m := by
  obtain ⟨_, _, checked, done⟩ := Edit.bind_ok done
  obtain ⟨numbered, rfl⟩ := Edit.of_except_ok checked
  obtain ⟨_, _, query, done⟩ := Edit.bind_ok done
  obtain ⟨found, rfl⟩ := Edit.query_ok query
  obtain ⟨node, _, query, done⟩ := Edit.bind_ok done
  obtain ⟨here, rfl⟩ := Edit.query_ok query
  exact ⟨numbered_of_check numbered, held_of_find found,
    exists_node_iff.mp ⟨node, node_ok_iff.mp here⟩, Edit.modify_ok done⟩

theorem add_input_run {inlet : Inlet} {m : Module} (numbered : 1 ≤ inlet.port)
    (inside : inlet.node < m.nodes.size) :
    addInput inlet m = .ok () (modifyNode inlet.node (Node.modifyInput inlet.port id) m) := by
  obtain ⟨node, here⟩ := exists_node_iff.mpr inside
  unfold addInput
  rw [check_port_ok numbered]
  refine (Edit.bind_of_except () m).trans ?_
  exact (Edit.bind_query_of_ok (by exact node_ok_iff.mpr here)).trans rfl

theorem wire_run {source : Outlet} {target : Inlet} {m : Module} {scope : NodeId}
    (sourceScope : m.scopeOf source.node = .ok scope) (targetScope : m.scopeOf target.node = .ok scope)
    (sourceNumbered : 1 ≤ source.port) (targetNumbered : 1 ≤ target.port) :
    wire target source m = .ok [.inlet target] (connect source target m) := by
  have crossed : m.crossings? scope m.nodes.size scope = some [] := by
    cases m.nodes.size <;> simp [crossings?]
  rw [wire_eq, check_port_ok sourceNumbered, check_port_ok targetNumbered]
  refine (Edit.bind_of_except () m).trans ?_
  refine (Edit.bind_of_except () m).trans ?_
  refine (Edit.bind_query_of_ok (by exact sourceScope)).trans ?_
  refine (Edit.bind_query_of_ok (by exact targetScope)).trans ?_
  refine (Edit.bind_get m).trans ?_
  rw [crossed]
  rfl

/-! ### Pragmas of a port that is fed -/

def noted (inlet : Inlet) (pragmas : Pragmas) (m : Module) : Module :=
  setInputPragmas inlet pragmas (modifyNode inlet.node (Node.modifyInput inlet.port id) m)

theorem replace_pragmas_run {inlet : Inlet} {m : Module} (pragmas : Pragmas) (numbered : 1 ≤ inlet.port)
    (inside : inlet.node < m.nodes.size) :
    replaceInputPragmas inlet pragmas m = .ok () (noted inlet pragmas m) :=
  (Edit.bind_of_ok (add_input_run numbered inside)).trans rfl

theorem quiet_noted {inlet : Inlet} (numbered : 1 ≤ inlet.port) (pragmas : Pragmas) (m : Module) :
    Quiet m (noted inlet pragmas m) :=
  .trans _ _ _ (Quiet.of_input m inlet numbered fun _ => rfl) (Quiet.of_input _ inlet numbered fun _ => rfl)

theorem input_noted {target : Inlet} {m : Module} (pragmas : Pragmas)
    (inside : target.node < m.nodes.size) (inlet : Inlet) :
    (noted target pragmas m).input? inlet =
      if inlet = target then some { (m.input? inlet).getD {} with pragmas := pragmas }
      else m.input? inlet := by
  have bound : target.node < (modifyNode target.node (Node.modifyInput target.port id) m).nodes.size := by
    rw [size_modify]
    exact inside
  unfold noted setInputPragmas
  rw [input_modify_input _ _ _ _ bound, input_modify_input _ _ _ _ inside]
  split <;> simp

theorem output_noted (target : Inlet) (pragmas : Pragmas) (m : Module) (outlet : Outlet) :
    (noted target pragmas m).output? outlet = m.output? outlet := by
  unfold noted setInputPragmas
  have first := output_modify (modifyNode target.node (Node.modifyInput target.port id) m) target.node
    (Node.modifyInput target.port fun input => { input with pragmas := pragmas }) (fun _ => rfl) outlet
  exact first.trans (output_modify m target.node (Node.modifyInput target.port id) (fun _ => rfl) outlet)

@[simp] theorem types_noted (target : Inlet) (pragmas : Pragmas) (m : Module) :
    (noted target pragmas m).types = m.types := rfl

@[simp] theorem pragmas_noted (target : Inlet) (pragmas : Pragmas) (m : Module) :
    (noted target pragmas m).pragmas = m.pragmas := rfl

/-! ### Wires -/

def offered (source : Outlet) (type : Option TypeId) (m : Module) : Module :=
  match type, m.outputType? source with
  | some type, none => typed source type m
  | _, _ => m

def fedWire (source : Outlet) (target : Inlet) (type : Option TypeId) (pragmas : Pragmas)
    (m : Module) : Module :=
  noted target pragmas (connect source target (offered source type m))

theorem quiet_offered (source : Outlet) (numbered : 1 ≤ source.port) (type : Option TypeId)
    (m : Module) : Quiet m (offered source type m) := by
  unfold offered
  split
  · exact Quiet.of_output m source numbered _
  · exact .refl m

theorem types_offered (source : Outlet) (type : Option TypeId) (m : Module) :
    (offered source type m).types = m.types := by
  unfold offered
  split <;> rfl

theorem pragmas_offered (source : Outlet) (type : Option TypeId) (m : Module) :
    (offered source type m).pragmas = m.pragmas := by
  unfold offered
  split <;> rfl

def offer (source : Outlet) (type : Option TypeId) : Change PUnit := do
  match type, (← get).outputType? source with
  | some type, none => setOutput source type
  | _, _ => pure ()

theorem feed_wire_eq (source : Outlet) (target : Inlet) (type : Option TypeId) (pragmas : Pragmas) :
    feedWire source target type pragmas = (do
      offer source type
      let _ ← wire target source
      replaceInputPragmas target pragmas) := by
  unfold feedWire offer
  simp only [bind_assoc]
  congr 1
  funext m
  cases type with
  | none => rfl
  | some known => cases m.outputType? source <;> rfl

theorem offer_run {source : Outlet} {type : Option TypeId} {m : Module} (numbered : 1 ≤ source.port)
    (held : ∀ known, type = some known → TypeHeld m known) (inside : source.node < m.nodes.size) :
    offer source type m = .ok () (offered source type m) := by
  unfold offer offered
  refine (Edit.bind_get m).trans ?_
  cases type with
  | none => rfl
  | some known =>
      cases m.outputType? source with
      | none => exact set_output_run numbered (held known rfl) inside
      | some old => rfl

theorem offer_ok {source : Outlet} {type : Option TypeId} {m changed : Module}
    (done : offer source type m = .ok () changed) : changed = offered source type m := by
  unfold offer at done
  obtain ⟨_, _, got, done⟩ := Edit.bind_ok done
  cases got
  unfold offered
  cases type with
  | none => exact (Edit.pure_ok done).2.symm
  | some known =>
      cases old : m.outputType? source with
      | none =>
          rw [old] at done
          exact (set_output_ok done).2.2.2
      | some type =>
          rw [old] at done
          exact (Edit.pure_ok done).2.symm

theorem feed_wire_run (source : Outlet) (target : Inlet) {type : Option TypeId} {m : Module}
    {scope : NodeId} (pragmas : Pragmas) (sourceScope : m.scopeOf source.node = .ok scope)
    (targetScope : m.scopeOf target.node = .ok scope) (sourceNumbered : 1 ≤ source.port)
    (targetNumbered : 1 ≤ target.port) (held : ∀ known, type = some known → TypeHeld m known) :
    feedWire source target type pragmas m = .ok () (fedWire source target type pragmas m) := by
  obtain ⟨_, sourceRole, _⟩ := scope_ok_iff.mp sourceScope
  obtain ⟨_, targetRole, _⟩ := scope_ok_iff.mp targetScope
  have shape := (quiet_offered source sourceNumbered type m).shape
  have wired := wire_run (m := offered source type m)
    ((scope_congr (shape.role source.node) scope).mpr sourceScope)
    ((scope_congr (shape.role target.node) scope).mpr targetScope) sourceNumbered targetNumbered
  rw [feed_wire_eq]
  refine (Edit.bind_of_ok (offer_run sourceNumbered held (lt_size_of_role sourceRole))).trans ?_
  refine (Edit.bind_of_ok wired).trans ?_
  refine replace_pragmas_run pragmas targetNumbered ?_
  rw [(same_shape_connect source target _).size, shape.size]
  exact lt_size_of_role targetRole

theorem feed_wire_ok {source : Outlet} {target : Inlet} {type : Option TypeId} {pragmas : Pragmas}
    {m changed : Module} {scope : NodeId} (sourceScope : m.scopeOf source.node = .ok scope)
    (targetScope : m.scopeOf target.node = .ok scope)
    (done : feedWire source target type pragmas m = .ok () changed) :
    1 ≤ source.port ∧ 1 ≤ target.port ∧ changed = fedWire source target type pragmas m := by
  rw [feed_wire_eq] at done
  obtain ⟨_, _, offering, done⟩ := Edit.bind_ok done
  have same := offer_ok offering
  subst same
  obtain ⟨_, _, wiring, done⟩ := Edit.bind_ok done
  have step := wire_ok wiring
  have shape := (quiet_offered source step.sourceNumbered type m).shape
  have wired := wire_run (m := offered source type m)
    ((scope_congr (shape.role source.node) scope).mpr sourceScope)
    ((scope_congr (shape.role target.node) scope).mpr targetScope) step.sourceNumbered
    step.targetNumbered
  rw [wired] at wiring
  cases wiring
  obtain ⟨_, targetRole, _⟩ := scope_ok_iff.mp targetScope
  have inside : target.node < (connect source target (offered source type m)).nodes.size := by
    rw [(same_shape_connect source target _).size, shape.size]
    exact lt_size_of_role targetRole
  rw [replace_pragmas_run pragmas step.targetNumbered inside] at done
  cases done
  exact ⟨step.sourceNumbered, step.targetNumbered, rfl⟩

/-! ### Literals -/

def fedText (target : Inlet) (literal : Literal) (pragmas : Pragmas) (m : Module) : Module :=
  noted target pragmas (bind target (.literal literal) m)

theorem require_live_run {table : TypeTable} {type : Option TypeId}
    (held : ∀ known, type = some known → (table.get? known).isSome) :
    TypeTable.requireLive type table = .ok () table := by
  cases type with
  | none => rfl
  | some known =>
      obtain ⟨definition, found⟩ := Option.isSome_iff_exists.mp (held known rfl)
      exact (Edit.bind_query_of_ok (by exact TypeTable.find_ok_iff.mpr found)).trans rfl

theorem held_of_require {table changed : TypeTable} {type : Option TypeId}
    (done : TypeTable.requireLive type table = .ok () changed) :
    ∀ known, type = some known → (table.get? known).isSome := by
  rintro known rfl
  obtain ⟨definition, _, query, _⟩ := Edit.bind_ok done
  rw [TypeTable.find_ok_iff.mp (Edit.query_ok query).1]
  rfl

theorem bind_literal_run {target : Inlet} {literal : Literal} {m : Module} (inside : target.node < m.nodes.size)
    (held : ∀ known, literal.type = some known → TypeHeld m known) :
    bindLiteral target literal m = .ok () (bind target (.literal literal) m) := by
  obtain ⟨node, here⟩ := exists_node_iff.mpr inside
  have live : onTypes (TypeTable.requireLive literal.type) m = .ok () m :=
    Edit.within_of_ok (require_live_run held)
  refine (Edit.bind_of_ok live).trans ?_
  exact (Edit.bind_query_of_ok (by exact node_ok_iff.mpr here)).trans rfl

theorem feed_text_run (target : Inlet) (literal : Literal) {m : Module} (pragmas : Pragmas)
    (numbered : 1 ≤ target.port) (inside : target.node < m.nodes.size)
    (held : ∀ known, literal.type = some known → TypeHeld m known) :
    feedText target literal pragmas m = .ok () (fedText target literal pragmas m) := by
  refine (Edit.bind_of_ok (bind_literal_run inside held)).trans (replace_pragmas_run pragmas numbered ?_)
  rw [(same_shape_bind target (.literal literal) m).size]
  exact inside

theorem feed_text_ok {target : Inlet} {literal : Literal} {pragmas : Pragmas} {m changed : Module}
    (done : feedText target literal pragmas m = .ok () changed) :
    1 ≤ target.port ∧ target.node < m.nodes.size ∧
      (∀ known, literal.type = some known → TypeHeld m known) ∧
      changed = fedText target literal pragmas m := by
  obtain ⟨_, _, binding, done⟩ := Edit.bind_ok done
  obtain ⟨live, inside, rfl⟩ := bind_literal_ok binding
  have numbered : 1 ≤ target.port := by
    obtain ⟨_, _, adding, _⟩ := Edit.bind_ok done
    obtain ⟨_, _, checked, _⟩ := Edit.bind_ok adding
    exact numbered_of_check (Edit.of_except_ok checked).1
  have bound : target.node < (bind target (.literal literal) m).nodes.size := by
    rw [(same_shape_bind target (.literal literal) m).size]
    exact inside
  rw [replace_pragmas_run pragmas numbered bound] at done
  cases done
  exact ⟨numbered, inside, held_of_require live, rfl⟩

end Dataflow.Module.Read
