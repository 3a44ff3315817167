import Mathlib.Order.Bounds.Basic
import Dataflow.Proofs.Module.Renamed
set_option autoImplicit false

-- How many arguments a function has once it is read back. A text tells of an argument in two places: in
-- the type of the function, and there is one only where a result has a type, and on edges that start at
-- the argument. Arguments that are in neither are forgotten.
namespace Dataflow.Module

-- As many arguments are demanded of a caller: the highest output port of the function.
def arity (m : Module) (id : NodeId) : Nat :=
  (m.nodes[id]?.map Node.maxOutput).getD 0

-- Arguments that a text tells of.
def Recorded (m : Module) (outlet : Outlet) : Prop :=
  m.Consumed outlet ∨ m.resultsOf outlet.node ≠ [] ∧ (m.outputType? outlet).isSome

-- What a function that is read back knows of its arguments.
structure Remembers (m copy : Module) (id twin : NodeId) : Prop where
  role : copy.role? twin = m.role? id
  highest : IsGreatest {port | port = 0 ∨ m.Recorded ⟨id, port⟩} (copy.arity twin)
  all : copy.arity twin = m.arity id ↔ m.arity id = 0 ∨ m.Recorded ⟨id, m.arity id⟩

/-! ### Highest ports -/

theorem greatest_of_reaching {part whole : Set Nat} {top : Nat} (inside : part ⊆ whole)
    (reached : ∀ port ∈ whole, ∃ higher ∈ part, port ≤ higher) (greatest : IsGreatest whole top) :
    IsGreatest part top := by
  obtain ⟨higher, member, above⟩ := reached top greatest.1
  have same : higher = top := Nat.le_antisymm (greatest.2 (inside member)) above
  rw [same] at member
  exact ⟨member, fun port here => greatest.2 (inside here)⟩

theorem greatest_arity (m : Module) (id : NodeId) :
    IsGreatest {port | port = 0 ∨ (m.output? ⟨id, port⟩).isSome} (m.arity id) := by
  have known : m.arity id = (m.outputsOf id).lastKey?.getD 0 := by
    unfold arity outputsOf
    cases m.nodes[id]? <;> rfl
  rw [known]
  refine ⟨?_, fun port held => ?_⟩
  · cases last : (m.outputsOf id).lastKey? with
    | none => exact .inl rfl
    | some top =>
        have held := (SortedMap.last_key_iff.mp last).1
        rw [get_outputs] at held
        exact .inr held
  · rcases held with rfl | held
    · exact Nat.zero_le _
    · rw [← get_outputs] at held
      exact SortedMap.le_last_key held

section Typed
variable {m settled : Module}

-- Ports that are added have a typed port above them.
theorem arity_typed (typed : Typed m settled) (id : NodeId) : settled.arity id = m.arity id := by
  refine (greatest_of_reaching ?_ ?_ (greatest_arity settled id)).unique (greatest_arity m id)
  · exact fun port held => held.imp_right typed.output_held
  · rintro port (none | held)
    · exact ⟨port, .inl none, Nat.le_refl port⟩
    · obtain ⟨top, there, below⟩ := typed.output_below held
      exact ⟨top, .inr there, below⟩

theorem consumed_typed (typed : Typed m settled) {outlet : Outlet} : settled.Consumed outlet ↔ m.Consumed outlet := by
  unfold Consumed
  simp only [binding_eq_of_input (typed.input _)]

-- What a text tells of reaches as high before it is written as it does then.
theorem greatest_recorded (typed : Typed m settled) {id : NodeId} {name : String}
    (role : m.role? id = some (.function name)) (bare : m.resultsOf id = [] → settled.resultsOf id = []) {top : Nat}
    (greatest : IsGreatest {port | port = 0 ∨ settled.Consumed ⟨id, port⟩ ∨ settled.Declared ⟨id, port⟩} top) :
    IsGreatest {port | port = 0 ∨ m.Recorded ⟨id, port⟩} top := by
  refine greatest_of_reaching ?_ ?_ greatest
  · rintro port (none | consumed | ⟨results, known⟩)
    · exact .inl none
    · exact .inr (.inl ((consumed_typed typed).mpr consumed))
    · obtain ⟨type, known⟩ := Option.isSome_iff_exists.mp known
      refine .inr (.inr ⟨⟨name, (typed.shape.role id).trans role⟩, ?_, ?_⟩)
      · exact results_kept (fun port => typed.input ⟨id, port⟩) (fun _ _ => typed.type_kept) results
      · rw [typed.type_kept known]
        rfl
  · rintro port (none | consumed | ⟨_, results, known⟩)
    · exact ⟨port, .inl none, Nat.le_refl port⟩
    · exact ⟨port, .inr (.inl ((consumed_typed typed).mp consumed)), Nat.le_refl port⟩
    · have before : m.resultsOf id ≠ [] := fun none => results (bare none)
      rcases typed.output ⟨id, port⟩ with same | ⟨_, _, ⟨top, above, below⟩, _⟩
      · rw [outputType?, same] at known
        exact ⟨port, .inr (.inr ⟨before, known⟩), Nat.le_refl port⟩
      · exact ⟨top, .inr (.inr ⟨before, above⟩), Nat.le_of_lt below⟩

end Typed

theorem recorded_held {m : Module} (wired : m.Wired) {outlet : Outlet} (recorded : m.Recorded outlet) :
    (m.output? outlet).isSome := by
  rcases recorded with ⟨inlet, stamp, bound⟩ | ⟨_, known⟩
  · exact (wired.wires bound).1
  · exact held_of_type known

theorem all_arguments_iff {m : Module} (wired : m.Wired) {id : NodeId} {top : Nat}
    (highest : IsGreatest {port | port = 0 ∨ m.Recorded ⟨id, port⟩} top) :
    top = m.arity id ↔ m.arity id = 0 ∨ m.Recorded ⟨id, m.arity id⟩ := by
  constructor
  · rintro rfl
    exact highest.1
  · intro recorded
    refine Nat.le_antisymm ?_ (highest.2 recorded)
    exact (greatest_arity m id).2 (highest.1.imp_right (recorded_held wired))

/-! ### The module that is read back -/

section Copied
variable {m settled copy : Module} {order : List NodeId} {id : NodeId}

theorem Copied.remembers (copied : Copied settled order copy) (typed : Typed m settled) (wired : m.Wired)
    {name : String} (member : id ∈ order) (role : m.role? id = some (.function name))
    (bare : m.resultsOf id = [] → settled.resultsOf id = []) : Remembers m copy id (order.idxOf id) := by
  have greatest := greatest_arity copy (order.idxOf id)
  simp only [copied.output_iff member] at greatest
  have highest := greatest_recorded typed role bare greatest
  refine ⟨?_, highest, all_arguments_iff wired highest⟩
  rw [(copied.placed id member).role, typed.shape.role, role]
  rfl

end Copied

-- A function has as many arguments as before unless the highest one is read nowhere and is not in the
-- type of the function, and then it has as many as the text tells of.
theorem recorded_arguments_survive {start : Module} (blank : start = .initial ∨ start = .empty)
    (requests : List Request) (blankless : (run start requests).Blankless) {text : String} {settled copy : Module}
    (written : toText.result (run start requests) = .ok (text, settled)) (read : ofText text = .ok copy) :
    (∀ id, settled.arity id = (run start requests).arity id) ∧
      List.Forall₂ (Remembers (run start requests) copy) (run start requests).functions copy.functions := by
  obtain ⟨history, made⟩ := made_run requests (made_start blank)
  have regular := made.tidy.types.regular
  have done := Edit.result_eq_ok.mp written
  obtain ⟨typed, types, each, shown⟩ := to_text_ok regular made.wired done
  have fitting : settled.Fitting Pragmas.Wordy :=
    fitting_of_spelled made blankless.nodes blankless.types blankless.header Pragmas.blankless_empty
      Pragmas.quoteless_of_blankless Pragmas.wordy_of_blankless typed
  obtain ⟨records, order, body, typesWritten, functionsWritten, rfl⟩ := text_with_ok each shown
  have copied := copied_of_accepted typed.regular (made.owned.of_same_shape typed.shape)
    (wired_to_text made.wired done) (functions_positive blank requests typed) fitting typesWritten functionsWritten read
  refine ⟨arity_typed typed, ?_⟩
  rw [copied.functions, typed.shape.functions]
  refine List.forall₂_map_right_iff.mpr (List.forall₂_same.mpr fun id member => ?_)
  obtain ⟨name, role⟩ := made.owned.registered.mp member
  refine copied.remembers typed made.wired (copied.roots ?_) role fun bare => ?_
  · rw [typed.shape.functions]
    exact member
  · -- Asking for the type of a function without typed results changes nothing.
    have isGraph : (run start requests).IsGraph id := ⟨_, role, fun graph => by simp⟩
    cases settled_to_text regular made.wired done (.untyped isGraph bare) with
    | untyped _ still => exact still

-- Without a result there is no type that would tell of an argument that nothing reads.
theorem unread_argument_is_forgotten :
    let m := run Module.empty [.addBasic .integer, .addFunction "f", .setOutput ⟨0, 1⟩ 0]
    m.Blankless ∧ ∃ text settled copy, toText.result m = .ok (text, settled) ∧ settled.Worded ∧
      ofText text = .ok copy ∧ m.functions = [0] ∧ copy.functions = [0] ∧ m.arity 0 = 1 ∧ copy.arity 0 = 0 := by
  intro m
  have shown : (toText.result m).toOption.any (fun done => decide done.2.Worded &&
      (ofText done.1).toOption.any fun copy => decide (copy.functions = [0] ∧ copy.arity 0 = 0)) = true := by
    decide +kernel
  refine ⟨by decide +kernel, ?_⟩
  cases written : toText.result m with
  | error error =>
      rw [written] at shown
      cases shown
  | ok done =>
      obtain ⟨text, settled⟩ := done
      rw [written] at shown
      obtain ⟨worded, shown⟩ := (Bool.and_eq_true _ _).mp shown
      cases read : ofText text with
      | error error =>
          rw [read] at shown
          cases shown
      | ok copy =>
          rw [read] at shown
          obtain ⟨functions, none⟩ := of_decide_eq_true shown
          exact ⟨text, settled, copy, rfl, of_decide_eq_true worded, read, by decide +kernel, functions,
            by decide +kernel, none⟩

-- Nothing reads an argument here, and the second argument is missing, but there is a result.
theorem typed_function_keeps_arguments :
    let m := run Module.empty [.addBasic .integer, .addFunction "f", .setOutput ⟨0, 1⟩ 0, .setOutput ⟨0, 3⟩ 0,
      .setLiteral ⟨0, 1⟩ (.int 7)]
    ∃ text settled copy twin, toText.result m = .ok (text, settled) ∧ ofText text = .ok copy ∧
      copy.functions = [twin] ∧ copy.role? twin = some (.function "f") ∧ copy.arity twin = 3 := by
  intro m
  have blankless : m.Blankless := by decide +kernel
  have shown : (toText.result m).toOption.any (fun done => (ofText done.1).toOption.isSome) = true := by
    decide +kernel
  cases written : toText.result m with
  | error error =>
      rw [written] at shown
      cases shown
  | ok done =>
      obtain ⟨text, settled⟩ := done
      rw [written] at shown
      obtain ⟨copy, read⟩ := Option.isSome_iff_exists.mp shown
      have read := Outcome.mem_to_option.mp read
      obtain ⟨_, each⟩ := recorded_arguments_survive (.inr rfl) _ blankless written read
      have functions : m.functions = [0] := by decide +kernel
      have arity : m.arity 0 = 3 := by decide +kernel
      have recorded : m.Recorded ⟨0, 3⟩ := .inr (by decide +kernel)
      have role : m.role? 0 = some (.function "f") := by decide +kernel
      change List.Forall₂ (Remembers m copy) m.functions copy.functions at each
      rw [functions] at each
      obtain ⟨twin, _, remembers, none, same⟩ := List.forall₂_cons_left_iff.mp each
      rw [List.forall₂_nil_left_iff.mp none] at same
      refine ⟨text, settled, copy, twin, rfl, read, same, remembers.role.trans role, ?_⟩
      rw [remembers.all.mpr (.inr (by rw [arity]; exact recorded)), arity]

end Dataflow.Module
