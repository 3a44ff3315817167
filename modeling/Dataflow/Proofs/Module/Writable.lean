import Dataflow.Proofs.Module.Copy
import Dataflow.Proofs.Module.Dangling
set_option autoImplicit false

-- The only look-up of the writer that can fail is that of a type that dangles, so that a module in which no
-- reference to a type dangles can be written. Every child graph is a later node than its compound, so the
-- induction goes down from the last node, and the bound on the depth is never reached.
namespace Dataflow.Module
open TypeTable

def Lost (m : Module) (error : Error) : Prop :=
  ∃ id, m.Dangles id ∧ error = .typeNotFound id

section Lost
variable {m changed : Module} {error : Error}

theorem Tight.lost (tight : Tight m changed) (reliable : m.types.Reliable) (lost : changed.Lost error) : m.Lost error := by
  obtain ⟨id, dangles, reason⟩ := lost
  exact ⟨id, tight.dangles reliable dangles, reason⟩

/-! ### Types of functions -/

theorem add_wild_run {table : TypeTable} (reliable : table.Reliable) :
    ∃ wild changed, TypeTable.add .wild none none table = .ok wild changed ∧ Interned table .wild wild changed := by
  have none_ : LiveOption table none := fun _ none => by cases none
  have added : TypeTable.add .wild none none table = _ := add_run reliable.bounded rfl none_ none_
  refine ⟨_, _, added.trans (intern_type_run _ _), ?_⟩
  refine interned_of_intern reliable (fun _ member => by cases member) ?_ (intern_type_run _ _)
  exact fun {_ _ _} same => by cases same

theorem fill_gaps_run {id : NodeId} (reliable : m.types.Reliable) (inside : id < m.nodes.size) :
    ∃ changed, fillGaps id (m.gapsOf id) m = .ok () changed := by
  rw [fill_gaps_eq]
  by_cases whole : (m.gapsOf id).isEmpty = true
  · rw [if_pos whole]
    exact ⟨m, rfl⟩
  · rw [if_neg whole]
    obtain ⟨wild, table, added, made⟩ := add_wild_run reliable
    have here : onTypes (TypeTable.add .wild none none) m = .ok wild { m with types := table } :=
      Edit.within_of_ok added
    have held : Read.TypeHeld { m with types := table } wild := by
      obtain ⟨definition, found, _⟩ := (made.grown.reliable reliable).held made.found
      change (table.get? wild).isSome
      rw [found]
      rfl
    have run := set_outputs_run (m := { m with types := table })
      (fun port (member : port ∈ m.gapsOf id) => (mem_gaps_of.mp member).1) held inside
    exact ⟨_, (Edit.bind_of_ok here).trans run⟩

theorem ports_type_error {id : NodeId} (reliable : m.types.Reliable) (inside : id < m.nodes.size)
    (some_ : m.resultsOf id ≠ []) (refused : portsType id m = .error error changed) : m.Lost error := by
  obtain ⟨node, found⟩ := exists_node_iff.mpr inside
  have sameResults : m.resultsOf id = m.resultTypes id node := by simp [resultsOf, found]
  have sameArguments : m.argumentsOf id = argumentTypes node := by simp [argumentsOf, found]
  rw [ports_type_eq] at refused
  have signing := (Edit.bind_query_of_ok (by exact node_ok_iff.mpr found)).symm.trans refused
  rcases Edit.bind_error ((Edit.bind_get m).symm.trans signing) with signing | ⟨_, _, _, done⟩
  · obtain ⟨types, failed, _⟩ := Edit.within_error signing
    rw [← sameArguments, ← sameResults] at failed
    obtain ⟨type, member, gone, reason⟩ := signature_type_error reliable some_ failed
    exact ⟨type, ⟨gone, (List.mem_append.mp member).elim uses_of_argument uses_of_result⟩, reason⟩
  · cases done

theorem function_type_error {id : NodeId} (reliable : m.types.Reliable) (isGraph : m.IsGraph id)
    (refused : functionType id m = .error error changed) : m.Lost error := by
  rw [function_type_eq] at refused
  obtain ⟨node, here, found⟩ := graph_of_is_graph isGraph
  have inside : id < m.nodes.size := exists_node_iff.mp ⟨node, here⟩
  have sameGaps : m.gapsOf id = argumentGaps node := by simp [gapsOf, here]
  have sameResults : m.resultsOf id = m.resultTypes id node := by simp [resultsOf, here]
  have later := (Edit.bind_query_of_ok (by exact found)).symm.trans refused
  have later := (Edit.bind_get m).symm.trans later
  by_cases bare : (m.resultTypes id node).isEmpty = true
  · rw [if_pos bare] at later
    cases later
  rw [if_neg bare, ← sameGaps] at later
  obtain ⟨middle, filling⟩ := fill_gaps_run reliable inside
  have typing := (Edit.bind_of_ok filling).symm.trans later
  have tight := tight_steps.fill_gaps id (m.gapsOf id) m
  rw [Edit.after_of_ok filling] at tight
  obtain ⟨wild, table, _, _, same⟩ := fill_gaps_ok reliable filling
  have spec := filled_spec wild (m.gapsOf id) (m := { m with types := table }) inside
  rw [← same] at spec
  have some_ : m.resultsOf id ≠ [] := by
    rw [sameResults]
    exact fun none => bare (List.isEmpty_iff.mpr none)
  exact tight.lost reliable (ports_type_error (tight.reliable reliable) (by rw [spec.shape.size]; exact inside)
    (results_filled (m := { m with types := table }) spec some_) typing)

theorem function_types_error {ids : List NodeId} (reliable : m.types.Reliable) (isGraph : ∀ id ∈ ids, m.IsGraph id)
    (refused : ids.mapM functionType m = .error error changed) : m.Lost error := by
  induction ids generalizing m with
  | nil =>
      rw [List.mapM_nil] at refused
      cases refused
  | cons id rest ih =>
      obtain ⟨first, others⟩ := List.forall_mem_cons.mp isGraph
      rw [List.mapM_cons] at refused
      rcases Edit.bind_error refused with here | ⟨type, middle, here, refused⟩
      · exact function_type_error reliable first here
      have tight := tight_steps.function_type id m
      rw [Edit.after_of_ok here] at tight
      obtain ⟨_, retyped, _⟩ := function_type_ok reliable here
      rcases Edit.bind_error refused with later | ⟨_, _, _, done⟩
      · refine tight.lost reliable (ih (tight.reliable reliable) (fun other member => ?_) later)
        exact Read.is_graph_of_same_shape retyped.shape (others other member)
      · cases done

/-! ### Labels -/

theorem label_error {table : TypeTable} {id : TypeId} (failed : table.label id = .error error) :
    id ∉ table.order ∧ error = .typeNotFound id := by
  unfold TypeTable.label at failed
  cases found : table.label? id with
  | some label =>
      rw [found] at failed
      cases failed
  | none =>
      rw [found] at failed
      cases failed
      exact ⟨label_eq_none_iff.mp found, rfl⟩

theorem labels_error {table : TypeTable} {reference : Option TypeId} (failed : reference.mapM table.label = .error error) :
    ∃ id ∈ reference, id ∉ table.order ∧ error = .typeNotFound id := by
  cases reference with
  | none => cases failed
  | some id =>
      rw [Option.mapM_some] at failed
      cases found : table.label id with
      | ok label =>
          rw [found] at failed
          cases failed
      | error reason =>
          rw [found] at failed
          cases failed
          exact ⟨id, rfl, label_error found⟩

theorem labelled_error {signature : Signature} (failed : m.labelled signature = .error error) :
    ∃ id ∈ signature.references, id ∉ m.types.order ∧ error = .typeNotFound id := by
  cases signature with
  | basic kind => cases failed
  | wild => cases failed
  | container kind base =>
      rcases Outcome.bind_error failed with here | ⟨_, _, done⟩
      · exact ⟨base, by simp [Signature.references, Signature.first?], label_error here⟩
      · cases done
  | link kind element rest =>
      rcases Outcome.bind_error failed with here | ⟨_, _, failed⟩
      · exact ⟨element, by simp [Signature.references, Signature.first?], label_error here⟩
      rcases Outcome.bind_error failed with here | ⟨_, _, done⟩
      · obtain ⟨id, member, missing⟩ := labels_error here
        exact ⟨id, by simp_all [Signature.references, Signature.second?], missing⟩
      · cases done
  | function arguments results =>
      rcases Outcome.bind_error failed with here | ⟨_, _, failed⟩
      · obtain ⟨id, member, missing⟩ := labels_error here
        exact ⟨id, by simp_all [Signature.references, Signature.first?], missing⟩
      rcases Outcome.bind_error failed with here | ⟨_, _, done⟩
      · exact ⟨results, by simp [Signature.references, Signature.second?], label_error here⟩
      · cases done

theorem type_record_error (reliable : m.types.Reliable) {type : TypeId} (member : type ∈ m.types.order)
    (failed : m.typeRecord type = .error error) : m.Lost error := by
  obtain ⟨definition, found⟩ := reliable.live member
  unfold typeRecord at failed
  rw [Outcome.bind_of_ok (find_ok_iff.mpr found), Outcome.bind_of_ok (label_run member)] at failed
  obtain ⟨id, inside, gone, reason⟩ := labelled_error (Outcome.bind_pure_error_iff.mp failed)
  exact ⟨id, ⟨gone, .type member (contains_of_get found inside)⟩, reason⟩

theorem type_label_error {type : Option TypeId} (used : ∀ id, type = some id → m.Uses id)
    (failed : m.typeLabel type = .error error) : m.Lost error := by
  cases type with
  | none => cases failed
  | some id =>
      obtain ⟨gone, reason⟩ := label_error failed
      exact ⟨id, ⟨gone, used id rfl⟩, reason⟩

/-! ### Records -/

theorem binding_record_error (owned : m.Owned) (wired : m.Wired) {inlet : Inlet} {input : Input}
    (held : m.binding? inlet = input.binding) {label : Nat}
    (failed : m.bindingRecord label inlet.port input = .error error) : m.Lost error := by
  unfold bindingRecord at failed
  cases bound : input.binding with
  | none =>
      rw [bound] at failed
      cases failed
  | some binding =>
      rw [bound] at failed held
      cases binding with
      | literal literal =>
          exact type_label_error (fun type typed => .literal held typed) (Outcome.bind_pure_error_iff.mp failed)
      | wire source stamp =>
          obtain ⟨_, scope, sourceScope, _⟩ := wired.wires held
          obtain ⟨sourceLabel, labelled⟩ := label_exists owned (lt_size_of_scope sourceScope)
          have typing := (Outcome.bind_of_ok labelled).symm.trans failed
          exact type_label_error (fun type typed => .output typed) (Outcome.bind_pure_error_iff.mp typing)

theorem binding_records_error (owned : m.Owned) (wired : m.Wired) {id : NodeId} {node : Node}
    (found : m.nodes[id]? = some node) {label : Nat} (failed : m.bindingRecords label node = .error error) :
    m.Lost error := by
  obtain ⟨⟨port, input⟩, member, failed⟩ := Outcome.map_m_error (Outcome.bind_pure_error_iff.mp failed)
  have held : m.binding? ⟨id, port⟩ = input.binding := by
    rw [binding?, input_eq_of_node found, SortedMap.get?_of_mem_entries member]
    rfl
  exact binding_record_error owned wired held failed

theorem body_records_error (owned : m.Owned) (wired : m.Wired) {inner : NodeId → Except Error (List Record)} {id : NodeId}
    (isGraph : m.IsGraph id) (each : ∀ other ∈ m.nodesOf id, inner other = .error error → m.Lost error)
    (failed : m.bodyRecords inner id = .error error) : m.Lost error := by
  obtain ⟨node, here, found⟩ := graph_of_is_graph isGraph
  rw [nodes_of_node here] at each
  unfold bodyRecords at failed
  rw [Outcome.bind_of_ok found] at failed
  rcases Outcome.bind_error failed with fed | ⟨_, _, failed⟩
  · exact binding_records_error owned wired here fed
  rcases Outcome.bind_error failed with walked | ⟨_, _, done⟩
  · obtain ⟨other, member, refused⟩ := Outcome.map_m_error walked
    exact each other member refused
  · cases done

-- Owners come before what they own, so nodes are written from the last one on.
theorem node_records_error (owned : m.Owned) (wired : m.Wired) {depth : Nat} {id graph : NodeId}
    (deep : m.nodes.size ≤ id + depth) (role : m.role? id = some (.node graph))
    (failed : m.nodeRecords depth id = .error error) : m.Lost error := by
  induction depth generalizing id graph with
  | zero => exact absurd (lt_size_of_role role) (Nat.not_lt_of_le deep)
  | succ depth ih =>
      obtain ⟨node, found, _⟩ := node_of_role role
      obtain ⟨label, labelled⟩ := label_exists owned (lt_size_of_role role)
      unfold nodeRecords at failed
      rw [Outcome.bind_of_ok (node_ok_iff.mpr found), Outcome.bind_of_ok labelled] at failed
      by_cases bare : node.children.isEmpty = true
      · rw [if_pos bare] at failed
        exact binding_records_error owned wired found (Outcome.bind_pure_error_iff.mp failed)
      rw [if_neg bare] at failed
      rcases Outcome.bind_error failed with walked | ⟨_, _, failed⟩
      · obtain ⟨child, member, failed⟩ := Outcome.map_m_error walked
        rw [mem_distinct_children, ← children_of_node found] at member
        have childRole := owned.child member
        obtain ⟨childNode, there, _⟩ := node_of_role childRole
        unfold subgraphRecords at failed
        rw [Outcome.bind_of_ok (node_ok_iff.mpr there)] at failed
        refine body_records_error owned wired (is_graph_of_child childRole) (fun inner listed failed => ?_)
          (Outcome.bind_pure_error_iff.mp failed)
        have innerRole := owned.listed listed
        have later := Nat.lt_trans (owned.inside childRole).1 (owned.held innerRole).1
        exact ih (by omega) innerRole failed
      · exact binding_records_error owned wired found (Outcome.bind_pure_error_iff.mp failed)

theorem function_records_error (owned : m.Owned) (wired : m.Wired) {id : NodeId} {name : String} {type : Option TypeId}
    (role : m.role? id = some (.function name)) (known : LiveOption m.types type)
    (failed : m.functionRecords id type = .error error) : m.Lost error := by
  obtain ⟨node, found, _⟩ := node_of_role role
  unfold functionRecords at failed
  rw [Outcome.bind_of_ok (node_ok_iff.mpr found), Outcome.bind_of_ok (function_name_ok_iff.mpr role),
    Outcome.bind_of_ok (type_label_run known)] at failed
  refine body_records_error owned wired ⟨_, role, fun graph => by simp⟩ (fun inner listed failed => ?_)
    (Outcome.bind_pure_error_iff.mp failed)
  exact node_records_error owned wired (Nat.le_add_left _ _) (owned.listed listed) failed

/-! ### Texts -/

theorem live_of_settled {id : NodeId} {type : Option TypeId} (reliable : m.types.Reliable)
    (settled : Settled m id type) : LiveOption m.types type := by
  cases settled with
  | untyped _ _ => exact fun _ none => by cases none
  | typed _ _ _ signed _ =>
      obtain ⟨_, _, _, _, found⟩ := signed
      exact live_option (reliable.leads found).1

theorem text_with_error {types : List (Option TypeId)} (reliable : m.types.Reliable) (owned : m.Owned) (wired : m.Wired)
    (settled : List.Forall₂ (Settled m) m.functions types) (failed : m.textWith types = .error error) : m.Lost error := by
  rcases Outcome.bind_error failed with heading | ⟨_, _, failed⟩
  · obtain ⟨type, member, failed⟩ := Outcome.map_m_error (Outcome.bind_pure_error_iff.mp heading)
    exact type_record_error reliable member failed
  rcases Outcome.bind_error failed with walked | ⟨_, _, done⟩
  · obtain ⟨⟨id, type⟩, member, failed⟩ := Outcome.map_m_error walked
    obtain ⟨name, role⟩ := owned.registered.mp (List.of_mem_zip member).1
    exact function_records_error owned wired role
      (live_of_settled reliable (List.forall₂_zip settled member)) failed
  · cases done

theorem to_text_error (reliable : m.types.Reliable) (owned : m.Owned) (wired : m.Wired)
    (refused : toText m = .error error changed) : m.Lost error := by
  have isGraph : ∀ id ∈ m.functions, m.IsGraph id := by
    intro id member
    obtain ⟨name, role⟩ := owned.registered.mp member
    exact ⟨_, role, fun graph => by simp⟩
  have refused : (m.functions.mapM functionType >>= fun types => Edit.query (·.textWith types)) m =
    .error error changed := refused
  rcases Edit.bind_error refused with typing | ⟨types, middle, typing, failed⟩
  · exact function_types_error reliable isGraph typing
  have tight := tight_steps.function_types m.functions m
  have quiet := quiet_steps.function_types m.functions m
  rw [Edit.after_of_ok typing] at tight quiet
  obtain ⟨shape, _, settled, _⟩ := settled_function_types reliable wired typing
  rw [← shape.functions] at settled
  have missing := Edit.missing_of_query failed
  exact tight.lost reliable (text_with_error (tight.reliable reliable) (owned.of_same_shape shape)
    (wired.of_calm quiet.toCalm) settled missing)

structure Live (m : Module) : Prop where
  regular : m.types.Regular
  closed : m.types.Closed
  declared : ∀ outlet, LiveOption m.types (m.outputType? outlet)
  literals : ∀ {inlet literal}, m.binding? inlet = some (.literal literal) → LiveOption m.types literal.type

theorem not_dangles_of_live (live : m.Live) (id : TypeId) : ¬ m.Dangles id := by
  rintro ⟨gone, used⟩
  cases used with
  | type member contains =>
      obtain ⟨signature, found, inside⟩ := contains_iff.mp contains
      exact gone (live.closed member found id inside)
  | literal bound typed => exact gone (live.literals bound id typed)
  | output typed => exact gone (live.declared _ id typed)

theorem to_text_exists (live : m.Live) (owned : m.Owned) (wired : m.Wired) :
    ∃ text changed, toText m = .ok text changed := by
  cases done : toText m with
  | ok text changed => exact ⟨text, changed, rfl⟩
  | error error changed =>
      obtain ⟨id, dangles, _⟩ := to_text_error live.regular.reliable owned wired done
      exact absurd dangles (not_dangles_of_live live id)

end Lost

end Dataflow.Module
