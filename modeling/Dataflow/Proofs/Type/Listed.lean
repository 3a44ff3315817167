import Mathlib.Data.List.Induction
import Dataflow.Proofs.Pragma.Suffix
import Dataflow.Proofs.Type.Signed
set_option autoImplicit false

-- Tables that list types in a given order, and tables that list the types of another one: every type
-- takes its place in the list as its id.
namespace Dataflow

def TypeDef.renumber (number : Nat → Nat) (definition : TypeDef) : TypeDef :=
  ⟨definition.signature.map number, definition.pragmas.normalize⟩

namespace Signature

theorem references_map (number : Nat → Nat) (signature : Signature) :
    (signature.map number).references = signature.references.map number := by
  cases signature with
  | basic kind => rfl
  | wild => rfl
  | container kind base => rfl
  | link kind element rest => cases rest <;> rfl
  | function arguments results => cases arguments <;> rfl

theorem code_map (number : Nat → Nat) (signature : Signature) :
    (signature.map number).code = signature.code := by
  cases signature <;> rfl

theorem map_congr {first second : Nat → Nat} {signature : Signature}
    (same : ∀ reference ∈ signature.references, first reference = second reference) :
    signature.map first = signature.map second := by
  cases signature with
  | basic kind => rfl
  | wild => rfl
  | container kind base => simp [map, same base (by simp [references, first?])]
  | link kind element rest =>
      have head := same element (by simp [references, first?])
      cases rest with
      | none => simp [map, head]
      | some rest => simp [map, head, same rest (by simp [references, second?])]
  | function arguments results =>
      have last := same results (by simp [references, second?])
      cases arguments with
      | none => simp [map, last]
      | some arguments => simp [map, last, same arguments (by simp [references, first?])]

theorem map_map (first second : Nat → Nat) (signature : Signature) :
    (signature.map first).map second = signature.map (second ∘ first) := by
  cases signature with
  | basic kind => rfl
  | wild => rfl
  | container kind base => rfl
  | link kind element rest => cases rest <;> rfl
  | function arguments results => cases arguments <;> rfl

-- Renumbering tells signatures apart as long as it tells their references apart.
theorem map_inj {number : Nat → Nat} {first second : Signature}
    (apart : ∀ a ∈ first.references, ∀ b ∈ second.references, number a = number b → a = b)
    (same : first.map number = second.map number) : first = second := by
  cases first with
  | basic kind => cases second <;> simp_all [map]
  | wild => cases second <;> simp_all [map]
  | container kind base => cases second <;> simp_all [map, references, first?, second?]
  | link kind element rest =>
      cases second with
      | link otherKind otherElement otherRest =>
          cases rest <;> cases otherRest <;> simp_all [map, references, first?, second?]
      | _ => simp [map] at same
  | function arguments results =>
      cases second with
      | function otherArguments otherResults =>
          cases arguments <;> cases otherArguments <;> simp_all [map, references, first?, second?]
      | _ => simp [map] at same

end Signature

namespace TypeTable

/-! ### Lists of definitions -/

theorem lookup_fold (signature : Signature) (entries : List (Signature × TypeId))
    (index : List (Signature × TypeId)) :
    (entries.foldl (fun index entry =>
      if (index.lookup entry.1).isSome then index else entry :: index) index).lookup signature =
      (index.lookup signature).or ((entries.find? fun entry => entry.1 = signature).map (·.2)) := by
  induction entries generalizing index with
  | nil => simp
  | cons entry rest ih =>
      obtain ⟨other, id⟩ := entry
      rw [List.foldl_cons, ih, List.find?_cons]
      by_cases here : other = signature
      · subst here
        cases known : index.lookup other with
        | some old => simp [known]
        | none => simp
      · have different : (signature == other) = false := beq_false_of_ne fun same => here same.symm
        cases known : index.lookup other with
        | some old => simp [here]
        | none => simp [here, List.lookup_cons, different]

theorem find_zip_range (definitions : List TypeDef) (signature : Signature) :
    (((definitions.map TypeDef.signature).zip (List.range definitions.length)).find? fun entry =>
      entry.1 = signature).map (·.2) =
      (List.range definitions.length).find? fun id =>
        definitions[id]?.map TypeDef.signature = some signature := by
  induction definitions using List.reverseRecOn with
  | nil => rfl
  | append_singleton front last ih =>
      have older : ∀ id ∈ List.range front.length, decide ((front ++ [last])[id]?.map TypeDef.signature =
          some signature) = decide (front[id]?.map TypeDef.signature = some signature) := by
        intro id member
        rw [List.getElem?_append_left (List.mem_range.mp member)]
      rw [List.length_append, List.length_singleton, List.range_succ, List.map_append,
        List.zip_append (by simp), List.find?_append, List.find?_append, Option.map_or, ih,
        find_congr older]
      congr 1
      by_cases here : last.signature = signature
      · simp [here]
      · simp [here]

theorem signature_of_list (definitions : List TypeDef) (id : TypeId) :
    (ofList definitions).signature? id = definitions[id]?.map TypeDef.signature := by
  simp [signature?, ofList]

theorem lookup_of_list (definitions : List TypeDef) (signature : Signature) :
    (ofList definitions).index.lookup signature =
      (ofList definitions).order.find? fun id => (ofList definitions).signature? id = some signature := by
  have folded := lookup_fold signature
    ((definitions.map TypeDef.signature).zip (List.range definitions.length)) []
  rw [find_zip_range] at folded
  simp only [signature_of_list]
  exact folded

-- Types that only refer to types of the list, downwards.
theorem regular_of_list {definitions : List TypeDef} (rank : TypeId → Nat)
    (inside : ∀ {id : TypeId} {definition : TypeDef}, definitions[id]? = some definition →
      ∀ reference ∈ definition.signature.references, reference < definitions.length)
    (downwards : ∀ {id : TypeId} {definition : TypeDef}, definitions[id]? = some definition →
      ∀ reference ∈ definition.signature.references, rank reference < rank id) :
    (ofList definitions).Regular := by
  have found : ∀ {id signature}, (ofList definitions).signature? id = some signature →
      ∃ definition, definitions[id]? = some definition ∧ definition.signature = signature := by
    intro id signature here
    rw [signature_of_list] at here
    exact Option.map_eq_some_iff.mp here
  refine ⟨?_, List.nodup_range, lookup_of_list definitions, ?_, ⟨rank, ?_⟩⟩
  · intro id member
    have bound := List.mem_range.mp member
    simpa [ofList] using bound
  · intro id signature here reference member
    obtain ⟨definition, there, rfl⟩ := found here
    simpa [ofList] using inside there reference member
  · intro id signature here reference member
    obtain ⟨definition, there, rfl⟩ := found here
    exact downwards there reference member

/-! ### Live types -/

def place (table : TypeTable) (id : TypeId) : Nat :=
  table.order.idxOf id

theorem place_lt {table : TypeTable} {id : TypeId} (member : id ∈ table.order) :
    table.place id < table.order.length :=
  List.idxOf_lt_length_iff.mpr member

theorem place_inj {table : TypeTable} {first second : TypeId} (member : first ∈ table.order)
    (same : table.place first = table.place second) : first = second :=
  (List.idxOf_inj member).mp same

theorem order_at_place {table : TypeTable} {id : TypeId} (member : id ∈ table.order) :
    table.order[table.place id]? = some id :=
  List.getElem?_idxOf member

theorem place_of_order {table : TypeTable} (regular : table.Regular) {position : Nat} {id : TypeId}
    (found : table.order[position]? = some id) : table.place id = position := by
  obtain ⟨bound, rfl⟩ := List.getElem?_eq_some_iff.mp found
  exact regular.once.idxOf_getElem position bound

/-! ### Relisting -/

structure Relisted (table copy : TypeTable) : Prop where
  order : copy.order = List.range table.order.length
  size : copy.arena.size = table.order.length
  arena : ∀ id ∈ table.order, copy.arena[table.place id]? = table.arena[id]?.map (·.renumber table.place)
  canonical : ∀ signature, copy.index.lookup signature =
    copy.order.find? fun id => copy.signature? id = some signature

namespace Relisted

variable {table copy : TypeTable}

theorem signature (relisted : Relisted table copy) {id : TypeId} (member : id ∈ table.order) :
    copy.signature? (table.place id) = (table.signature? id).map (·.map table.place) := by
  rw [signature?, relisted.arena id member, signature?]
  cases table.arena[id]? <;> rfl

theorem live (relisted : Relisted table copy) {id : TypeId} (member : id ∈ table.order) :
    table.place id ∈ copy.order := by
  rw [relisted.order]
  exact List.mem_range.mpr (place_lt member)

theorem exists_of_size (relisted : Relisted table copy) (regular : table.Regular) {id : TypeId}
    (inside : id < copy.arena.size) : ∃ old ∈ table.order, table.place old = id := by
  rw [relisted.size] at inside
  exact ⟨table.order[id], List.getElem_mem inside, place_of_order regular (List.getElem?_eq_getElem inside)⟩

theorem exists_of_signature (relisted : Relisted table copy) (regular : table.Regular) {id : TypeId}
    {signature : Signature} (found : copy.signature? id = some signature) :
    ∃ old original, old ∈ table.order ∧ table.place old = id ∧ table.signature? old = some original ∧
      signature = original.map table.place := by
  obtain ⟨old, member, rfl⟩ := relisted.exists_of_size regular (signature_lt_size found)
  rw [relisted.signature member] at found
  obtain ⟨original, here, rfl⟩ := Option.map_eq_some_iff.mp found
  exact ⟨old, original, member, rfl, here, rfl⟩

theorem regular (relisted : Relisted table copy) (regular : table.Regular) (closed : table.Closed) :
    copy.Regular := by
  obtain ⟨rank, downwards⟩ := regular.grounded
  refine ⟨?_, ?_, relisted.canonical, ?_, ⟨fun id => rank (table.order.getD id 0), ?_⟩⟩
  · intro id member
    rw [relisted.order, List.mem_range] at member
    rw [relisted.size]
    exact member
  · rw [relisted.order]
    exact List.nodup_range
  · intro id signature found reference member
    obtain ⟨old, original, live, rfl, here, rfl⟩ := relisted.exists_of_signature regular found
    rw [Signature.references_map] at member
    obtain ⟨oldReference, inside, rfl⟩ := List.mem_map.mp member
    rw [relisted.size]
    exact place_lt (closed live here oldReference inside)
  · intro id signature found reference member
    obtain ⟨old, original, live, rfl, here, rfl⟩ := relisted.exists_of_signature regular found
    rw [Signature.references_map] at member
    obtain ⟨oldReference, inside, rfl⟩ := List.mem_map.mp member
    simp only [List.getD_eq_getElem?_getD, order_at_place live,
      order_at_place (closed live here oldReference inside), Option.getD_some]
    exact downwards here oldReference inside

-- The type that is handed out for a signature is the same type in both tables.
theorem lookup (relisted : Relisted table copy) (regular : table.Regular) (closed : table.Closed)
    {signature : Signature} {id : TypeId} (found : table.index.lookup signature = some id) :
    copy.index.lookup (signature.map table.place) = some (table.place id) := by
  obtain ⟨member, here⟩ := live_of_lookup regular found
  rw [regular.canonical, List.find?_eq_some_iff_getElem] at found
  obtain ⟨_, position, bound, same, earlier⟩ := found
  have placed : table.place id = position := place_of_order regular (by rw [List.getElem?_eq_getElem bound, same])
  rw [relisted.canonical, List.find?_eq_some_iff_getElem]
  refine ⟨?_, position, ?_, ?_, ?_⟩
  · rw [relisted.signature member, here]
    simp
  · rw [relisted.order, List.length_range]
    exact bound
  · simp [relisted.order, placed]
  · intro before less
    have inside : before < table.order.length := Nat.lt_trans less bound
    have live : table.order[before] ∈ table.order := List.getElem_mem inside
    have there : table.place table.order[before] = before :=
      place_of_order regular (List.getElem?_eq_getElem inside)
    have other := earlier before less
    have original := relisted.signature live
    rw [there] at original
    simp only [relisted.order, List.getElem_range, original]
    simp only [Bool.not_eq_eq_eq_not, Bool.not_true, decide_eq_false_iff_not] at other ⊢
    intro equal
    refine other ?_
    obtain ⟨older, oldFound, mapped⟩ := Option.map_eq_some_iff.mp equal
    rw [oldFound]
    refine congrArg some (Signature.map_inj ?_ mapped)
    intro a inA b _ placesSame
    exact place_inj (closed live oldFound a inA) placesSame

theorem chained (relisted : Relisted table copy) (regular : table.Regular) (closed : table.Closed)
    {types : List TypeId} {chain : Option TypeId} (chained : Chained table types chain) :
    Chained copy (types.map table.place) (chain.map table.place) := by
  induction types generalizing chain with
  | nil =>
      change chain = none at chained
      subst chained
      rfl
  | cons element rest ih =>
      obtain ⟨tail, link, rfl, below, found⟩ := chained
      have linked := relisted.lookup regular closed found
      exact ⟨tail.map table.place, table.place link, rfl, ih below, linked⟩

theorem signed (relisted : Relisted table copy) (regular : table.Regular) (closed : table.Closed)
    {arguments results : List TypeId} {type : TypeId} (signed : Signed table arguments results type) :
    Signed copy (arguments.map table.place) (results.map table.place) (table.place type) := by
  obtain ⟨first, second, firstChained, secondChained, found⟩ := signed
  exact ⟨first.map table.place, table.place second, relisted.chained regular closed firstChained,
    relisted.chained regular closed secondChained, relisted.lookup regular closed found⟩

end Relisted

end TypeTable

end Dataflow
