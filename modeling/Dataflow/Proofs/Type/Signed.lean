import Dataflow.Proofs.Module.FunctionType
import Dataflow.Proofs.Type.Chains
set_option autoImplicit false

-- Chains of arguments and results. Once a chain is in a table, asking for it again changes nothing.
namespace Dataflow.TypeTable

-- The links over these types, as the table hands them out.
def Chained (table : TypeTable) : List TypeId → Option TypeId → Prop
  | [], chain => chain = none
  | element :: rest, chain => ∃ tail link, chain = some link ∧ Chained table rest tail ∧
      table.index.lookup (.link .tuple element tail) = some link

def Signed (table : TypeTable) (arguments results : List TypeId) (type : TypeId) : Prop :=
  ∃ first second, Chained table arguments first ∧ Chained table results (some second) ∧
    table.index.lookup (.function first second) = some type

theorem chained_iff {table : TypeTable} {types : List TypeId} {chain : Option TypeId} :
    Chained table types chain ↔ ∃ links, Strung table .tuple types links ∧ chain = links.head? := by
  induction types generalizing chain with
  | nil =>
      constructor
      · intro chained
        exact ⟨[], .nil, chained⟩
      · rintro ⟨_, ⟨⟩, same⟩
        exact same
  | cons element rest ih =>
      constructor
      · rintro ⟨tail, link, rfl, below, found⟩
        obtain ⟨links, strung, rfl⟩ := ih.mp below
        exact ⟨link :: links, .cons found strung, rfl⟩
      · rintro ⟨_, _ | ⟨found, strung⟩, same⟩
        exact ⟨_, _, same, ih.mpr ⟨_, strung, rfl⟩, found⟩

theorem chained_of_grows {table changed : TypeTable} (grows : Grows table changed) {types : List TypeId}
    {chain : Option TypeId} (chained : Chained table types chain) : Chained changed types chain := by
  obtain ⟨links, strung, same⟩ := chained_iff.mp chained
  exact chained_iff.mpr ⟨links, strung.mono grows.index, same⟩

theorem signed_of_grows {table changed : TypeTable} (grows : Grows table changed)
    {arguments results : List TypeId} {type : TypeId} (signed : Signed table arguments results type) :
    Signed changed arguments results type := by
  obtain ⟨first, second, arguments, results, found⟩ := signed
  exact ⟨first, second, chained_of_grows grows arguments, chained_of_grows grows results,
    grows.index found⟩

theorem live_of_chained {table : TypeTable} (reliable : table.Reliable) {types : List TypeId}
    {chain : Option TypeId} (chained : Chained table types chain) : LiveOption table chain := by
  obtain ⟨links, strung, rfl⟩ := chained_iff.mp chained
  exact strung.head_live reliable

theorem add_tuple_eq (types : List TypeId) (table : TypeTable) :
    addChain types .tuple none table = addLinks LinkKind.tuple.code (types.map (·, none)) table := rfl

theorem add_tuple_ok {table changed : TypeTable} {types : List TypeId} {chain : Option TypeId}
    (reliable : table.Reliable) (done : addChain types .tuple none table = .ok chain changed) :
    Grown table changed ∧ Chained changed types chain ∧ ∀ type ∈ types, type ∈ changed.order := by
  obtain ⟨grown, strung, live⟩ := add_links_ok reliable ((add_tuple_eq types table).symm.trans done)
  exact ⟨grown, chained_iff.mpr strung, live⟩

theorem add_tuple_run {table : TypeTable} {types : List TypeId} {chain : Option TypeId}
    (reliable : table.Reliable) (chained : Chained table types chain)
    (live : ∀ type ∈ types, type ∈ table.order) : addChain types .tuple none table = .ok chain table := by
  obtain ⟨links, strung, rfl⟩ := chained_iff.mp chained
  exact (add_tuple_eq types table).trans (add_links_run reliable strung live)

theorem chain_of_chained {table : TypeTable} {types : List TypeId} {head : TypeId} (regular : table.Regular)
    (chained : Chained table types (some head)) : table.chain head = .ok types := by
  obtain ⟨rank, grounded⟩ := regular.grounded
  obtain ⟨links, strung, first⟩ := chained_iff.mp chained
  have reliable := regular.reliable
  exact strung.chain_eq reliable (strung.links_eq reliable (strung.nodup reliable grounded) first.symm)

-- The links of the arguments and the function itself are types of their own.
theorem arguments_lt {table : TypeTable} {arguments results : List TypeId} {type : TypeId} (regular : table.Regular)
    (signed : Signed table arguments results type) : arguments.length < table.order.length := by
  obtain ⟨first, second, chained, _, found⟩ := signed
  obtain ⟨links, strung, _⟩ := chained_iff.mp chained
  obtain ⟨rank, grounded⟩ := regular.grounded
  have reliable := regular.reliable
  have apart : type ∉ links := by
    intro member
    obtain ⟨_, _, linked⟩ := strung.linked reliable type member
    rw [(reliable.leads found).2] at linked
    cases linked
  have once : (type :: links).Nodup := List.nodup_cons.mpr ⟨apart, strung.nodup reliable grounded⟩
  have live : type :: links ⊆ table.order :=
    List.cons_subset.mpr ⟨(reliable.leads found).1, strung.live reliable⟩
  have bound := (List.subperm_of_subset once live).length_le
  rwa [List.length_cons, strung.length] at bound

end TypeTable

namespace Module
open TypeTable

theorem function_parameters (first : Option TypeId) (second : TypeId) :
    Signature.ofParameters .function first (some second) = .ok (.function first second) := by
  cases first <;> rfl

theorem signature_type_ok {table changed : TypeTable} {arguments results : List TypeId} {type : TypeId}
    (reliable : table.Reliable) (done : signatureType arguments results table = .ok type changed) :
    Grown table changed ∧ Signed changed arguments results type ∧
      ∀ known ∈ arguments ++ results, known ∈ changed.order := by
  obtain ⟨first, firstTable, here, done⟩ := Edit.bind_ok done
  obtain ⟨firstGrown, firstChained, firstLive⟩ := add_tuple_ok reliable here
  obtain ⟨second, secondTable, there, done⟩ := Edit.bind_ok done
  obtain ⟨secondGrown, secondChained, secondLive⟩ := add_tuple_ok (firstGrown.reliable reliable) there
  cases second with
  | none =>
      obtain ⟨signature, made, _⟩ := add_ok done
      cases made
  | some chain =>
      have secondReliable := (firstGrown.trans secondGrown).reliable reliable
      obtain ⟨signature, made, final⟩ := interned_of_add secondReliable done fun {signature} made => by
        rw [function_parameters] at made
        cases made
        exact fun {_ _ _} same => by cases same
      rw [function_parameters] at made
      cases made
      have laterGrown := secondGrown.trans final.grown
      refine ⟨firstGrown.trans laterGrown, ⟨first, chain, chained_of_grows laterGrown.grows firstChained,
        chained_of_grows final.grown.grows secondChained, final.found⟩, ?_⟩
      intro known member
      rcases List.mem_append.mp member with member | member
      · exact laterGrown.grows.live (firstLive known member)
      · exact final.grown.grows.live (secondLive known member)

theorem signature_type_run {table : TypeTable} {arguments results : List TypeId} {type : TypeId}
    (reliable : table.Reliable) (signed : Signed table arguments results type)
    (live : ∀ known ∈ arguments ++ results, known ∈ table.order) :
    signatureType arguments results table = .ok type table := by
  obtain ⟨first, second, firstChained, secondChained, found⟩ := signed
  have here := add_tuple_run reliable firstChained fun known member => live known (List.mem_append_left _ member)
  have there := add_tuple_run reliable secondChained fun known member => live known (List.mem_append_right _ member)
  have added := add_run reliable.bounded (function_parameters first second) (live_of_chained reliable firstChained)
    (live_of_chained reliable secondChained)
  refine (Edit.bind_of_ok here).trans ?_
  refine (Edit.bind_of_ok there).trans ?_
  exact added.trans (intern_known found)

theorem signature_type_error {table changed : TypeTable} {arguments results : List TypeId} {error : Error}
    (reliable : table.Reliable) (nonempty : results ≠ [])
    (refused : signatureType arguments results table = .error error changed) :
    ∃ type ∈ arguments ++ results, type ∉ table.order ∧ error = .typeNotFound type := by
  rcases Edit.bind_error refused with here | ⟨first, middle, here, refused⟩
  · obtain ⟨type, member, missing, reason⟩ := add_links_error reliable ((add_tuple_eq arguments table).symm.trans here)
    exact ⟨type, List.mem_append_left _ member, missing, reason⟩
  obtain ⟨firstGrown, firstChained, _⟩ := add_tuple_ok reliable here
  have firstReliable := firstGrown.reliable reliable
  rcases Edit.bind_error refused with there | ⟨second, final, there, refused⟩
  · obtain ⟨type, member, missing, reason⟩ := add_links_error firstReliable ((add_tuple_eq results middle).symm.trans there)
    exact ⟨type, List.mem_append_right _ member, fun live => missing (firstGrown.grows.live live), reason⟩
  -- The chains have just been added, so that they are live.
  obtain ⟨secondGrown, secondChained, _⟩ := add_tuple_ok firstReliable there
  have secondReliable := secondGrown.reliable firstReliable
  have live := live_of_chained secondReliable secondChained
  have firstLive := live_of_chained secondReliable (chained_of_grows secondGrown.grows firstChained)
  cases results with
  | nil => exact absurd rfl nonempty
  | cons result rest =>
      obtain ⟨tail, link, rfl, _, _⟩ := id secondChained
      rcases (add_error refused).2 with ⟨fault, none⟩ | ⟨type, same | same, missing, _⟩
      · rw [function_parameters] at none
        cases none
      · exact absurd (firstLive type same) (not_mem_of_get_none secondReliable missing)
      · exact absurd (live type same) (not_mem_of_get_none secondReliable missing)

end Module

end Dataflow
