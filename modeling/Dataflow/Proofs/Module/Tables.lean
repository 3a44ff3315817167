import Dataflow.Proofs.Module.Labels
import Dataflow.Proofs.Record.Parsed
import Dataflow.Proofs.Type.Signed
set_option autoImplicit false

-- The table of a text that is accepted.
namespace Dataflow
open Text (wordBound)

namespace TypeTable

structure Sane (table : TypeTable) : Prop where
  regular : table.Regular
  closed : table.Closed
  homogeneous : table.Homogeneous
  plain : ∀ {type definition}, table.get? type = some definition → definition.pragmas.Plain

-- Links lead downwards, so a chain holds none twice.
theorem walk_ok {table : TypeTable} {rank : TypeId → Nat}
    (grounded : ∀ {id signature}, table.signature? id = some signature →
      ∀ reference ∈ signature.references, rank reference < rank id)
    {head : TypeId} {steps : Nat} {link : Option TypeId} {links : List TypeId}
    (done : table.walk head steps link = .ok links) :
    (∀ other ∈ links, other ∈ table.order ∧ ∃ first, link = some first ∧ rank other ≤ rank first) ∧
      links.Pairwise fun first second => rank second < rank first := by
  induction steps generalizing link links with
  | zero =>
      cases link with
      | none =>
          cases done
          exact ⟨fun _ member => (by cases member), .nil⟩
      | some first => cases done
  | succ steps ih =>
      cases link with
      | none =>
          cases done
          exact ⟨fun _ member => (by cases member), .nil⟩
      | some first =>
          obtain ⟨definition, found, done⟩ := Outcome.bind_ok done
          obtain ⟨rest, walked, done⟩ := Outcome.bind_ok done
          cases done
          obtain ⟨member, there⟩ := get_eq_some_iff.mp (find_ok_iff.mp found)
          obtain ⟨each, downwards⟩ := ih walked
          have signature : table.signature? first = some definition.signature := by
            rw [signature?, there]
            rfl
          have lower : ∀ other ∈ rest, rank other < rank first := by
            intro other inside
            obtain ⟨_, next, second, bound⟩ := each other inside
            have step := grounded signature next (by simp [Signature.references, second])
            omega
          refine ⟨fun other inside => ?_, List.pairwise_cons.mpr ⟨lower, downwards⟩⟩
          rcases List.mem_cons.mp inside with rfl | inside
          · exact ⟨member, other, rfl, Nat.le_refl _⟩
          · exact ⟨(each other inside).1, first, rfl, Nat.le_of_lt (lower other inside)⟩

theorem chain_ok {table : TypeTable} {head : TypeId} {types : List TypeId} (regular : table.Regular)
    (closed : table.Closed) (done : table.chain head = .ok types) :
    types.length ≤ table.arena.size ∧ ∀ type ∈ types, type ∈ table.order := by
  obtain ⟨rank, grounded⟩ := regular.grounded
  obtain ⟨links, found, done⟩ := Outcome.bind_ok done
  cases done
  have walked : ∃ start, table.walk head (table.arena.size + 1) start = .ok links := by
    obtain ⟨definition, _, found⟩ := Outcome.bind_ok found
    split at found
    · exact ⟨_, found⟩
    · exact ⟨_, found⟩
    · exact ⟨_, found⟩
    · cases found
  obtain ⟨start, walked⟩ := walked
  obtain ⟨each, downwards⟩ := walk_ok grounded walked
  constructor
  · have once : links.Nodup := downwards.imp fun less same => by rw [same] at less; omega
    have inside : links ⊆ List.range table.arena.size := fun link member =>
      List.mem_range.mpr (regular.bounded link (each link member).1)
    have bound := (List.subperm_of_subset once inside).length_le
    rw [List.length_range] at bound
    exact Nat.le_trans (List.length_filterMap_le _ _) bound
  · intro type member
    obtain ⟨link, inside, first⟩ := List.mem_filterMap.mp member
    obtain ⟨definition, held, first⟩ := Option.bind_eq_some_iff.mp first
    obtain ⟨live, there⟩ := get_eq_some_iff.mp held
    have signed : table.signature? link = some definition.signature := by
      rw [signature?, there]
      rfl
    exact closed live signed type (by simp [Signature.references, first])

end TypeTable

namespace Module
open TypeTable

section Table
variable {types : Read.TypeLines}

theorem type_labels_once (types : Read.TypeLines) : (Read.typeLabels types).Nodup :=
  (type_labels_ascending types).imp Nat.ne_of_lt

def definitionsOf (types : Read.TypeLines) : List TypeDef :=
  (Read.typeLabels types).map (definitionAt types (Read.typeLabels types))

theorem definition_at_place {id : TypeId} {definition : TypeDef} (found : (definitionsOf types)[id]? = some definition) :
    ∃ label, (Read.typeLabels types)[id]? = some label ∧
      definition = definitionAt types (Read.typeLabels types) label := by
  rw [definitionsOf, List.getElem?_map] at found
  obtain ⟨label, here, rfl⟩ := Option.map_eq_some_iff.mp found
  exact ⟨label, here, rfl⟩

theorem references_of_definition {label reference : Nat}
    (member : reference ∈ (definitionAt types (Read.typeLabels types) label).signature.references) :
    ∃ entry old, types.get? label = some entry ∧ old ∈ entry.references ∧ old ∈ Read.typeLabels types ∧
      reference = (Read.typeLabels types).idxOf old := by
  unfold definitionAt at member
  cases found : types.get? label with
  | none =>
      rw [found] at member
      cases member
  | some entry =>
      rw [found] at member
      change reference ∈ (entry.record.signature.map _).references at member
      rw [Signature.references_map] at member
      obtain ⟨old, inside, rfl⟩ := List.mem_map.mp member
      exact ⟨entry, old, rfl, inside, mem_type_labels.mpr ⟨label, entry, found, .inr inside⟩, rfl⟩

theorem labels_lt (gathered : ∀ {label entry}, types.get? label = some entry →
      entry.record.label = label ∧ (Record.type entry.record).Legible) :
    ∀ label ∈ Read.typeLabels types, 1 ≤ label ∧ label < wordBound := by
  intro label member
  obtain ⟨own, entry, found, here⟩ := mem_type_labels.mp member
  obtain ⟨same, ⟨low, positive, _⟩, high, references⟩ := gathered found
  rcases here with rfl | here
  · rw [← same]
    exact ⟨low, high⟩
  · exact ⟨positive label here, references label here⟩

theorem few_labels (gathered : ∀ {label entry}, types.get? label = some entry →
      entry.record.label = label ∧ (Record.type entry.record).Legible) :
    (Read.typeLabels types).length < wordBound := by
  have inside : Read.typeLabels types ⊆ List.range' 1 (wordBound - 1) := by
    intro label member
    obtain ⟨low, high⟩ := labels_lt gathered label member
    exact List.mem_range'_1.mpr ⟨low, by omega⟩
  have bound := (List.subperm_of_subset (type_labels_once types) inside).length_le
  rw [List.length_range'] at bound
  have positive : 0 < wordBound := Nat.pos_of_ne_zero (by decide)
  omega

theorem regular_table (acyclic : Read.checkAcyclic types = .ok ()) : (Read.typeTable types).Regular := by
  obtain ⟨rank, downwards⟩ := Read.ranked_of_check acyclic
  refine @regular_of_list (definitionsOf types) (fun id => rank ((Read.typeLabels types).getD id 0)) ?_ ?_
  · intro id definition found reference member
    obtain ⟨label, _, rfl⟩ := definition_at_place found
    obtain ⟨_, old, _, _, labelled, rfl⟩ := references_of_definition member
    rw [definitionsOf, List.length_map]
    exact List.idxOf_lt_length_iff.mpr labelled
  · intro id definition found reference member
    obtain ⟨label, here, rfl⟩ := definition_at_place found
    obtain ⟨entry, old, there, inside, labelled, rfl⟩ := references_of_definition member
    simp only [List.getD_eq_getElem?_getD, here, List.getElem?_idxOf labelled, Option.getD_some]
    exact downwards there old inside

theorem order_of_table (types : Read.TypeLines) :
    (Read.typeTable types).order = List.range (Read.typeLabels types).length := by
  rw [type_table_eq]
  simp [TypeTable.ofList]

theorem signature_of_table {id : TypeId} {signature : Signature}
    (found : (Read.typeTable types).signature? id = some signature) : ∃ label,
      (Read.typeLabels types)[id]? = some label ∧
        signature = (definitionAt types (Read.typeLabels types) label).signature := by
  rw [type_table_eq, signature_of_list] at found
  obtain ⟨definition, there, rfl⟩ := Option.map_eq_some_iff.mp found
  obtain ⟨label, here, rfl⟩ := definition_at_place there
  exact ⟨label, here, rfl⟩

theorem signature_at_label {label : Nat} {entry : Read.TypeLine} (found : types.get? label = some entry)
    (labelled : label ∈ Read.typeLabels types) :
    (Read.typeTable types).signature? ((Read.typeLabels types).idxOf label) =
      some (entry.record.signature.map fun label => (Read.typeLabels types).idxOf label) := by
  rw [type_table_eq, signature_of_list, List.getElem?_map, List.getElem?_idxOf labelled]
  simp only [Option.map_some, definitionAt, found]

theorem homogeneous_table
    (chains : (types.entries.forM fun (_, entry) => Read.checkChain types entry) = .ok ()) :
    (Read.typeTable types).Homogeneous := by
  intro id kind element rest _ found
  obtain ⟨label, here, shape⟩ := signature_of_table found
  unfold definitionAt at shape
  cases own : types.get? label with
  | none =>
      rw [own] at shape
      cases shape
  | some entry =>
      rw [own] at shape
      change _ = entry.record.signature.map _ at shape
      cases original : entry.record.signature with
      | link oldKind oldElement oldRest =>
          rw [original] at shape
          cases oldRest with
          | none => cases shape
          | some oldRest =>
              cases shape
              have code := Read.check_chains_iff.mp chains own original
              obtain ⟨other, there, same⟩ := Option.map_eq_some_iff.mp code
              have labelled : oldRest ∈ Read.typeLabels types :=
                mem_type_labels.mpr ⟨oldRest, other, there, .inl rfl⟩
              rw [signature_at_label there labelled, Option.map_some, Signature.code_map, same]
      | _ =>
          rw [original] at shape
          cases shape

theorem sane_table (gathered : ∀ {label entry}, types.get? label = some entry →
      entry.record.label = label ∧ (Record.type entry.record).Legible)
    (acyclic : Read.checkAcyclic types = .ok ())
    (chains : (types.entries.forM fun (_, entry) => Read.checkChain types entry) = .ok ()) :
    (Read.typeTable types).Sane := by
  refine ⟨regular_table acyclic, ?_, homogeneous_table chains, ?_⟩
  · intro id signature _ found reference member
    obtain ⟨label, _, rfl⟩ := signature_of_table found
    obtain ⟨_, old, _, _, labelled, rfl⟩ := references_of_definition member
    rw [order_of_table]
    exact List.mem_range.mpr (List.idxOf_lt_length_iff.mpr labelled)
  · intro type definition found
    obtain ⟨_, there⟩ := get_eq_some_iff.mp found
    rw [type_table_eq] at there
    change ((definitionsOf types).toArray)[type]? = some definition at there
    rw [List.getElem?_toArray] at there
    obtain ⟨label, _, rfl⟩ := definition_at_place there
    unfold definitionAt
    cases own : types.get? label with
    | none => exact Pragmas.plain_empty
    | some entry => exact (gathered own).2.spelled.2.2

end Table

end Module

end Dataflow
