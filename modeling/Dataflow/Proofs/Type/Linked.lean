import Dataflow.Proofs.Module.Retyped
import Dataflow.Proofs.Module.Strict
set_option autoImplicit false

-- Every label that a type has or refers to is in the list of labels, so the types of a text are put together
-- without a look-up that misses.
namespace Dataflow.Module.Read.Strict
open Record (Word)

/-! ### Refusals of a line -/

theorem parsed_bind_congr {α β : Type} {first : Reading α} {next : α → Reading β} {strict : α → Checked β}
    (same : ∀ value, first = .ok value → strict value = parsed (next value)) :
    (parsed first >>= strict) = parsed (first >>= next) := by
  cases first with
  | error error => rfl
  | ok value => exact same value rfl

/-! ### Parameters -/

section Places
variable {labels : List Nat}

theorem place_of_mem {label : Nat} (member : label ∈ labels) : place labels label = .ok (labels.idxOf label) := by
  unfold place
  rw [Places.idx_of_iff.mpr ⟨member, rfl⟩]
  rfl

theorem places_of_mem {reference : Option Nat} (inside : ∀ label ∈ reference.toList, label ∈ labels) :
    reference.mapM (place labels) = .ok (reference.map labels.idxOf) := by
  cases reference with
  | none => rfl
  | some label =>
      rw [Option.mapM_some, place_of_mem (inside label (by simp))]
      rfl

theorem resolved_of_mem {signature : Signature} (inside : ∀ label ∈ signature.references, label ∈ labels) :
    resolved labels signature = .ok (signature.map labels.idxOf) := by
  cases signature with
  | basic kind => rfl
  | wild => rfl
  | container kind base =>
      exact Outcome.bind_of_ok (place_of_mem (inside base (by simp [Signature.references, Signature.first?])))
  | link kind element rest =>
      have first := place_of_mem (inside element (by simp [Signature.references, Signature.first?]))
      have second := places_of_mem fun label member => inside label (List.mem_append_right _ member)
      exact (Outcome.bind_of_ok first).trans (Outcome.bind_of_ok second)
  | function arguments results =>
      have first := places_of_mem fun label member => inside label (List.mem_append_left _ member)
      have second := place_of_mem (inside results (by simp [Signature.references, Signature.second?]))
      exact (Outcome.bind_of_ok first).trans (Outcome.bind_of_ok second)

theorem arena_at {α : Type} (value : Nat → α) {label : Nat} (member : label ∈ labels) :
    arenaAt (labels.map value) (labels.idxOf label) = .ok (value label) := by
  unfold arenaAt
  rw [List.getElem?_map, List.getElem?_eq_getElem (List.idxOf_lt_length_iff.mpr member), List.getElem_idxOf]
  rfl

theorem set_idx_of (once : labels.Nodup) {α : Type} (value : Nat → α) (label : Nat) (new : α) :
    (labels.map value).set (labels.idxOf label) new =
      labels.map fun other => if other = label then new else value other := by
  refine List.ext_getElem (by simp) fun place bound _ => ?_
  have inside : place < labels.length := by simpa using bound
  rw [List.getElem_set, List.getElem_map, List.getElem_map]
  by_cases same : labels[place] = label
  · rw [if_pos same, if_pos (Places.idx_of_at once (by rw [List.getElem?_eq_getElem inside, same]))]
  · rw [if_neg same, if_neg]
    rintro rfl
    exact same (List.getElem_idxOf inside)

end Places

/-! ### Types -/

section Types
variable {types : TypeLines}

theorem check_rest_eq {entry : TypeLine} (inside : ∀ label ∈ entry.references, label ∈ typeLabels types) :
    checkRest (typeLabels types) ((typeLabels types).map (codeAt types)) entry = parsed (checkChain types entry) := by
  by_cases linked : ∃ kind element rest, entry.record.signature = .link kind element (some rest)
  · obtain ⟨kind, element, rest, shape⟩ := linked
    have member : rest ∈ typeLabels types :=
      inside rest (by simp [TypeLine.references, shape, Signature.references, Signature.second?])
    rw [check_chain_link shape]
    unfold checkRest
    rw [shape]
    refine (Outcome.bind_of_ok (place_of_mem member)).trans ((Outcome.bind_of_ok (arena_at _ member)).trans ?_)
    split <;> rfl
  · have passed : checkChain types entry = .ok () :=
      check_chain_iff.mpr fun shape => absurd ⟨_, _, _, shape⟩ linked
    rw [passed]
    unfold checkRest
    split
    · rename_i shape
      exact absurd ⟨_, _, _, shape⟩ linked
    · rfl

theorem link_type_eq {entry : Nat × TypeLine} (member : entry ∈ types.entries) (definition : Nat → TypeDef) :
    linkType (typeLabels types) ((typeLabels types).map (codeAt types)) ((typeLabels types).map definition) entry =
      parsed (checkChain types entry.2 >>= fun _ => .ok ((typeLabels types).map fun label =>
        if label = entry.1 then definitionAt types (typeLabels types) label else definition label)) := by
  have known := SortedMap.get?_of_mem_entries member
  have own : entry.1 ∈ typeLabels types := mem_type_labels.mpr ⟨_, _, known, .inl rfl⟩
  have inside : ∀ label ∈ entry.2.references, label ∈ typeLabels types := fun label here =>
    mem_type_labels.mpr ⟨_, _, known, .inr here⟩
  have once : (typeLabels types).Nodup := (type_labels_ascending types).imp Nat.ne_of_lt
  unfold linkType
  rw [check_rest_eq inside]
  refine parsed_bind_congr fun _ _ => ?_
  refine (Outcome.bind_of_ok (place_of_mem own)).trans ((Outcome.bind_of_ok (resolved_of_mem inside)).trans
    ((Outcome.bind_of_ok (arena_at definition own)).trans ?_))
  rw [set_idx_of once]
  refine congrArg Except.ok (List.map_congr_left fun label _ => ?_)
  by_cases same : label = entry.1
  · rw [if_pos same, if_pos same]
    unfold definitionAt
    rw [same, known]
  · rw [if_neg same, if_neg same]

theorem link_types_eq {entries : List (Nat × TypeLine)} (inside : ∀ entry ∈ entries, entry ∈ types.entries)
    (definition : Nat → TypeDef) :
    entries.foldlM (linkType (typeLabels types) ((typeLabels types).map (codeAt types)))
        ((typeLabels types).map definition) =
      parsed (entries.forM (fun (_, entry) => checkChain types entry) >>= fun _ =>
        .ok ((typeLabels types).map fun label => if label ∈ entries.map (·.1)
          then definitionAt types (typeLabels types) label else definition label)) := by
  induction entries generalizing definition with
  | nil =>
      refine congrArg Except.ok (List.map_congr_left fun label _ => ?_)
      rw [if_neg (by simp)]
  | cons entry rest ih =>
      obtain ⟨member, later⟩ := List.forall_mem_cons.mp inside
      have step : ((entry :: rest).forM fun (_, entry) => checkChain types entry) =
          (checkChain types entry.2 >>= fun _ => rest.forM fun (_, entry) => checkChain types entry) := rfl
      rw [List.foldlM_cons, link_type_eq member, step]
      cases checkChain types entry.2 with
      | error error => rfl
      | ok passed =>
          refine (ih later _).trans (congrArg parsed ?_)
          cases rest.forM fun (_, entry) => checkChain types entry with
          | error error => rfl
          | ok all =>
              refine congrArg Except.ok (List.map_congr_left fun label _ => ?_)
              by_cases same : label = entry.1 <;> by_cases after : label ∈ rest.map (·.1) <;> simp [same, after]

theorem type_table_bind {β : Type} {next : TypeTable → Checked β} {later : Unit → Reading β}
    (same : (types.entries.forM fun (_, entry) => checkChain types entry) = .ok () →
      next (Read.typeTable types) = parsed (later ())) :
    (typeTable types >>= next) = parsed ((types.entries.forM fun (_, entry) => checkChain types entry) >>= later) := by
  have table : ((typeLabels types).map fun label => if label ∈ types.entries.map (·.1)
      then definitionAt types (typeLabels types) label else ⟨.wild, .empty⟩) =
        (typeLabels types).map (definitionAt types (typeLabels types)) := by
    refine List.map_congr_left fun label _ => ?_
    split
    · rfl
    · rename_i undefined
      have missing : types.get? label = none := by
        cases found : types.get? label with
        | none => rfl
        | some entry => exact absurd (SortedMap.mem_keys_iff.mpr (by rw [found]; rfl)) undefined
      unfold definitionAt
      rw [missing]
  unfold typeTable
  dsimp only
  rw [link_types_eq (fun _ member => member), table]
  cases chains : types.entries.forM fun (_, entry) => checkChain types entry with
  | error error => rfl
  | ok passed => exact same chains

end Types

end Dataflow.Module.Read.Strict
