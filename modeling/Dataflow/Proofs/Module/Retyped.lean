import Dataflow.Proofs.Module.Labels
import Dataflow.Proofs.Record.Parts
import Dataflow.Proofs.Record.Relabelled
set_option autoImplicit false

-- Types by other labels. The table of types has a place for each label, in the order of the labels, so it is
-- the same for all labels that come in this order.
namespace Dataflow.Module.Read
open Record (Word Relabelling Relabelled relabel)

/-! ### Lines -/

theorem head_of_pragma {line text : Word} (marked : pragmaText? line = some text) :
    ∃ tail, Record.head line = 'C' :: tail := by
  unfold pragmaText? at marked
  split at marked
  · rename_i text
    have solid : ¬ Text.isBlank 'C' = true := by decide
    unfold Record.head Text.words
    rw [Text.split_cons, if_neg solid]
    cases Text.split Text.isBlank ('$' :: text) with
    | nil => exact ⟨[], rfl⟩
    | cons piece pieces => exact ⟨piece, rfl⟩
  · cases marked

inductive Part.Twin (phi : Nat → Nat) (labels : List Nat) : Part → Part → Prop
  | type {entry twin : TypeLine} : twin.record = relabel phi entry.record → entry.record.label ∈ labels →
      entry.references ⊆ labels → Twin phi labels (.type entry) (.type twin)
  | pragma (key : Char) (text : String) : Twin phi labels (.pragma key text) (.pragma key text)
  | body {kind : Kind} {line twin : Word} : Relabelled phi line twin → Record.labels line ⊆ labels →
      kind? (Record.head line) = some kind → Twin phi labels (.body kind line) (.body kind twin)

section Lines
variable {phi : Nat → Nat} {labels : List Nat}

theorem unmarked_twin {line twin : Word} (relabelled : Relabelled phi line twin) (plain : pragmaText? line = none) :
    pragmaText? twin = none := by
  cases marked : pragmaText? twin with
  | none => rfl
  | some text =>
      obtain ⟨tail, start⟩ := head_of_pragma marked
      rw [relabelled.start] at start
      rw [relabelled.other (by rw [start]; simp), plain] at marked
      cases marked

theorem part_relabelled {line twin : Word} {found : Part} (relabelled : Relabelled phi line twin)
    (relabelling : Relabelling phi labels) (inside : Record.labels line ⊆ labels) (gives : Gives line found) :
    ∃ other, Gives twin other ∧ Part.Twin phi labels found other := by
  cases gives with
  | pragma marked parsed =>
      obtain ⟨tail, start⟩ := head_of_pragma marked
      rw [relabelled.other (by rw [start]; simp)]
      exact ⟨_, .pragma marked parsed, .pragma _ _⟩
  | type plain start parsed =>
      obtain ⟨parsedToo, member, references⟩ :=
        Record.parse_type_relabelled relabelled (relabelling.of_subset inside) start parsed
      refine ⟨_, .type (unmarked_twin relabelled plain) (relabelled.start.trans start) parsedToo, ?_⟩
      exact .type rfl (inside member) fun _ reference => inside (references reference)
  | body plain known =>
      refine ⟨_, .body (unmarked_twin relabelled plain) ?_, .body relabelled inside known⟩
      rw [← known]
      exact congrArg kind? relabelled.start

theorem parts_relabelled {lines twins : List Word} {parts : List Part} (relabelling : Relabelling phi labels)
    (each : List.Forall₂ (Relabelled phi) lines twins) (inside : ∀ line ∈ lines, Record.labels line ⊆ labels)
    (done : lines.mapM part = .ok parts) :
    ∃ others, twins.mapM part = .ok others ∧ List.Forall₂ (Part.Twin phi labels) parts others := by
  induction each generalizing parts with
  | nil =>
      cases done
      exact ⟨[], rfl, .nil⟩
  | cons relabelled _ ih =>
      rw [List.mapM_cons] at done
      obtain ⟨first, here, done⟩ := Outcome.bind_ok done
      obtain ⟨rest, later, done⟩ := Outcome.bind_ok done
      cases done
      obtain ⟨insideHere, insideLater⟩ := List.forall_mem_cons.mp inside
      obtain ⟨other, gives, twin⟩ := part_relabelled relabelled relabelling insideHere (part_ok_iff.mp here)
      obtain ⟨others, there, twins⟩ := ih insideLater later
      refine ⟨other :: others, ?_, .cons twin twins⟩
      rw [List.mapM_cons, Outcome.bind_of_ok (part_ok_iff.mpr gives), Outcome.bind_of_ok there]
      rfl

end Lines

/-! ### Documents -/

structure Retyped (phi : Nat → Nat) (labels : List Nat) (types twins : TypeLines) : Prop where
  there : ∀ {label entry}, types.get? label = some entry → label ∈ labels ∧ entry.references ⊆ labels ∧
    ∃ twin, twins.get? (phi label) = some twin ∧ twin.record = relabel phi entry.record
  back : ∀ {label twin}, twins.get? label = some twin → ∃ old entry, types.get? old = some entry ∧ phi old = label

structure TypeTwin (phi : Nat → Nat) (labels : List Nat) (entry twin : Nat × TypeLine) : Prop where
  label : twin.1 = phi entry.1
  record : twin.2.record = relabel phi entry.2.record
  member : entry.1 ∈ labels
  references : entry.2.references ⊆ labels

structure BodyTwin (phi : Nat → Nat) (labels : List Nat) (entry twin : Kind × Word) : Prop where
  kind : twin.1 = entry.1
  line : Relabelled phi entry.2 twin.2
  labels : Record.labels entry.2 ⊆ labels
  known : kind? (Record.head entry.2) = some entry.1

structure Document.Twin (phi : Nat → Nat) (labels : List Nat) (document twin : Document) : Prop where
  types : Retyped phi labels document.types twin.types
  pragmas : twin.pragmas = document.pragmas
  body : List.Forall₂ (BodyTwin phi labels) document.body twin.body

section Documents
variable {phi : Nat → Nat} {labels : List Nat} {parts others : List Part}

theorem types_of_twins (twins : List.Forall₂ (Part.Twin phi labels) parts others) :
    List.Forall₂ (TypeTwin phi labels) (typesOf parts) (typesOf others) := by
  induction twins with
  | nil => exact .nil
  | cons twin _ ih =>
      cases twin with
      | type same member references => exact .cons ⟨congrArg TypeRecord.label same, same, member, references⟩ ih
      | pragma | body => exact ih

theorem pragmas_of_twins (twins : List.Forall₂ (Part.Twin phi labels) parts others) :
    others.filterMap Part.pragma? = parts.filterMap Part.pragma? := by
  induction twins with
  | nil => rfl
  | cons twin _ ih =>
      cases twin with
      | pragma key text => exact congrArg ((key, text) :: ·) ih
      | type | body => exact ih

theorem bodies_of_twins (twins : List.Forall₂ (Part.Twin phi labels) parts others) :
    List.Forall₂ (BodyTwin phi labels) (parts.filterMap Part.body?) (others.filterMap Part.body?) := by
  induction twins with
  | nil => exact .nil
  | cons twin _ ih =>
      cases twin with
      | body relabelled inside known => exact .cons ⟨rfl, relabelled, inside, known⟩ ih
      | type | pragma => exact ih

theorem labels_of_types {entries twins : List (Nat × TypeLine)} (each : List.Forall₂ (TypeTwin phi labels) entries twins) :
    twins.map (·.1) = (entries.map (·.1)).map phi := by
  induction each with
  | nil => rfl
  | cons here _ ih => rw [List.map_cons, List.map_cons, List.map_cons, ih, here.label]

theorem collected_twin (relabelling : Relabelling phi labels) (twins : List.Forall₂ (Part.Twin phi labels) parts others)
    (once : ((typesOf parts).map (·.1)).Nodup) :
    ((typesOf others).map (·.1)).Nodup ∧ Document.Twin phi labels (collect parts) (collect others) := by
  have each := types_of_twins twins
  have known : ∀ label ∈ (typesOf parts).map (·.1), label ∈ 0 :: labels := by
    intro label member
    obtain ⟨entry, inside, rfl⟩ := List.mem_map.mp member
    obtain ⟨_, _, twin⟩ := Outcome.exists_related each inside
    exact List.mem_cons_of_mem 0 twin.member
  have onceToo : ((typesOf others).map (·.1)).Nodup := by
    rw [labels_of_types each]
    refine once.map_on fun first member second memberToo same => ?_
    exact (relabelling.eq_iff (known first member) (known second memberToo)).mp same
  refine ⟨onceToo, ⟨?_, ?_⟩, congrArg SortedMap.ofList (pragmas_of_twins twins), bodies_of_twins twins⟩
  · intro label entry found
    obtain ⟨twin, member, same⟩ := Outcome.exists_related each ((SortedMap.get?_of_list once).mp found)
    refine ⟨same.member, same.references, twin.2, (SortedMap.get?_of_list onceToo).mpr ?_, same.record⟩
    rw [← same.label]
    exact member
  · intro label twin found
    obtain ⟨entry, member, same⟩ :=
      Outcome.exists_related (each.flip) ((SortedMap.get?_of_list onceToo).mp found)
    exact ⟨entry.1, entry.2, (SortedMap.get?_of_list once).mpr member, same.label.symm⟩

end Documents

/-! ### Types -/

namespace Retyped
variable {phi : Nat → Nat} {labels : List Nat} {types twins : TypeLines}

theorem references {entry twin : TypeLine} (same : twin.record = relabel phi entry.record) :
    twin.references = entry.references.map phi := by
  unfold TypeLine.references
  rw [same]
  exact Signature.references_map _ _

theorem labels_inside (retyped : Retyped phi labels types twins) : typeLabels types ⊆ labels := by
  intro label member
  obtain ⟨own, entry, found, here⟩ := mem_type_labels.mp member
  obtain ⟨known, references, _⟩ := retyped.there found
  rcases here with rfl | here
  · exact known
  · exact references here

theorem acyclic (retyped : Retyped phi labels types twins) (relabelling : Relabelling phi labels)
    (checked : checkAcyclic types = .ok ()) : checkAcyclic twins = .ok () := by
  obtain ⟨rank, ranked⟩ := ranked_of_check checked
  obtain ⟨psi, _, undone⟩ := relabelling.back
  refine check_acyclic_run (fun label => rank (psi label)) ?_
  intro label twin found reference member
  obtain ⟨old, entry, here, rfl⟩ := retyped.back found
  obtain ⟨known, inside, other, there, same⟩ := retyped.there here
  cases there.symm.trans found
  rw [references same] at member
  obtain ⟨reference, inner, rfl⟩ := List.mem_map.mp member
  simp only [undone _ (List.mem_cons_of_mem 0 known), undone _ (List.mem_cons_of_mem 0 (inside inner))]
  exact ranked here reference inner

theorem chains (retyped : Retyped phi labels types twins) (free : MixedFree types) : MixedFree twins := by
  intro label twin kind element rest found shape
  obtain ⟨old, entry, here, rfl⟩ := retyped.back found
  obtain ⟨_, _, other, there, same⟩ := retyped.there here
  cases there.symm.trans found
  rw [same] at shape
  change entry.record.signature.map phi = _ at shape
  cases original : entry.record.signature with
  | link oldKind oldElement oldRest =>
      rw [original] at shape
      cases oldRest with
      | none => cases shape
      | some oldRest =>
          cases shape
          have linked := free here original
          obtain ⟨next, below, code⟩ := Option.map_eq_some_iff.mp linked
          obtain ⟨_, _, nextTwin, belowToo, sameToo⟩ := retyped.there below
          rw [belowToo, Option.map_some, sameToo, ← code]
          exact congrArg some (Signature.code_map _ _)
  | _ =>
      rw [original] at shape
      cases shape

theorem type_labels (retyped : Retyped phi labels types twins) (relabelling : Relabelling phi labels) :
    typeLabels twins = (typeLabels types).map phi := by
  have known : ∀ {label}, label ∈ typeLabels types → label ∈ 0 :: labels :=
    fun member => List.mem_cons_of_mem 0 (retyped.labels_inside member)
  refine Places.eq_of_ascending (type_labels_ascending twins) ?_ fun label => ?_
  · refine List.pairwise_map.mpr ((type_labels_ascending types).imp_of_mem ?_)
    intro first second member memberToo less
    exact relabelling.ascending (known member) (known memberToo) less
  · rw [mem_type_labels, List.mem_map]
    constructor
    · rintro ⟨own, twin, found, inside⟩
      obtain ⟨old, entry, here, rfl⟩ := retyped.back found
      obtain ⟨_, _, other, there, same⟩ := retyped.there here
      cases there.symm.trans found
      rw [references same] at inside
      rcases inside with rfl | inside
      · exact ⟨old, mem_type_labels.mpr ⟨old, entry, here, .inl rfl⟩, rfl⟩
      · obtain ⟨reference, inner, rfl⟩ := List.mem_map.mp inside
        exact ⟨reference, mem_type_labels.mpr ⟨old, entry, here, .inr inner⟩, rfl⟩
    · rintro ⟨old, member, rfl⟩
      obtain ⟨own, entry, here, inside⟩ := mem_type_labels.mp member
      obtain ⟨_, _, twin, there, same⟩ := retyped.there here
      refine ⟨phi own, twin, there, ?_⟩
      rw [references same]
      rcases inside with rfl | inner
      · exact .inl rfl
      · exact .inr (List.mem_map_of_mem inner)

-- A label that is referred to and not defined goes on to be undefined.
theorem undefined (retyped : Retyped phi labels types twins) (relabelling : Relabelling phi labels) {label : Nat}
    (known : label ∈ labels) (missing : types.get? label = none) : twins.get? (phi label) = none := by
  cases found : twins.get? (phi label) with
  | none => rfl
  | some twin =>
      obtain ⟨old, entry, here, same⟩ := retyped.back found
      have inside := (retyped.there here).1
      rw [(relabelling.eq_iff (List.mem_cons_of_mem 0 inside) (List.mem_cons_of_mem 0 known)).mp same, missing] at here
      cases here

theorem type_table (retyped : Retyped phi labels types twins) (relabelling : Relabelling phi labels) :
    typeTable twins = typeTable types := by
  rw [type_table_eq, type_table_eq, retyped.type_labels relabelling, List.map_map]
  refine congrArg TypeTable.ofList (List.map_congr_left fun label member => ?_)
  have known := retyped.labels_inside member
  rw [Function.comp_apply]
  unfold definitionAt
  cases found : types.get? label with
  | none => rw [retyped.undefined relabelling known found]
  | some entry =>
      obtain ⟨_, references, twin, there, same⟩ := retyped.there found
      rw [there]
      dsimp only
      rw [same]
      refine congrArg (TypeDef.mk · _) ?_
      change (entry.record.signature.map phi).map _ = _
      rw [Signature.map_map]
      refine Signature.map_congr fun reference inner => ?_
      refine Places.idx_of_map fun other inside clash => ?_
      exact (relabelling.eq_iff (List.mem_cons_of_mem 0 (retyped.labels_inside inside))
        (List.mem_cons_of_mem 0 (references inner))).mp clash

theorem type_at (retyped : Retyped phi labels types twins) (relabelling : Relabelling phi labels) {label : Nat}
    {type : Option TypeId} (known : label ∈ labels) (done : typeAt (typeLabels types) label = .ok type) :
    typeAt (typeLabels twins) (phi label) = .ok type := by
  unfold typeAt at done ⊢
  by_cases none : label = 0
  · rw [if_pos none] at done
    rw [if_pos ((relabelling.zero_iff known).mpr none)]
    exact done
  · rw [if_neg none] at done
    rw [if_neg (mt (relabelling.zero_iff known).mp none)]
    obtain ⟨place, found, same⟩ := Outcome.map_ok done
    obtain ⟨member, placed⟩ := Places.idx_of_iff.mp (Record.require_ok found)
    have there : (typeLabels twins).idxOf? (phi label) = some place := by
      rw [retyped.type_labels relabelling]
      refine Places.idx_of_iff.mpr ⟨List.mem_map_of_mem member, placed.trans (Places.idx_of_map ?_).symm⟩
      intro other inside clash
      exact (relabelling.eq_iff (List.mem_cons_of_mem 0 (retyped.labels_inside inside))
        (List.mem_cons_of_mem 0 known)).mp clash
    rw [there, ← same]
    rfl

end Retyped

end Dataflow.Module.Read
