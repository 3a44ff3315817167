import Dataflow.Proofs.Module.Closing
import Dataflow.Proofs.Places
import Dataflow.Proofs.Record.Document
import Dataflow.Proofs.Type.Acyclic
import Dataflow.Proofs.Type.Listed
set_option autoImplicit false

-- Types through a text: labels are places from 1, and the table that is read back lists the same
-- types in the same order.
namespace Dataflow
open TypeTable

namespace TypeTable

theorem label_ok_iff {table : TypeTable} {type : TypeId} {label : Nat} :
    table.label type = .ok label ↔ type ∈ table.order ∧ label = table.place type + 1 := by
  unfold TypeTable.label TypeTable.label? place
  by_cases member : type ∈ table.order
  · rw [Places.idx_of_iff.mpr ⟨member, rfl⟩]
    simp [member, eq_comm]
  · rw [List.idxOf?_eq_none_iff.mpr member]
    simp [member]

end TypeTable

namespace Module

theorem label_run {m : Module} {type : TypeId} (member : type ∈ m.types.order) :
    m.types.label type = .ok (m.types.place type + 1) :=
  label_ok_iff.mpr ⟨member, rfl⟩

theorem labels_ok {table : TypeTable} {reference label : Option Nat}
    (done : reference.mapM table.label = .ok label) :
    LiveOption table reference ∧ label = reference.map (table.place · + 1) := by
  cases reference with
  | none =>
      cases done
      exact ⟨fun _ same => (by cases same), rfl⟩
  | some reference =>
      rw [Option.mapM_some] at done
      obtain ⟨found, here, done⟩ := Outcome.bind_ok done
      cases done
      obtain ⟨member, rfl⟩ := label_ok_iff.mp here
      exact ⟨fun _ same => (by cases same; exact member), rfl⟩

theorem labelled_ok {m : Module} {signature written : Signature} (done : m.labelled signature = .ok written) :
    (∀ reference ∈ signature.references, reference ∈ m.types.order) ∧
      written = signature.map (m.types.place · + 1) := by
  cases signature with
  | basic kind =>
      cases done
      exact ⟨fun _ member => (by cases member), rfl⟩
  | wild =>
      cases done
      exact ⟨fun _ member => (by cases member), rfl⟩
  | container kind base =>
      obtain ⟨label, here, done⟩ := Outcome.bind_ok done
      cases done
      obtain ⟨member, rfl⟩ := label_ok_iff.mp here
      refine ⟨fun reference inside => ?_, rfl⟩
      have same : reference = base := by simpa [Signature.references, Signature.first?, Signature.second?] using inside
      rw [same]
      exact member
  | link kind element rest =>
      obtain ⟨label, here, done⟩ := Outcome.bind_ok done
      obtain ⟨tail, there, done⟩ := Outcome.bind_ok done
      cases done
      obtain ⟨member, rfl⟩ := label_ok_iff.mp here
      obtain ⟨live, rfl⟩ := labels_ok there
      refine ⟨fun reference inside => ?_, rfl⟩
      rcases List.mem_append.mp inside with inside | inside
      · have same : reference = element := by simpa [Signature.first?] using inside
        rw [same]
        exact member
      · exact live reference (Option.mem_toList.mp inside)
  | function arguments results =>
      obtain ⟨first, here, done⟩ := Outcome.bind_ok done
      obtain ⟨second, there, done⟩ := Outcome.bind_ok done
      cases done
      obtain ⟨live, rfl⟩ := labels_ok here
      obtain ⟨member, rfl⟩ := label_ok_iff.mp there
      refine ⟨fun reference inside => ?_, rfl⟩
      rcases List.mem_append.mp inside with inside | inside
      · exact live reference (Option.mem_toList.mp inside)
      · have same : reference = results := by simpa [Signature.second?] using inside
        rw [same]
        exact member

theorem labels_run {table : TypeTable} {reference : Option Nat} (live : LiveOption table reference) :
    reference.mapM table.label = .ok (reference.map (table.place · + 1)) := by
  cases reference with
  | none => rfl
  | some reference =>
      have here := label_ok_iff.mpr ⟨live reference rfl, rfl⟩
      rw [Option.mapM_some, here]
      rfl

theorem labelled_run {m : Module} {signature : Signature}
    (live : ∀ reference ∈ signature.references, reference ∈ m.types.order) :
    m.labelled signature = .ok (signature.map (m.types.place · + 1)) := by
  cases signature with
  | basic kind => rfl
  | wild => rfl
  | container kind base =>
      have here := label_run (live base (by simp [Signature.references, Signature.first?]))
      exact (Outcome.bind_of_ok here).trans rfl
  | link kind element rest =>
      have here := label_run (live element (by simp [Signature.references, Signature.first?]))
      have there : rest.mapM m.types.label = _ := labels_run fun reference same =>
        live reference (by simp [Signature.references, Signature.second?, same])
      exact (Outcome.bind_of_ok here).trans ((Outcome.bind_of_ok there).trans rfl)
  | function arguments results =>
      have here : arguments.mapM m.types.label = _ := labels_run fun reference same =>
        live reference (by simp [Signature.references, Signature.first?, same])
      have there := label_run (live results (by simp [Signature.references, Signature.second?]))
      exact (Outcome.bind_of_ok here).trans ((Outcome.bind_of_ok there).trans rfl)

/-! ### Written types -/

def recordOf (m : Module) (type : TypeId) (definition : TypeDef) : TypeRecord :=
  ⟨m.types.place type + 1, definition.signature.map (m.types.place · + 1), definition.pragmas⟩

theorem type_record_ok {m : Module} {type : TypeId} {record : TypeRecord}
    (done : m.typeRecord type = .ok record) :
    ∃ definition, m.types.get? type = some definition ∧ record = m.recordOf type definition ∧
      ∀ reference ∈ definition.signature.references, reference ∈ m.types.order := by
  obtain ⟨definition, found, done⟩ := Outcome.bind_ok done
  obtain ⟨label, here, done⟩ := Outcome.bind_ok done
  obtain ⟨signature, written, done⟩ := Outcome.bind_ok done
  cases done
  obtain ⟨_, rfl⟩ := label_ok_iff.mp here
  obtain ⟨live, rfl⟩ := labelled_ok written
  exact ⟨definition, find_ok_iff.mp found, rfl, live⟩

theorem type_record_run {m : Module} {type : TypeId} {definition : TypeDef}
    (found : m.types.get? type = some definition)
    (live : ∀ reference ∈ definition.signature.references, reference ∈ m.types.order) :
    m.typeRecord type = .ok (m.recordOf type definition) := by
  obtain ⟨member, _⟩ := get_eq_some_iff.mp found
  refine (Outcome.bind_of_ok (find_ok_iff.mpr found)).trans ?_
  refine (Outcome.bind_of_ok (label_run member)).trans ?_
  exact (Outcome.bind_of_ok (labelled_run live)).trans rfl

-- The records of all live types.
structure TypesWritten (m : Module) (records : List TypeRecord) : Prop where
  each : List.Forall₂ (fun type record => ∃ definition, m.types.get? type = some definition ∧
    record = m.recordOf type definition) m.types.order records
  closed : m.types.Closed

theorem types_written {m : Module} {records : List TypeRecord}
    (done : m.types.order.mapM m.typeRecord = .ok records) : TypesWritten m records := by
  have each := Outcome.map_m_ok done
  refine ⟨each.imp fun type record written => ?_, ?_⟩
  · obtain ⟨definition, found, same, _⟩ := type_record_ok written
    exact ⟨definition, found, same⟩
  · intro type signature member found
    obtain ⟨position, inside, rfl⟩ := List.getElem_of_mem member
    have written := each.get inside (by rw [← each.length_eq]; exact inside)
    obtain ⟨definition, here, _, live⟩ := type_record_ok written
    obtain ⟨_, there⟩ := get_eq_some_iff.mp here
    have same : definition.signature = signature := by
      simp only [List.get_eq_getElem] at there
      simpa [TypeTable.signature?, there] using found
    rw [← same]
    exact live

/-! ### The table that is read back -/

section Reading
variable {m : Module} {records : List TypeRecord} {lines : Read.TypeLines}

def lineOf (m : Module) (type : TypeId) (definition : TypeDef) : Read.TypeLine :=
  ⟨Record.line (.type (m.recordOf type definition)), Read.TypeRecord.reread (m.recordOf type definition)⟩

-- The lines of all live types, under their labels.
def Lines (m : Module) (lines : Read.TypeLines) : Prop :=
  ∀ {label entry}, lines.get? label = some entry ↔
    ∃ type definition, m.types.get? type = some definition ∧ label = m.types.place type + 1 ∧
      entry = m.lineOf type definition

theorem lines_of_entries (written : m.TypesWritten records)
    (entries : lines.entries = records.map fun record =>
      (record.label, ⟨Record.line (.type record), Read.TypeRecord.reread record⟩)) : m.Lines lines := by
  intro label entry
  rw [SortedMap.get?_eq_some_iff, entries, List.mem_map]
  constructor
  · rintro ⟨record, member, same⟩
    cases same
    obtain ⟨position, inside, rfl⟩ := List.getElem_of_mem member
    obtain ⟨definition, found, same⟩ := written.each.get (by rw [written.each.length_eq]; exact inside) inside
    simp only [List.get_eq_getElem] at found same
    exact ⟨_, definition, found, by rw [same]; rfl, by rw [same]; rfl⟩
  · rintro ⟨type, definition, found, rfl, rfl⟩
    obtain ⟨member, _⟩ := get_eq_some_iff.mp found
    obtain ⟨position, inside, rfl⟩ := List.getElem_of_mem member
    have insideToo : position < records.length := by rw [← written.each.length_eq]; exact inside
    obtain ⟨other, here, same⟩ := written.each.get inside insideToo
    simp only [List.get_eq_getElem] at here same
    rw [found] at here
    cases here
    exact ⟨records[position], List.getElem_mem insideToo, by rw [same]; rfl⟩

theorem mem_type_labels {types : Read.TypeLines} {label : Nat} :
    label ∈ Read.typeLabels types ↔
      ∃ own entry, types.get? own = some entry ∧ (label = own ∨ label ∈ entry.references) := by
  unfold Read.typeLabels
  rw [SortedMap.mem_keys_of_list, List.map_map]
  simp only [List.mem_map, List.mem_flatMap, Function.comp_apply, exists_eq_right]
  constructor
  · rintro ⟨⟨own, entry⟩, member, inside⟩
    exact ⟨own, entry, SortedMap.get?_of_mem_entries member, List.mem_cons.mp inside⟩
  · rintro ⟨own, entry, found, inside⟩
    exact ⟨(own, entry), SortedMap.mem_entries_of_get? found, List.mem_cons.mpr inside⟩

theorem type_labels_ascending (types : Read.TypeLines) : (Read.typeLabels types).Pairwise (· < ·) := by
  unfold Read.typeLabels
  exact List.pairwise_map.mpr ((SortedMap.ascending _).imp fun less => Nat.compare_eq_lt.mp less)

theorem references_of_line (m : Module) (type : TypeId) (definition : TypeDef) :
    (m.lineOf type definition).references =
      definition.signature.references.map (m.types.place · + 1) :=
  Signature.references_map _ _

theorem labels_of_lines (shown : m.Lines lines) (regular : m.types.Regular) (closed : m.types.Closed) :
    Read.typeLabels lines = List.range' 1 m.types.order.length := by
  refine Places.eq_of_ascending (type_labels_ascending lines) List.pairwise_lt_range' fun label => ?_
  rw [mem_type_labels, List.mem_range'_1]
  constructor
  · rintro ⟨own, entry, found, here⟩
    obtain ⟨type, definition, held, rfl, rfl⟩ := shown.mp found
    obtain ⟨member, there⟩ := get_eq_some_iff.mp held
    rcases here with rfl | here
    · have := place_lt member
      omega
    · rw [references_of_line] at here
      obtain ⟨reference, inside, rfl⟩ := List.mem_map.mp here
      have signature : m.types.signature? type = some definition.signature := by
        rw [TypeTable.signature?, there]
        rfl
      have := place_lt (closed member signature reference inside)
      omega
  · rintro ⟨low, high⟩
    obtain ⟨place, rfl⟩ : ∃ place, label = place + 1 := ⟨label - 1, by omega⟩
    have bound : place < m.types.order.length := by omega
    have member : m.types.order[place] ∈ m.types.order := List.getElem_mem bound
    have inside := regular.bounded _ member
    have held : m.types.get? m.types.order[place] = some m.types.arena[m.types.order[place]] :=
      get_eq_some_iff.mpr ⟨member, Array.getElem?_eq_getElem inside⟩
    have placed : m.types.place m.types.order[place] = place :=
      place_of_order regular (List.getElem?_eq_getElem bound)
    exact ⟨place + 1, _, shown.mpr ⟨_, _, held, by rw [placed], rfl⟩, .inl rfl⟩

def definitionAt (types : Read.TypeLines) (labels : List Nat) (label : Nat) : TypeDef :=
  match types.get? label with
  | some entry => ⟨entry.record.signature.map fun label => labels.idxOf label, entry.record.pragmas⟩
  | none => ⟨.wild, .empty⟩

theorem type_table_eq (types : Read.TypeLines) :
    Read.typeTable types = TypeTable.ofList ((Read.typeLabels types).map
      (definitionAt types (Read.typeLabels types))) := rfl

theorem definition_of_line (shown : m.Lines lines) (closed : m.types.Closed) {type : TypeId}
    {definition : TypeDef} (held : m.types.get? type = some definition) :
    definitionAt lines (List.range' 1 m.types.order.length) (m.types.place type + 1) =
      definition.renumber m.types.place := by
  obtain ⟨member, there⟩ := get_eq_some_iff.mp held
  unfold definitionAt
  rw [shown.mpr ⟨type, definition, held, rfl, rfl⟩]
  unfold TypeDef.renumber
  refine congrArg (TypeDef.mk · _) ?_
  change (definition.signature.map _).map _ = _
  rw [Signature.map_map]
  refine Signature.map_congr fun reference inside => ?_
  have signature : m.types.signature? type = some definition.signature := by
    rw [TypeTable.signature?, there]
    rfl
  exact Places.idx_of_range (place_lt (closed member signature reference inside))

theorem relisted_of_lines (shown : m.Lines lines) (regular : m.types.Regular) (closed : m.types.Closed) :
    Relisted m.types (Read.typeTable lines) := by
  rw [type_table_eq, labels_of_lines shown regular closed]
  refine ⟨by simp [TypeTable.ofList], by simp [TypeTable.ofList], ?_, lookup_of_list _⟩
  intro id member
  have inside := regular.bounded id member
  have held : m.types.get? id = some m.types.arena[id] :=
    get_eq_some_iff.mpr ⟨member, Array.getElem?_eq_getElem inside⟩
  have place := place_lt member
  have there := definition_of_line shown closed held
  have label : 1 + m.types.place id = m.types.place id + 1 := Nat.add_comm _ _
  simp [TypeTable.ofList, place, label, there, inside]

theorem checks_of_lines (shown : m.Lines lines) (regular : m.types.Regular) (closed : m.types.Closed)
    (homogeneous : m.types.Homogeneous) :
    Read.checkAcyclic lines = .ok () ∧
      (lines.entries.forM fun (_, entry) => Read.checkChain lines entry) = .ok () := by
  obtain ⟨rank, downwards⟩ := regular.grounded
  constructor
  · refine Read.check_acyclic_run (fun label => rank (m.types.order.getD (label - 1) 0)) ?_
    intro label entry found reference inside
    obtain ⟨type, definition, held, rfl, rfl⟩ := shown.mp found
    obtain ⟨member, there⟩ := get_eq_some_iff.mp held
    have signature : m.types.signature? type = some definition.signature := by
      rw [TypeTable.signature?, there]
      rfl
    rw [references_of_line] at inside
    obtain ⟨old, here, rfl⟩ := List.mem_map.mp inside
    simp only [Nat.add_sub_cancel, List.getD_eq_getElem?_getD, order_at_place member,
      order_at_place (closed member signature old here), Option.getD_some]
    exact downwards signature old here
  · refine Read.check_chains_iff.mpr ?_
    intro label entry kind element rest found shape
    obtain ⟨type, definition, held, rfl, rfl⟩ := shown.mp found
    obtain ⟨member, there⟩ := get_eq_some_iff.mp held
    change definition.signature.map _ = _ at shape
    cases original : definition.signature with
    | link oldKind oldElement oldRest =>
        have signature : m.types.signature? type = some (.link oldKind oldElement oldRest) := by
          rw [TypeTable.signature?, there, ← original]
          rfl
        rw [original] at shape
        cases oldRest with
        | none => cases shape
        | some oldRest =>
            cases shape
            have live := closed member signature oldRest (by simp [Signature.references, Signature.second?])
            have inside := regular.bounded oldRest live
            have code := homogeneous member signature
            have below : m.types.get? oldRest = some m.types.arena[oldRest] :=
              get_eq_some_iff.mpr ⟨live, Array.getElem?_eq_getElem inside⟩
            rw [shown.mpr ⟨oldRest, _, below, rfl, rfl⟩]
            rw [TypeTable.signature?, Array.getElem?_eq_getElem inside] at code
            refine Eq.trans (congrArg some ?_) code
            exact Signature.code_map _ _
    | _ =>
        rw [original] at shape
        cases shape

theorem type_label_ok {m : Module} {type : Option TypeId} {label : Nat} (done : m.typeLabel type = .ok label) :
    LiveOption m.types type ∧ label = (type.map (m.types.place · + 1)).getD 0 := by
  cases type with
  | none =>
      cases done
      exact ⟨fun _ same => (by cases same), rfl⟩
  | some type =>
      obtain ⟨member, rfl⟩ := label_ok_iff.mp done
      exact ⟨fun _ same => (by cases same; exact member), rfl⟩

theorem type_label_run {m : Module} {type : Option TypeId} (live : LiveOption m.types type) :
    m.typeLabel type = .ok ((type.map (m.types.place · + 1)).getD 0) := by
  cases type with
  | none => rfl
  | some type => exact label_run (live type rfl)

theorem type_at_label {table : TypeTable} {type : Option TypeId} (live : LiveOption table type) :
    Read.typeAt (List.range' 1 table.order.length) ((type.map (table.place · + 1)).getD 0) =
      .ok (type.map table.place) := by
  cases type with
  | none => rfl
  | some type =>
      have place := place_lt (live type rfl)
      have found : (List.range' 1 table.order.length).idxOf? (table.place type + 1) = some (table.place type) :=
        Places.idx_of_iff.mpr ⟨List.mem_range'_1.mpr (by omega), (Places.idx_of_range place).symm⟩
      unfold Read.typeAt
      simp only [Option.map_some, Option.getD_some, Nat.add_one_ne_zero, if_false, found]
      rfl

end Reading

end Module

end Dataflow
