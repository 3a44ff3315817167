import Dataflow.Proofs.Module.Reading
import Dataflow.Proofs.Module.Retyped
set_option autoImplicit false

-- Texts that hold types and nothing else: which of them are read, and as which table.
namespace Dataflow.Module.Read
open Record (Word)
open Relation (TransGen)

structure TypeText (text : String) (records : List TypeRecord) : Prop where
  lines : List.Forall₂ (fun line record => Record.head line = ['T'] ∧ Record.parseType line = .ok record)
    (Text.lines text.toList) records
  once : (records.map TypeRecord.label).Nodup

section Records
variable (records : List TypeRecord)

def Refers (outer inner : Nat) : Prop :=
  ∃ record ∈ records, record.label = outer ∧ inner ∈ record.signature.references

-- What follows a link is a link of the same kind.
def Unmixed : Prop :=
  ∀ record ∈ records, ∀ kind element rest, record.signature = .link kind element (some rest) →
    ∃ other ∈ records, other.label = rest ∧ other.signature.code = kind.code

def Mentions (label : Nat) : Prop :=
  ∃ record ∈ records, label = record.label ∨ label ∈ record.signature.references

-- The place of a label among all that are mentioned is the id of its type.
structure Tabulates (labels : List Nat) (table : TypeTable) : Prop where
  ascending : labels.Pairwise (· < ·)
  mentioned : ∀ label, label ∈ labels ↔ Mentions records label
  order : table.order = List.range labels.length
  size : table.arena.size = labels.length
  defined : ∀ record ∈ records,
    table.get? (labels.idxOf record.label) = some ⟨record.signature.map labels.idxOf, record.pragmas⟩
  undefined : ∀ label ∈ labels, label ∉ records.map TypeRecord.label →
    table.get? (labels.idxOf label) = some ⟨.wild, .empty⟩

end Records

/-! ### The document -/

def labelled (entry : TypeLine) : Nat × TypeLine :=
  (entry.record.label, entry)

theorem part_of_type {line : Word} {record : TypeRecord} (start : Record.head line = ['T'])
    (parsed : Record.parseType line = .ok record) : part line = .ok (.type ⟨line, record⟩) := by
  refine part_ok_iff.mpr (.type ?_ start parsed)
  cases marked : pragmaText? line with
  | none => rfl
  | some text =>
      obtain ⟨rest, other⟩ := head_of_pragma marked
      cases start.symm.trans other

theorem parts_of_types {lines : List Word} {records : List TypeRecord}
    (each : List.Forall₂ (fun line record => Record.head line = ['T'] ∧ Record.parseType line = .ok record)
      lines records) :
    ∃ entries : List TypeLine, entries.map TypeLine.record = records ∧ lines.mapM part = .ok (entries.map .type) := by
  induction each with
  | nil => exact ⟨[], rfl, rfl⟩
  | @cons line record _ _ here _ ih =>
      obtain ⟨entries, same, read⟩ := ih
      refine ⟨⟨line, record⟩ :: entries, congrArg (record :: ·) same, ?_⟩
      rw [List.mapM_cons, Outcome.bind_of_ok (part_of_type here.1 here.2), Outcome.bind_of_ok read]
      rfl

theorem collect_types (entries : List TypeLine) :
    collect (entries.map .type) = ⟨SortedMap.ofList (entries.map labelled), .empty, []⟩ := by
  have all : (entries.map Part.type).filterMap Part.type? = entries := by
    rw [List.filterMap_map]
    exact List.filterMap_some
  have pragmas : (entries.map Part.type).filterMap Part.pragma? = [] := by simp [Part.pragma?]
  have body : (entries.map Part.type).filterMap Part.body? = [] := by simp [Part.body?]
  unfold collect typesOf
  rw [all, pragmas, body]
  rfl

-- The lines of a text of types, under their labels.
structure Shows (types : TypeLines) (records : List TypeRecord) : Prop where
  known : ∀ {label entry}, types.get? label = some entry → entry.record ∈ records ∧ entry.record.label = label
  found : ∀ record ∈ records, ∃ entry, types.get? record.label = some entry ∧ entry.record = record

theorem document_of_types {text : String} {records : List TypeRecord} (shown : TypeText text records) :
    ∃ types, document text = .ok ⟨types, .empty, []⟩ ∧ Shows types records := by
  obtain ⟨entries, rfl, read⟩ := parts_of_types shown.lines
  have keys : (entries.map labelled).map (·.1) = (entries.map TypeLine.record).map TypeRecord.label := by
    rw [List.map_map, List.map_map]
    rfl
  have once : ((entries.map labelled).map (·.1)).Nodup := by
    rw [keys]
    exact shown.once
  have listed : typesOf (entries.map Part.type) = entries.map labelled := by
    unfold typesOf
    rw [List.filterMap_map]
    exact congrArg (List.map _) List.filterMap_some
  refine ⟨SortedMap.ofList (entries.map labelled),
    document_ok_iff.mpr ⟨_, read, by rw [listed]; exact once, collect_types entries⟩, ?_, ?_⟩
  · intro label entry found
    obtain ⟨other, member, same⟩ := List.mem_map.mp ((SortedMap.get?_of_list once).mp found)
    cases same
    exact ⟨List.mem_map_of_mem member, rfl⟩
  · intro record member
    obtain ⟨entry, inside, rfl⟩ := List.mem_map.mp member
    exact ⟨entry, (SortedMap.get?_of_list once).mpr (List.mem_map_of_mem inside), rfl⟩

/-! ### Its types -/

section Table
variable {types : TypeLines} {records : List TypeRecord}

theorem refers_iff (shows : Shows types records) {outer inner : Nat} :
    RefersTo types outer inner ↔ Refers records outer inner := by
  constructor
  · rintro ⟨entry, found, member⟩
    obtain ⟨inside, same⟩ := shows.known found
    exact ⟨entry.record, inside, same, member⟩
  · rintro ⟨record, inside, rfl, member⟩
    obtain ⟨entry, found, rfl⟩ := shows.found record inside
    exact ⟨entry, found, member⟩

theorem mixed_free_iff (shows : Shows types records) : MixedFree types ↔ Unmixed records := by
  constructor
  · intro free record inside kind element rest shape
    obtain ⟨entry, found, rfl⟩ := shows.found record inside
    obtain ⟨other, there, code⟩ := Option.map_eq_some_iff.mp (free found shape)
    obtain ⟨insideToo, label⟩ := shows.known there
    exact ⟨other.record, insideToo, label, code⟩
  · intro unmixed label entry kind element rest found shape
    obtain ⟨other, inside, rfl, code⟩ := unmixed entry.record (shows.known found).1 kind element rest shape
    obtain ⟨next, there, rfl⟩ := shows.found other inside
    rw [there]
    exact congrArg some code

theorem mentions_iff (shows : Shows types records) {label : Nat} :
    label ∈ typeLabels types ↔ Mentions records label := by
  rw [mem_type_labels]
  constructor
  · rintro ⟨own, entry, found, here⟩
    obtain ⟨inside, rfl⟩ := shows.known found
    exact ⟨entry.record, inside, here⟩
  · rintro ⟨record, inside, here⟩
    obtain ⟨entry, found, rfl⟩ := shows.found record inside
    exact ⟨_, entry, found, here⟩

theorem get_of_labels {label : Nat} (member : label ∈ typeLabels types) :
    (typeTable types).get? ((typeLabels types).idxOf label) = some (definitionAt types (typeLabels types) label) := by
  have bound := List.idxOf_lt_length_iff.mpr member
  have definitions : (typeTable types).arena[(typeLabels types).idxOf label]? =
      some (definitionAt types (typeLabels types) label) := by
    rw [type_table_eq]
    change (((typeLabels types).map (definitionAt types (typeLabels types))).toArray)[_]? = _
    rw [List.getElem?_toArray, List.getElem?_map, List.getElem?_eq_getElem bound, List.getElem_idxOf]
    rfl
  refine TypeTable.get_eq_some_iff.mpr ⟨List.mem_range.mpr ?_, definitions⟩
  rw [List.length_map]
  exact bound

theorem tabulates_of_shows (shows : Shows types records) :
    Tabulates records (typeLabels types) (typeTable types) := by
  refine ⟨type_labels_ascending types, fun label => mentions_iff shows, ?_, ?_, ?_, ?_⟩
  · rw [type_table_eq]
    exact congrArg List.range (List.length_map _)
  · rw [type_table_eq]
    exact List.length_map _
  · intro record inside
    obtain ⟨entry, found, rfl⟩ := shows.found record inside
    rw [get_of_labels ((mentions_iff shows).mpr ⟨entry.record, inside, .inl rfl⟩)]
    unfold definitionAt
    rw [found]
  · intro label member undefined
    rw [get_of_labels member]
    unfold definitionAt
    cases found : types.get? label with
    | none => rfl
    | some entry =>
        obtain ⟨inside, rfl⟩ := shows.known found
        exact absurd (List.mem_map_of_mem inside) undefined

end Table

/-! ### The text -/

theorem build_types_iff {types : TypeLines} {pragmas : SortedMap Char String} {m : Module} :
    build ⟨types, pragmas, []⟩ = .ok m ↔
      (checkAcyclic types = .ok () ∧ MixedFree types) ∧ startModule ⟨types, pragmas, []⟩ = m := by
  constructor
  · intro done
    obtain ⟨_, acyclic, done⟩ := Outcome.bind_ok done
    obtain ⟨_, chains, done⟩ := Outcome.bind_ok done
    cases done
    exact ⟨⟨acyclic, check_chains_iff.mp chains⟩, rfl⟩
  · rintro ⟨⟨acyclic, free⟩, rfl⟩
    exact (Outcome.bind_of_ok acyclic).trans ((Outcome.bind_of_ok (check_chains_iff.mpr free)).trans rfl)

theorem of_text_types {text : String} {records : List TypeRecord} (shown : TypeText text records) :
    ((∃ m, ofText text = .ok m) ↔
      (∀ label, ¬ TransGen (Refers records) label label) ∧ Unmixed records) ∧
      ∀ m, ofText text = .ok m →
        (∃ labels, Tabulates records labels m.types) ∧ m.nodes = #[] ∧ m.functions = [] ∧ m.pragmas = .empty := by
  obtain ⟨types, read, shows⟩ := document_of_types shown
  have same : RefersTo types = Refers records := by
    funext outer inner
    exact propext (refers_iff shows)
  have started : ∀ m, ofText text = .ok m ↔
      ((∀ label, ¬ TransGen (Refers records) label label) ∧ Unmixed records) ∧
        startModule ⟨types, .empty, []⟩ = m := by
    intro m
    rw [← mixed_free_iff shows, ← same, ← check_acyclic_iff, ← build_types_iff]
    exact ⟨fun done => (Outcome.bind_of_ok read).symm.trans done, fun done => (Outcome.bind_of_ok read).trans done⟩
  refine ⟨?_, fun m done => ?_⟩
  · simp only [started]
    exact ⟨fun ⟨_, passed, _⟩ => passed, fun passed => ⟨_, passed, rfl⟩⟩
  · obtain ⟨_, rfl⟩ := (started m).mp done
    exact ⟨⟨typeLabels types, tabulates_of_shows shows⟩, rfl, rfl, rfl⟩

-- A pair comes before its parts, both of which hold the type 2, which is not defined.
theorem pair_of_shared_types :
    let text := "T 9 8 7 4\nT 4 8 2 0\nT 7 0 2 %na=row"
    let records : List TypeRecord := [⟨9, .link .tuple 7 (some 4), .empty⟩, ⟨4, .link .tuple 2 none, .empty⟩,
      ⟨7, .container .array 2, Pragmas.empty.setName (some "row")⟩]
    TypeText text records ∧ (∃ m, ofText text = .ok m) ∧ (∀ label, ¬ TransGen (Refers records) label label) ∧
      Unmixed records ∧ ∀ m, ofText text = .ok m → ∃ labels, Tabulates records labels m.types := by
  intro text records
  have shown : TypeText text records := ⟨by decide +kernel, by decide⟩
  obtain ⟨accepted, tables⟩ := of_text_types shown
  have read : ∃ m, ofText text = .ok m := by
    have done : (ofText text).isOk = true := by decide +kernel
    cases found : ofText text with
    | ok m => exact ⟨m, rfl⟩
    | error error =>
        rw [found] at done
        cases done
  exact ⟨shown, read, (accepted.mp read).1, (accepted.mp read).2, fun m done => (tables m done).1⟩

end Dataflow.Module.Read
