import Dataflow.Proofs.Module.Covers
import Dataflow.Proofs.Module.Legible
import Dataflow.Proofs.Record.Accepted
set_option autoImplicit false

-- The module that is read back: all nodes that were written, named by their places.
namespace Dataflow.Module
open TypeTable

structure Copied (m : Module) (order : List NodeId) (copy : Module) : Prop where
  once : order.Nodup
  covers : Covers m order
  roots : m.functions ⊆ order
  types : Relisted m.types copy.types
  size : copy.nodes.size = order.length
  functions : copy.functions = m.functions.map order.idxOf
  pragmas : copy.pragmas = m.pragmas
  owned : copy.Owned
  placed : ∀ id ∈ order, Placed m order.idxOf copy id
  ported : ∀ id ∈ order, Ported m order.idxOf copy id

theorem Copied.output_iff {m copy : Module} {order : List NodeId} (copied : Copied m order copy) {id : NodeId}
    {port : Nat} (member : id ∈ order) :
    (copy.output? ⟨order.idxOf id, port⟩).isSome ↔ m.Consumed ⟨id, port⟩ ∨ m.Declared ⟨id, port⟩ := by
  have ported := copied.ported id member
  by_cases used : m.Consumed ⟨id, port⟩ ∨ m.Declared ⟨id, port⟩
  · rw [ported.used port used]
    exact iff_of_true rfl used
  · rw [ported.unused port used]
    exact iff_of_false Bool.false_ne_true used

section Text
variable {m : Module}

theorem Throughout.functions {good : Record → Prop} {ids : List NodeId} {types : List (Option TypeId)}
    {order : List NodeId} {records : List Record} (throughout : m.Throughout good)
    (written : WrittenFunctions m ids types order records) : ∀ record ∈ records, good record := by
  induction written with
  | nil => exact fun _ member => by cases member
  | cons settled head rest ih =>
      intro record member
      exact (List.mem_append.mp member).elim (throughout.written_function head record) (ih record)

theorem label_at {records : List TypeRecord} (regular : m.types.Regular) (written : m.TypesWritten records)
    {position : Nat} (inside : position < records.length) : records[position].label = position + 1 := by
  obtain ⟨definition, _, same⟩ := written.each.get (by rw [written.each.length_eq]; exact inside) inside
  simp only [List.get_eq_getElem] at same
  rw [same]
  exact congrArg (· + 1) (place_of_order regular (List.getElem?_eq_getElem _))

theorem type_labels_ordered {records : List TypeRecord} (regular : m.types.Regular)
    (written : m.TypesWritten records) : (records.map TypeRecord.label).Pairwise (· < ·) := by
  refine List.pairwise_map.mpr (List.pairwise_iff_getElem.mpr fun first second inFirst inSecond less => ?_)
  rw [label_at regular written inFirst, label_at regular written inSecond]
  omega

-- The last label is the number of the types.
theorem few_of_clear {records : List TypeRecord} (regular : m.types.Regular) (written : m.TypesWritten records)
    (clear : ∀ record ∈ records, (Record.type record).Clear) : m.types.order.length < Text.wordBound := by
  rw [written.each.length_eq]
  cases count : records.length with
  | zero => exact Nat.pos_of_ne_zero (by decide)
  | succ last =>
      have inside : last < records.length := by omega
      rw [← label_at regular written inside]
      exact (clear _ (List.getElem_mem inside)).counted.1

theorem written_functions {ids : List NodeId} {types : List (Option TypeId)} {pieces : List (List Record)}
    (settled : List.Forall₂ (Settled m) ids types)
    (done : ((ids.zip types).mapM fun (id, type) => m.functionRecords id type) = .ok pieces) :
    ∃ order, WrittenFunctions m ids types order pieces.flatten := by
  induction settled generalizing pieces with
  | nil =>
      cases done
      exact ⟨[], .nil⟩
  | cons here _ ih =>
      rw [List.zip_cons_cons, List.mapM_cons] at done
      obtain ⟨first, head, done⟩ := Outcome.bind_ok done
      obtain ⟨others, rest, done⟩ := Outcome.bind_ok done
      cases done
      obtain ⟨order, written⟩ := written_function head
      obtain ⟨later, more⟩ := ih rest
      exact ⟨order ++ later, .cons here written more⟩

theorem text_with_ok {types : List (Option TypeId)} {text : String}
    (settled : List.Forall₂ (Settled m) m.functions types) (done : m.textWith types = .ok text) :
    ∃ records order body, m.TypesWritten records ∧ WrittenFunctions m m.functions types order body ∧
      text = Read.fullText records m.pragmas body := by
  obtain ⟨preamble, first, done⟩ := Outcome.bind_ok done
  obtain ⟨records, walked, same⟩ := Outcome.bind_ok first
  obtain ⟨pieces, functions, done⟩ := Outcome.bind_ok done
  cases same
  cases done
  obtain ⟨order, written⟩ := written_functions settled functions
  exact ⟨records, order, _, types_written walked, written, rfl⟩

theorem orders_of_functions {ids : List NodeId} {types : List (Option TypeId)} {order : List NodeId}
    {records : List Record} (owned : m.Owned) (written : WrittenFunctions m ids types order records) :
    ∃ orders, order = orders.flatten ∧ List.Forall₂ (fun id order => Preorder m [id] order) ids orders := by
  induction written with
  | nil => exact ⟨[], rfl, .nil⟩
  | cons settled head rest ih =>
      obtain ⟨orders, rfl, each⟩ := ih
      exact ⟨_ :: orders, rfl, .cons (preorder_of_function owned head) each⟩

theorem preorder_of_all {types : List (Option TypeId)} {order : List NodeId} {records : List Record}
    (owned : m.Owned) (written : WrittenFunctions m m.functions types order records) :
    Preorder m m.functions order := by
  obtain ⟨orders, rfl, each⟩ := orders_of_functions owned written
  exact preorder_of_functions (fun id member => owned.registered.mp member)
    (owned.inOrder.imp fun less => Nat.ne_of_lt less) each

end Text

section Build
variable {m : Module}

theorem setting_of_relisted {labels : List Nat} {table : TypeTable} (owned : m.Owned) (wired : m.Wired)
    (positive : ∀ {id name}, m.role? id = some (.function name) → m.PositiveAt id)
    (regular : m.types.Regular) (same : labels = List.range' 1 m.types.order.length)
    (relisted : Relisted m.types table) : Setting m labels table := by
  refine ⟨owned, wired, positive, same, fun type member => ?_⟩
  have inside := regular.bounded type member
  have found : table.arena[m.types.place type]? = some (m.types.arena[type].renumber m.types.place) := by
    rw [relisted.arena type member, Array.getElem?_eq_getElem inside]
    rfl
  rw [get_eq_some_iff.mpr ⟨relisted.live member, found⟩]
  rfl

-- What is read is a copy, as long as nothing is wrong with the types.
theorem build_written {types : List (Option TypeId)} {typeRecords : List TypeRecord} {order : List NodeId}
    {body : List Record} {lines : Read.TypeLines} (regular : m.types.Regular) (owned : m.Owned) (wired : m.Wired)
    (positive : ∀ {id name}, m.role? id = some (.function name) → m.PositiveAt id)
    (typesWritten : m.TypesWritten typeRecords) (functionsWritten : WrittenFunctions m m.functions types order body)
    (shown : m.Lines lines) (readable : ∀ record ∈ body, record.Readable) :
    ∃ copy, Copied m order copy ∧ Read.build ⟨lines, m.pragmas, body.filterMap Read.bodyLine⟩ = (do
      Read.checkAcyclic lines
      lines.entries.forM fun (_, entry) => Read.checkChain lines entry
      pure copy) := by
  have labels := labels_of_lines shown regular typesWritten.closed
  have relisted := relisted_of_lines shown regular typesWritten.closed
  let start := Read.startModule ⟨lines, m.pragmas, body.filterMap Read.bodyLine⟩
  have setting := setting_of_relisted owned wired positive regular labels relisted
  have preorder := preorder_of_all owned functionsWritten
  obtain ⟨final, copy, folded, ended, functionsRead⟩ := functions_replay ⟨start, []⟩
    setting regular typesWritten.closed relisted functionsWritten readable (fun _ => rfl)
    (sound_with_types _ _).owned rfl (numbered_of_once preorder.once)
  refine ⟨copy, ?_, ?_⟩
  · obtain ⟨covers, roots⟩ := covers_functions owned functionsWritten
    refine ⟨preorder.once, covers, roots, ?_, ?_, ?_, functionsRead.pragmas, functionsRead.owned, functionsRead.placed,
      functionsRead.ported⟩
    · rw [functionsRead.types]
      exact relisted
    · rw [functionsRead.size]
      exact Nat.zero_add _
    · rw [functionsRead.functions]
      rfl
  · unfold Read.build
    refine congrArg _ (funext fun _ => congrArg _ (funext fun _ => ?_))
    exact (Outcome.bind_of_ok folded).trans (ended _)

theorem read_written {types : List (Option TypeId)} {typeRecords : List TypeRecord} {order : List NodeId}
    {body : List Record} (regular : m.types.Regular) (owned : m.Owned) (wired : m.Wired)
    (homogeneous : m.types.Homogeneous) (legible : m.Legible) (typesWritten : m.TypesWritten typeRecords)
    (functionsWritten : WrittenFunctions m m.functions types order body) :
    ∃ copy, ofText (Read.fullText typeRecords m.pragmas body) = .ok copy ∧ Copied m order copy := by
  have spelled := (throughout_spelled Pragmas.lasting_plain legible.toPrintable).functions functionsWritten
  have counted := (throughout_counted legible.toCountable wired).functions functionsWritten
  have ported := (throughout_ported legible.positive wired).functions functionsWritten
  have readable : ∀ record ∈ body, record.Readable := fun record member =>
    ⟨Record.Legible.clear ⟨spelled record member, counted record member⟩, ported record member⟩
  have typesLegible : ∀ record ∈ typeRecords, (Record.type record).Legible := fun record member =>
    ⟨spelled_types legible.types typesWritten record member, counted_types legible.count typesWritten record member⟩
  obtain ⟨lines, entries, read⟩ := Read.document_of_records
    (fun record member => (typesLegible record member).clear) (type_labels_ordered regular typesWritten)
    legible.pragmas (fun record member => (readable record member).clear.wordy)
    ((throughout_kinds m).functions functionsWritten)
  have shown : m.Lines lines := lines_of_entries typesWritten entries
  obtain ⟨copy, copied, built⟩ := build_written regular owned wired (fun _ => legible.positive _) typesWritten
    functionsWritten shown readable
  obtain ⟨acyclic, chains⟩ := checks_of_lines shown regular typesWritten.closed homogeneous
  refine ⟨copy, ?_, copied⟩
  rw [Read.of_text_eq, Outcome.bind_of_ok read, built, Outcome.bind_of_ok acyclic, Outcome.bind_of_ok chains]
  rfl

-- Where a text is accepted there is less to ask of it.
theorem types_clear {types : List (Option TypeId)} {typeRecords : List TypeRecord} {order : List NodeId}
    {body : List Record} {found : Read.Document} (fitting : m.Fitting Pragmas.Wordy)
    (typesWritten : m.TypesWritten typeRecords) (functionsWritten : WrittenFunctions m m.functions types order body)
    (read : Read.document (Read.fullText typeRecords m.pragmas body) = .ok found) :
    ∀ record ∈ typeRecords, (Record.type record).Clear :=
  Read.clear_of_document (spelled_types fitting.types typesWritten) fitting.pragmas
    ((throughout_spelled Pragmas.lasting_wordy fitting.toPrintable).functions functionsWritten) read

theorem few_of_accepted {types : List (Option TypeId)} {text : String} {copy : Module} (regular : m.types.Regular)
    (fitting : m.Fitting Pragmas.Wordy) (settled : List.Forall₂ (Settled m) m.functions types)
    (done : m.textWith types = .ok text) (accepted : ofText text = .ok copy) :
    m.types.order.length < Text.wordBound := by
  obtain ⟨records, order, body, typesWritten, functionsWritten, rfl⟩ := text_with_ok settled done
  obtain ⟨found, read, _⟩ := Outcome.bind_ok accepted
  exact few_of_clear regular typesWritten (types_clear fitting typesWritten functionsWritten read)

theorem copied_of_accepted {types : List (Option TypeId)} {typeRecords : List TypeRecord} {order : List NodeId}
    {body : List Record} {copy : Module} (regular : m.types.Regular) (owned : m.Owned) (wired : m.Wired)
    (positive : ∀ {id name}, m.role? id = some (.function name) → m.PositiveAt id)
    (fitting : m.Fitting Pragmas.Wordy) (typesWritten : m.TypesWritten typeRecords)
    (functionsWritten : WrittenFunctions m m.functions types order body)
    (accepted : ofText (Read.fullText typeRecords m.pragmas body) = .ok copy) : Copied m order copy := by
  have bodyWordy := (throughout_spelled Pragmas.lasting_wordy fitting.toPrintable).functions functionsWritten
  have bodyKinds := (throughout_kinds m).functions functionsWritten
  rw [Read.of_text_eq] at accepted
  obtain ⟨found, read, built⟩ := Outcome.bind_ok accepted
  have typesClear := types_clear fitting typesWritten functionsWritten read
  obtain ⟨lines, entries, reread⟩ := Read.document_of_records typesClear (type_labels_ordered regular typesWritten)
    fitting.pragmas bodyWordy bodyKinds
  have gathered := Read.gathered_document read
  cases read.symm.trans reread
  have bodyClear := Read.clear_of_build bodyWordy bodyKinds built
  have bodyPorted := Read.ported_of_build gathered.single bodyClear bodyKinds built
  have shown : m.Lines lines := lines_of_entries typesWritten entries
  obtain ⟨other, copied, same⟩ := build_written regular owned wired positive typesWritten functionsWritten shown
    fun record member => ⟨bodyClear record member, bodyPorted record member⟩
  rw [same] at built
  obtain ⟨_, _, built⟩ := Outcome.bind_ok built
  obtain ⟨_, _, built⟩ := Outcome.bind_ok built
  cases built
  exact copied

end Build

end Dataflow.Module
