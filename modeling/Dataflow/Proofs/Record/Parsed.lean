import Dataflow.Proofs.Record.Document
set_option autoImplicit false

-- Records as they are read: their numbers fit a word, their pragmas are in the form in which pragmas
-- are written back, and what stood between quotes came from a single line.
namespace Dataflow.Record
open Text (wordBound)

theorem number_lt {field : Field} {word : Option Word} {value : Nat} (done : number field word = .ok value) :
    value < wordBound := by
  cases word with
  | none => cases done
  | some word =>
      unfold number at done
      cases found : Text.word? word with
      | none => simp [found] at done
      | some read =>
          simp only [found, Except.ok.injEq] at done
          subst done
          unfold Text.word? at found
          have kept := (Option.filter_eq_some_iff.mp found).2
          exact of_decide_eq_true kept

theorem require_ok {α : Type} {fault : Fault} {found : Option α} {value : α}
    (done : require fault found = .ok value) : found = some value := by
  cases found with
  | some other =>
      cases done
      rfl
  | none => cases done

theorem label_some {number label : Nat} (found : label? number = some label) : 1 ≤ label ∧ label = number := by
  unfold label? at found
  split at found
  · cases found
  · cases found
    exact ⟨Nat.one_le_iff_ne_zero.mpr ‹_›, rfl⟩

theorem fields_of_line {line : Word} {count : Nat} {fields : List Word} {pragmas : Pragmas}
    (done : Record.fields ((Text.words line).drop count) = .ok (fields, pragmas)) : pragmas.Plain :=
  (fields_taken (fun _ member => Text.solid_of_mem_words (List.mem_of_mem_drop member)) done).plain

/-! ### Quoted text -/

theorem split_quoted_some {line before text after : Word} (found : splitQuoted line = some (before, text, after)) :
    (∀ c ∈ text, c ∈ line) ∧ '"' ∉ after := by
  unfold splitQuoted at found
  obtain ⟨⟨first, rest⟩, cut, found⟩ := Option.bind_eq_some_iff.mp found
  obtain ⟨⟨last, body⟩, cutAgain, found⟩ := Option.bind_eq_some_iff.mp found
  cases found
  obtain ⟨whole, _⟩ := split_first_some cut
  obtain ⟨wholeRest, absent⟩ := split_first_some cutAgain
  refine ⟨fun c member => ?_, fun member => absent (List.mem_reverse.mp member)⟩
  have inside : c ∈ rest.reverse := by
    rw [wholeRest]
    exact List.mem_append_right _ (List.mem_cons_of_mem _ (List.mem_reverse.mp member))
  rw [whole]
  exact List.mem_append_right _ (List.mem_cons_of_mem _ (List.mem_reverse.mp inside))

theorem fields_of_rest {after : Word} {fields : List Word} {pragmas : Pragmas} (plain : '"' ∉ after)
    (done : Record.fields (Text.words after) = .ok (fields, pragmas)) : pragmas.Plain ∧ pragmas.Quoteless := by
  refine ⟨(fields_taken (fun _ member => Text.solid_of_mem_words member) done).plain, ?_⟩
  exact fields_quoteless (fun word member quoted => plain (Text.mem_of_mem_words member _ quoted)) done

/-! ### Records -/

theorem parse_signature_ok {code : TypeCode} {parameters : List Word} {signature : Signature}
    (done : parseSignature code parameters = .ok signature) : Signature.Legible signature := by
  have label : ∀ {field : Field} {word : Option Word} {fault : Fault} {number' label : Nat},
      number field word = .ok number' → require fault (label? number') = .ok label →
        1 ≤ label ∧ label < wordBound := by
    intro field word fault number' label read required
    obtain ⟨positive, same⟩ := label_some (require_ok required)
    exact ⟨positive, by rw [same]; exact number_lt read⟩
  have optional : ∀ {field : Field} {word : Option Word} {number' : Nat}, number field word = .ok number' →
      ∀ label ∈ (label? number').toList, 1 ≤ label ∧ label < wordBound := by
    intro field word number' read label member
    obtain ⟨positive, same⟩ := label_some (Option.mem_toList.mp member)
    exact ⟨positive, by rw [same]; exact number_lt read⟩
  unfold parseSignature at done
  split at done
  · obtain ⟨_, _, done⟩ := Outcome.bind_ok done
    obtain ⟨_, _, done⟩ := Outcome.bind_ok done
    cases done
    exact fun _ member => by cases member
  · obtain ⟨arguments, read, done⟩ := Outcome.bind_ok done
    obtain ⟨results, readToo, done⟩ := Outcome.bind_ok done
    obtain ⟨found, required, done⟩ := Outcome.bind_ok done
    cases done
    intro reference member
    rcases List.mem_append.mp member with member | member
    · exact optional read reference member
    · rw [List.mem_singleton.mp member]
      exact label readToo required
  · obtain ⟨element, read, done⟩ := Outcome.bind_ok done
    obtain ⟨rest, readToo, done⟩ := Outcome.bind_ok done
    obtain ⟨found, required, done⟩ := Outcome.bind_ok done
    cases done
    intro reference member
    rcases List.mem_append.mp member with member | member
    · rw [List.mem_singleton.mp member]
      exact label read required
    · exact optional readToo reference member
  · obtain ⟨base, read, done⟩ := Outcome.bind_ok done
    obtain ⟨found, required, done⟩ := Outcome.bind_ok done
    cases done
    intro reference member
    rcases List.mem_append.mp member with member | member
    · rw [List.mem_singleton.mp member]
      exact label read required
    · cases member
  · cases done
    exact fun _ member => by cases member

theorem parse_type_ok {line : Word} {record : TypeRecord} (done : parseType line = .ok record) :
    (Record.type record).Legible := by
  unfold parseType at done
  obtain ⟨⟨fields, pragmas⟩, read, done⟩ := Outcome.bind_ok done
  obtain ⟨label, number, done⟩ := Outcome.bind_ok done
  obtain ⟨found, required, done⟩ := Outcome.bind_ok done
  obtain ⟨code, _, done⟩ := Outcome.bind_ok done
  obtain ⟨known, _, done⟩ := Outcome.bind_ok done
  obtain ⟨_, done⟩ := Outcome.guard_ok done
  obtain ⟨signature, parsed, done⟩ := Outcome.bind_ok done
  cases done
  obtain ⟨positive, same⟩ := label_some (require_ok required)
  have legible := parse_signature_ok parsed
  refine ⟨⟨positive, fun reference member => (legible reference member).1, fields_of_line read⟩,
    by rw [same]; exact number_lt number, fun reference member => (legible reference member).2⟩

theorem parse_pragma_ok {text : Word} {key : Char} {value : String} (single : '\n' ∉ text)
    (done : parsePragma text = .ok (key, value)) : (Record.pragma key value).Wordy := by
  unfold parsePragma at done
  have suffix := Text.trim_left_suffix text
  have head := Text.head_trim_left text
  cases start : Text.trimLeft text with
  | nil => simp [start] at done
  | cons first rest =>
      rw [start] at done suffix head
      cases done
      refine ⟨head key rfl, fun member => single ?_, ?_⟩
      · rw [String.toList_ofList] at member
        exact suffix.subset (List.mem_cons_of_mem _ (Text.mem_of_mem_trim member))
      · rw [String.toList_ofList, Text.trim_trim]

theorem parse_function_ok {line : Word} {record : FunctionRecord} (single : '\n' ∉ line)
    (done : parseFunction line = .ok record) : (Record.function record).Legible := by
  unfold parseFunction at done
  obtain ⟨⟨before, name, after⟩, quoted, done⟩ := Outcome.bind_ok done
  obtain ⟨⟨_, pragmas⟩, read, done⟩ := Outcome.bind_ok done
  obtain ⟨type, number, done⟩ := Outcome.bind_ok done
  cases done
  obtain ⟨inside, plain⟩ := split_quoted_some (require_ok quoted)
  obtain ⟨suffix, quoteless⟩ := fields_of_rest plain read
  refine ⟨⟨fun member => single (inside _ ?_), suffix, @quoteless⟩, number_lt number⟩
  rw [String.toList_ofList] at member
  exact member

theorem parse_node_ok {line : Word} {record : NodeRecord} (done : parseNode line = .ok record) :
    (Record.node record).Legible := by
  unfold parseNode at done
  obtain ⟨⟨fields, pragmas⟩, read, done⟩ := Outcome.bind_ok done
  obtain ⟨label, number, done⟩ := Outcome.bind_ok done
  obtain ⟨opcode, _, done⟩ := Outcome.bind_ok done
  cases done
  exact ⟨fields_of_line read, number_lt number⟩

theorem parse_compound_ok {line : Word} {record : CompoundRecord} (done : parseCompound line = .ok record) :
    (Record.compound record).Legible := by
  unfold parseCompound at done
  obtain ⟨_, done⟩ := Outcome.guard_ok done
  obtain ⟨label, number, done⟩ := Outcome.bind_ok done
  obtain ⟨opcode, _, done⟩ := Outcome.bind_ok done
  cases done
  exact ⟨trivial, number_lt number⟩

theorem parse_graph_ok {line : Word} {pragmas : Pragmas} (done : parseGraph line = .ok pragmas) :
    pragmas.Plain := by
  unfold parseGraph at done
  obtain ⟨⟨_, found⟩, read, done⟩ := Outcome.bind_ok done
  cases done
  exact fields_of_line read

theorem parse_trailer_ok {header : CompoundRecord} {graphs children : List NodeId} {line : Word}
    {pragmas : Pragmas} (done : parseTrailer header graphs line = .ok (children, pragmas)) :
    children.length < wordBound ∧ children ⊆ graphs ∧ pragmas.Plain := by
  unfold parseTrailer at done
  obtain ⟨⟨fields, _⟩, read, done⟩ := Outcome.bind_ok done
  obtain ⟨label, _, done⟩ := Outcome.bind_ok done
  obtain ⟨_, done⟩ := Outcome.guard_ok done
  obtain ⟨code, _, done⟩ := Outcome.bind_ok done
  obtain ⟨_, done⟩ := Outcome.guard_ok done
  obtain ⟨count, number, done⟩ := Outcome.bind_ok done
  obtain ⟨counted, done⟩ := Outcome.guard_ok done
  obtain ⟨found, parsed, done⟩ := Outcome.bind_ok done
  cases done
  have each := Outcome.map_m_ok parsed
  refine ⟨?_, fun child member => ?_, fields_of_line read⟩
  · have length := each.length_eq
    rw [List.length_drop] at length
    have bound := number_lt number
    omega
  · obtain ⟨position, inside, rfl⟩ := List.getElem_of_mem member
    have here := each.get (by rw [each.length_eq]; exact inside) inside
    obtain ⟨offset, _, there⟩ := Outcome.bind_ok here
    exact List.mem_of_getElem? (require_ok there)

theorem parse_edge_ok {line : Word} {record : EdgeRecord} (done : parseEdge line = .ok record) :
    (Record.edge record).Legible := by
  unfold parseEdge at done
  obtain ⟨⟨fields, pragmas⟩, read, done⟩ := Outcome.bind_ok done
  obtain ⟨_, done⟩ := Outcome.guard_ok done
  obtain ⟨source, first, done⟩ := Outcome.bind_ok done
  obtain ⟨sourcePort, second, done⟩ := Outcome.bind_ok done
  obtain ⟨target, third, done⟩ := Outcome.bind_ok done
  obtain ⟨targetPort, fourth, done⟩ := Outcome.bind_ok done
  obtain ⟨type, fifth, done⟩ := Outcome.bind_ok done
  cases done
  exact ⟨fields_of_line read, number_lt first, number_lt second, number_lt third, number_lt fourth, number_lt fifth⟩

theorem parse_literal_ok {line : Word} {record : LiteralRecord} (single : '\n' ∉ line)
    (done : parseLiteral line = .ok record) : (Record.literal record).Legible := by
  unfold parseLiteral at done
  obtain ⟨⟨before, text, after⟩, quoted, done⟩ := Outcome.bind_ok done
  obtain ⟨_, done⟩ := Outcome.guard_ok done
  obtain ⟨⟨_, pragmas⟩, read, done⟩ := Outcome.bind_ok done
  obtain ⟨target, first, done⟩ := Outcome.bind_ok done
  obtain ⟨targetPort, second, done⟩ := Outcome.bind_ok done
  obtain ⟨type, third, done⟩ := Outcome.bind_ok done
  cases done
  obtain ⟨inside, plain⟩ := split_quoted_some (require_ok quoted)
  obtain ⟨suffix, quoteless⟩ := fields_of_rest plain read
  refine ⟨⟨fun member => single (inside _ ?_), suffix, @quoteless⟩, number_lt first, number_lt second,
    number_lt third⟩
  rw [String.toList_ofList] at member
  exact member

end Dataflow.Record

/-! ### Documents -/

namespace Dataflow.Module.Read
open Record (Word)

structure Gathered (document : Document) : Prop where
  types : ∀ {label entry}, document.types.get? label = some entry →
    entry.record.label = label ∧ (Record.type entry.record).Legible
  pragmas : ∀ entry ∈ document.pragmas.entries, (Record.pragma entry.1 entry.2).Wordy
  single : ∀ entry ∈ document.body, '\n' ∉ entry.2

theorem on_line_ok {α : Type} {line : Word} {parsed : Record.Parsed α} {value : α}
    (done : onLine line parsed = .ok value) : parsed = .ok value := by
  cases parsed with
  | ok found =>
      cases done
      rfl
  | error fault => cases done

theorem gathered_type {document next : Document} {line : Word} (gathered : Gathered document)
    (done : addTypeLine document line = .ok next) : Gathered next := by
  obtain ⟨record, parsed, done⟩ := Outcome.bind_ok done
  split at done
  · cases done
  · cases done
    refine ⟨?_, gathered.pragmas, gathered.single⟩
    intro label entry found
    rw [SortedMap.get?_insert] at found
    split at found
    · rename_i same
      cases found
      exact ⟨same.symm, Record.parse_type_ok (on_line_ok parsed)⟩
    · exact gathered.types found

theorem gathered_line {document next : Document} {line : Word} (single : '\n' ∉ line)
    (gathered : Gathered document) (done : addLine document line = .ok next) : Gathered next := by
  unfold addLine at done
  split at done
  · rename_i text
    obtain ⟨⟨key, value⟩, parsed, done⟩ := Outcome.bind_ok done
    cases done
    refine ⟨gathered.types, fun entry member => ?_, gathered.single⟩
    rcases SortedMap.mem_entries_insert member with rfl | ⟨_, old⟩
    · refine Record.parse_pragma_ok (fun inside => single ?_) (on_line_ok parsed)
      exact List.mem_cons_of_mem _ (List.mem_cons_of_mem _ inside)
    · exact gathered.pragmas entry old
  · simp only at done
    split at done
    · exact gathered_type gathered done
    · split at done
      · cases done
        refine ⟨gathered.types, gathered.pragmas, fun entry member => ?_⟩
        rcases List.mem_append.mp member with member | member
        · exact gathered.single entry member
        · rw [List.mem_singleton.mp member]
          exact single
      · cases done

theorem gathered_document {text : String} {found : Document} (done : document text = .ok found) :
    Gathered found := by
  refine Outcome.fold_m_keeps Gathered (fun state line next member gathered step => ?_) ?_ done
  · exact gathered_line (Text.newline_not_mem_of_lines member) gathered step
  · exact ⟨fun here => (by cases here), fun _ member => (by cases member), fun _ member => (by cases member)⟩

end Dataflow.Module.Read
