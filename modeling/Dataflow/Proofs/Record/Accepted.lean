import Dataflow.Proofs.Record.Parsed
set_option autoImplicit false

-- Texts that are accepted although nothing is known of the keys of their pragmas and of the size of their numbers:
-- a key of two characters that holds an equals sign is cut short, and a number of more than 32 bits is no number,
-- so a record with such a key or number is refused.
namespace Dataflow.Record
open Text (Solid spread wordBound)

theorem free_of_add_word {read next : List Word × Pragmas} {entry : String × PragmaValue}
    (sized : entry.1.length = 2) (done : addWord read (Pragmas.word entry) = .ok next) : '=' ∉ entry.1.toList := by
  rcases add_word_cases done with ⟨_, _, plain⟩ | ⟨key, value, whole, absent, keySized, _, _⟩
  · exact absurd rfl plain
  have lengths : entry.1.toList.length = key.length := by
    rw [String.length_toList, sized, keySized]
  rw [(List.append_inj (List.cons.inj whole).2 lengths).1]
  exact absent

theorem clear_of_fields {words : List Word} {pragmas : Pragmas} {read : List Word × Pragmas}
    (wordy : pragmas.Wordy) (done : fields (words ++ pragmas.words) = .ok read) : pragmas.Clear := by
  refine ⟨wordy, fun {key value} member => ?_⟩
  have inside : Pragmas.word (key, value) ∈ words ++ pragmas.words :=
    List.mem_append_right _ (List.mem_map_of_mem member)
  obtain ⟨before, after, step⟩ := Outcome.fold_m_member done inside
  exact free_of_add_word (wordy.sized member) step

-- Pragmas come last in a row, behind the words that are dropped.
theorem clear_of_row {record : Record} {head : String} {numbers : List Nat} {count : Nat}
    {read : List Word × Pragmas} (shown : record.render = row head numbers record.pragmas)
    (solid : Solid head.toList) (few : count ≤ numbers.length + 1) (wordy : record.Wordy)
    (done : fields ((Text.words (line record)).drop count) = .ok read) : record.pragmas.Clear := by
  have pragmas : record.pragmas.Wordy := Spelled.holds wordy Pragmas.lasting_wordy.empty
  have words : Text.words (line record) = (head.toList :: numbers.map digits) ++ record.pragmas.words := by
    unfold line
    rw [shown]
    exact words_row solid pragmas
  rw [words, List.drop_append_of_le_length (by simpa using few)] at done
  exact clear_of_fields pragmas done

theorem numbers_of_row {record : Record} {head : String} {numbers : List Nat} {read : List Word × Pragmas}
    (shown : record.render = row head numbers record.pragmas) (solid : Solid head.toList) (wordy : record.Wordy)
    (done : fields ((Text.words (line record)).drop 1) = .ok read) :
    record.pragmas.Clear ∧ read.1 = numbers.map digits := by
  have clear := clear_of_row shown solid (Nat.succ_le_succ (Nat.zero_le _)) wordy done
  have words : Text.words (line record) = head.toList :: (numbers.map digits ++ record.pragmas.words) := by
    unfold line
    rw [shown]
    exact words_row solid clear.toWordy
  rw [words, List.drop_one, List.tail_cons, fields_row clear] at done
  cases done
  exact ⟨clear, rfl⟩

theorem clear_of_suffix {record : Record} {read : List Word × Pragmas} (wordy : record.Wordy)
    (done : fields (Text.words (spread record.pragmas.words)) = .ok read) : record.pragmas.Clear := by
  have pragmas : record.pragmas.Wordy := Spelled.holds wordy Pragmas.lasting_wordy.empty
  rw [Text.words_spread pragmas.solid] at done
  exact @clear_of_fields [] _ _ pragmas done

/-! ### Numbers -/

theorem lt_of_digits {field : Field} {value read : Nat} (done : number field (some (digits value)) = .ok read) :
    value < wordBound := by
  unfold number at done
  cases found : Text.word? (digits value) with
  | none => simp [found] at done
  | some other => exact Text.lt_of_word_digits found

theorem references_counted {signature found : Signature}
    (done : parseSignature signature.code (signature.fields.map digits) = .ok found) :
    ∀ reference ∈ signature.references, reference < wordBound := by
  have optional : ∀ {field : Field} {rest : Option Nat} {read : Nat},
      number field (some (digits (rest.getD 0))) = .ok read → ∀ reference ∈ rest.toList, reference < wordBound := by
    intro field rest read parsed reference member
    rw [Option.mem_toList.mp member] at parsed
    exact lt_of_digits parsed
  cases signature with
  | basic | wild => exact fun _ member => by cases member
  | container kind base =>
      intro reference member
      have parsed : ∃ read, number .typeParameter (some (digits base)) = .ok read := by
        cases kind <;> exact ⟨_, (Outcome.bind_ok done).choose_spec.1⟩
      obtain ⟨_, parsed⟩ := parsed
      rcases List.mem_append.mp member with member | member
      · rw [List.mem_singleton.mp member]
        exact lt_of_digits parsed
      · cases member
  | link kind element rest =>
      intro reference member
      have parsed : ∃ first second, number .typeParameter (some (digits element)) = .ok first ∧
          number .typeParameter (some (digits (rest.getD 0))) = .ok second := by
        cases kind
        all_goals
          obtain ⟨first, here, later⟩ := Outcome.bind_ok done
          obtain ⟨second, there, _⟩ := Outcome.bind_ok later
          exact ⟨first, second, here, there⟩
      obtain ⟨_, _, here, there⟩ := parsed
      rcases List.mem_append.mp member with member | member
      · rw [List.mem_singleton.mp member]
        exact lt_of_digits here
      · exact optional there reference member
  | function arguments results =>
      obtain ⟨_, here, later⟩ := Outcome.bind_ok done
      obtain ⟨_, there, _⟩ := Outcome.bind_ok later
      intro reference member
      rcases List.mem_append.mp member with member | member
      · exact optional here reference member
      · rw [List.mem_singleton.mp member]
        exact lt_of_digits there

/-! ### Lines -/

theorem clear_of_type {record found : TypeRecord} (wordy : (type record).Wordy)
    (done : parseType (line (type record)) = .ok found) : (type record).Clear := by
  obtain ⟨⟨fields, _⟩, read, done⟩ := Outcome.bind_ok done
  have shown : (type record).render =
      row "T" (record.label :: record.signature.code.code :: record.signature.fields) record.pragmas := rfl
  obtain ⟨clear, same⟩ := numbers_of_row shown (solid_letter (by decide)) wordy read
  cases same
  obtain ⟨_, label, done⟩ := Outcome.bind_ok done
  obtain ⟨_, _, done⟩ := Outcome.bind_ok done
  obtain ⟨read, code, done⟩ := Outcome.bind_ok done
  obtain ⟨known, required, done⟩ := Outcome.bind_ok done
  obtain ⟨_, done⟩ := Outcome.guard_ok done
  obtain ⟨signature, parsed, _⟩ := Outcome.bind_ok done
  have codeBound : record.signature.code.code < wordBound := by cases record.signature.code <;> decide
  have same : number .typeCode (some (digits record.signature.code.code)) = .ok record.signature.code.code :=
    number_digits _ codeBound
  cases same.symm.trans code
  rw [type_code_of_code] at required
  cases require_ok required
  exact ⟨Spelled.change wordy clear, lt_of_digits label, references_counted parsed⟩

theorem clear_of_node {record found : NodeRecord} (wordy : (node record).Wordy)
    (done : parseNode (line (node record)) = .ok found) : (node record).Clear := by
  obtain ⟨⟨fields, _⟩, read, done⟩ := Outcome.bind_ok done
  have shown : (node record).render = row "N" [record.label, record.opcode.code] record.pragmas := rfl
  obtain ⟨clear, same⟩ := numbers_of_row shown (solid_letter (by decide)) wordy read
  cases same
  obtain ⟨_, label, _⟩ := Outcome.bind_ok done
  exact ⟨clear, lt_of_digits label⟩

theorem clear_of_compound {record found : CompoundRecord} (done : parseCompound (line (compound record)) = .ok found) :
    (compound record).Clear := by
  unfold parseCompound at done
  rw [words_compound] at done
  obtain ⟨_, done⟩ := Outcome.guard_ok done
  obtain ⟨_, label, _⟩ := Outcome.bind_ok done
  exact ⟨trivial, lt_of_digits label⟩

theorem clear_of_graph {pragmas found : Pragmas} (wordy : (graph pragmas).Wordy)
    (done : parseGraph (line (graph pragmas)) = .ok found) : (graph pragmas).Clear := by
  obtain ⟨_, read, _⟩ := Outcome.bind_ok done
  exact ⟨clear_of_row (render_graph pragmas) (solid_letter (by decide)) (Nat.le_refl 2) wordy read, trivial⟩

theorem clear_of_trailer {record : TrailerRecord} {header : CompoundRecord} {graphs : List NodeId}
    {found : List NodeId × Pragmas} (wordy : (trailer record).Wordy)
    (done : parseTrailer header graphs (line (trailer record)) = .ok found) : (trailer record).Clear := by
  obtain ⟨⟨fields, _⟩, read, done⟩ := Outcome.bind_ok done
  have shown : (trailer record).render =
      row "\x7d" (record.label :: record.opcode.code :: record.offsets.length :: record.offsets) record.pragmas := rfl
  obtain ⟨clear, same⟩ := numbers_of_row shown (solid_letter (by decide)) wordy read
  cases same
  obtain ⟨_, label, done⟩ := Outcome.bind_ok done
  obtain ⟨_, done⟩ := Outcome.guard_ok done
  obtain ⟨_, _, done⟩ := Outcome.bind_ok done
  obtain ⟨_, done⟩ := Outcome.guard_ok done
  obtain ⟨_, count, done⟩ := Outcome.bind_ok done
  obtain ⟨_, done⟩ := Outcome.guard_ok done
  obtain ⟨_, children, _⟩ := Outcome.bind_ok done
  refine ⟨clear, lt_of_digits label, lt_of_digits count, fun offset member => ?_⟩
  obtain ⟨each, _⟩ := Outcome.map_m_ok_iff.mp children
  obtain ⟨_, here⟩ := each (digits offset) (List.mem_map_of_mem member)
  obtain ⟨_, number, _⟩ := Outcome.bind_ok here
  exact lt_of_digits number

theorem clear_of_edge {record found : EdgeRecord} (wordy : (edge record).Wordy)
    (done : parseEdge (line (edge record)) = .ok found) : (edge record).Clear := by
  obtain ⟨⟨fields, _⟩, read, done⟩ := Outcome.bind_ok done
  have shown : (edge record).render =
      row "E" [record.source, record.sourcePort, record.target, record.targetPort, record.type] record.pragmas := rfl
  obtain ⟨clear, same⟩ := numbers_of_row shown (solid_letter (by decide)) wordy read
  cases same
  obtain ⟨_, done⟩ := Outcome.guard_ok done
  obtain ⟨_, source, done⟩ := Outcome.bind_ok done
  obtain ⟨_, sourcePort, done⟩ := Outcome.bind_ok done
  obtain ⟨_, target, done⟩ := Outcome.bind_ok done
  obtain ⟨_, targetPort, done⟩ := Outcome.bind_ok done
  obtain ⟨_, type, _⟩ := Outcome.bind_ok done
  exact ⟨clear, lt_of_digits source, lt_of_digits sourcePort, lt_of_digits target, lt_of_digits targetPort,
    lt_of_digits type⟩

theorem clear_of_function {record found : FunctionRecord} (wordy : (function record).Wordy)
    (done : parseFunction (line (function record)) = .ok found) : (function record).Clear := by
  obtain ⟨⟨before, name, after⟩, cut, done⟩ := Outcome.bind_ok done
  have known := require_ok cut
  rw [split_function_line wordy] at known
  cases known
  obtain ⟨read, suffix, done⟩ := Outcome.bind_ok done
  obtain ⟨_, type, _⟩ := Outcome.bind_ok done
  rw [words_function_front] at type
  exact ⟨Spelled.change wordy (clear_of_suffix wordy suffix), lt_of_digits type⟩

theorem clear_of_literal {record found : LiteralRecord} (wordy : (literal record).Wordy)
    (done : parseLiteral (line (literal record)) = .ok found) : (literal record).Clear := by
  obtain ⟨⟨before, text, after⟩, cut, done⟩ := Outcome.bind_ok done
  have known := require_ok cut
  rw [split_literal_line wordy] at known
  cases known
  obtain ⟨_, done⟩ := Outcome.guard_ok done
  obtain ⟨read, suffix, done⟩ := Outcome.bind_ok done
  obtain ⟨_, target, done⟩ := Outcome.bind_ok done
  obtain ⟨_, targetPort, done⟩ := Outcome.bind_ok done
  obtain ⟨_, type, _⟩ := Outcome.bind_ok done
  rw [words_literal_front] at target targetPort type
  exact ⟨Spelled.change wordy (clear_of_suffix wordy suffix), lt_of_digits target, lt_of_digits targetPort,
    lt_of_digits type⟩

end Dataflow.Record

namespace Dataflow.Module.Read
open Record (line)

/-! ### Texts -/

theorem clear_of_step {labels : List Nat} {before after : State} {record : Record} {kind : Kind}
    (wordy : record.Wordy) (body : kindOf record = some kind)
    (done : step labels before (kind, line record) = .ok after) : record.Clear := by
  cases record with
  | type | pragma => cases body
  | compound record =>
      cases body
      simp only [step] at done
      obtain ⟨found, parsed, _⟩ := Outcome.bind_ok done
      exact Record.clear_of_compound (on_line_ok parsed)
  | function record =>
      cases body
      simp only [step] at done
      obtain ⟨m, _, done⟩ := Outcome.bind_ok done
      obtain ⟨found, parsed, _⟩ := Outcome.bind_ok done
      exact Record.clear_of_function wordy (on_line_ok parsed)
  | node record =>
      cases body
      simp only [step] at done
      obtain ⟨found, parsed, _⟩ := Outcome.bind_ok done
      exact Record.clear_of_node wordy (on_line_ok parsed)
  | graph pragmas =>
      cases body
      simp only [step] at done
      obtain ⟨found, parsed, _⟩ := Outcome.bind_ok done
      exact Record.clear_of_graph wordy (on_line_ok parsed)
  | trailer record =>
      cases body
      simp only [step] at done
      obtain ⟨ended, _, done⟩ := Outcome.bind_ok done
      split at done
      · obtain ⟨found, parsed, _⟩ := Outcome.bind_ok done
        exact Record.clear_of_trailer wordy (on_line_ok parsed)
      · cases done
  | edge record =>
      cases body
      simp only [step] at done
      obtain ⟨found, parsed, _⟩ := Outcome.bind_ok done
      exact Record.clear_of_edge wordy (on_line_ok parsed)
  | literal record =>
      cases body
      simp only [step] at done
      obtain ⟨found, parsed, _⟩ := Outcome.bind_ok done
      exact Record.clear_of_literal wordy (on_line_ok parsed)

theorem clear_of_add_line {before after : Document} {record : TypeRecord} (wordy : (Record.type record).Wordy)
    (done : addLine before (line (.type record)) = .ok after) : (Record.type record).Clear := by
  obtain ⟨rest, shown⟩ := render_head (.type record) (fun impossible => impossible)
  obtain ⟨⟨tail, start⟩, head⟩ := head_of_line (letter_solid _) shown
  have other : letter (.type record) ≠ 'C' := by
    simp only [letter]
    decide
  have typed : [letter (.type record)] = ['T'] := rfl
  rw [add_line_eq start other, head, if_pos typed] at done
  obtain ⟨found, parsed, _⟩ := Outcome.bind_ok done
  exact Record.clear_of_type wordy (on_line_ok parsed)

theorem clear_of_document {types : List TypeRecord} {pragmas : SortedMap Char String} {body : List Record}
    {found : Document} (typesWordy : ∀ record ∈ types, (Record.type record).Wordy)
    (pragmasWordy : ∀ entry ∈ pragmas.entries, (Record.pragma entry.1 entry.2).Wordy)
    (bodyWordy : ∀ record ∈ body, record.Wordy) (read : document (fullText types pragmas body) = .ok found) :
    ∀ record ∈ types, (Record.type record).Clear := by
  intro record member
  have wordy := wordy_heading typesWordy pragmasWordy
  unfold document at read
  rw [fullText, lines_of_records wordy bodyWordy] at read
  have inside : line (.type record) ∈ (heading types pragmas ++ body).map line :=
    List.mem_map_of_mem (List.mem_append_left _ (List.mem_append_left _ (List.mem_map_of_mem member)))
  obtain ⟨before, after, step⟩ := Outcome.fold_m_member read inside
  exact clear_of_add_line (typesWordy record member) step

theorem clear_of_build {lines : TypeLines} {pragmas : SortedMap Char String} {body : List Record} {copy : Module}
    (wordy : ∀ record ∈ body, record.Wordy) (kinds : ∀ record ∈ body, (kindOf record).isSome)
    (built : build ⟨lines, pragmas, body.filterMap bodyLine⟩ = .ok copy) : ∀ record ∈ body, record.Clear := by
  intro record member
  obtain ⟨_, _, built⟩ := Outcome.bind_ok built
  obtain ⟨_, _, built⟩ := Outcome.bind_ok built
  obtain ⟨state, folded, _⟩ := Outcome.bind_ok built
  obtain ⟨kind, found⟩ := Option.isSome_iff_exists.mp (kinds record member)
  have inside : (kind, line record) ∈ body.filterMap bodyLine :=
    List.mem_filterMap.mpr ⟨record, member, by rw [bodyLine, found]; rfl⟩
  obtain ⟨before, after, step⟩ := Outcome.fold_m_member folded inside
  exact clear_of_step (wordy record member) found step

end Dataflow.Module.Read
