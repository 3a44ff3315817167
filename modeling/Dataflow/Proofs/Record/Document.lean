import Dataflow.Module.Write
import Dataflow.Proofs.Record.Quoted
set_option autoImplicit false

-- The document of a text: each line goes where its record belongs.
namespace Dataflow.Module.Read
open Record (line Word)
open Text (Solid isBlank spread)

theorem of_text_eq (text : String) : ofText text = document text >>= build := rfl

def TypeRecord.reread (record : TypeRecord) : TypeRecord :=
  { record with pragmas := record.pragmas.normalize }

/-! ### Heads of lines -/

theorem head_of_line {record : Record} {c : Char} {rest : Word} (solid : isBlank c = false)
    (shown : record.render.toList = c :: ' ' :: rest) :
    (∃ tail, line record = c :: tail) ∧ (Text.words (line record)).headD [] = [c] := by
  constructor
  · unfold line
    rw [shown, Text.trim, Text.trim_left_of_head solid]
    have front := Text.trim_right_front (c :: ' ' :: rest)
    have nonempty : Text.trimRight (c :: ' ' :: rest) ≠ [] := by
      intro empty
      have words := Text.words_trim_right (c :: ' ' :: rest)
      have split := Text.words_append_blank Text.blank_space [c] rest
      rw [Text.words_of_solid (Record.solid_letter solid)] at split
      rw [empty, List.singleton_append, ← words, empty] at *
      simp [Text.words_nil] at split
    obtain ⟨more, whole⟩ := front
    cases start : Text.trimRight (c :: ' ' :: rest) with
    | nil => exact absurd start nonempty
    | cons head tail =>
        rw [start] at whole
        have same := (List.cons.inj whole).1
        exact ⟨tail, by rw [same]⟩
  · unfold line
    rw [Text.words_trim, shown]
    have split := Text.words_append_blank Text.blank_space [c] rest
    rw [Text.words_of_solid (Record.solid_letter solid), List.singleton_append] at split
    rw [split]
    rfl

theorem toList_row_head (c : Char) (number : Nat) (numbers : List Nat) (pragmas : Pragmas) :
    ∃ rest, (Record.row c.toString (number :: numbers) pragmas).toList = c :: ' ' :: rest := by
  rw [Record.toList_row]
  exact ⟨_, by simp [Char.toString]; rfl⟩

def letter : Record → Char
  | .type _ => 'T'
  | .pragma _ _ => 'C'
  | .function _ => 'X'
  | .node _ => 'N'
  | .compound _ => '\x7b'
  | .graph _ => 'G'
  | .trailer _ => '\x7d'
  | .edge _ => 'E'
  | .literal _ => 'L'

def IsPragma : Record → Prop
  | .pragma _ _ => True
  | _ => False

theorem render_head (record : Record) (other : ¬ IsPragma record) :
    ∃ rest, record.render.toList = letter record :: ' ' :: rest := by
  cases record with
  | type record => exact toList_row_head 'T' _ _ _
  | pragma key text => exact absurd trivial other
  | function record =>
      rw [Record.toList_function]
      exact ⟨_, rfl⟩
  | node record => exact toList_row_head 'N' _ _ _
  | compound record =>
      change ∃ rest, ("\x7b Compound" ++ renderNumbers [record.label, record.opcode.code] ++ " ").toList = _
      simp only [String.toList_append]
      exact ⟨_, rfl⟩
  | graph pragmas =>
      change ∃ rest, ("G 0" ++ pragmas.render).toList = _
      simp only [String.toList_append]
      exact ⟨_, rfl⟩
  | trailer record => exact toList_row_head '\x7d' _ _ _
  | edge record => exact toList_row_head 'E' _ _ _
  | literal record =>
      rw [Record.toList_literal]
      exact ⟨_, rfl⟩

/-! ### One line -/

def kindOf : Record → Option Kind
  | .type _ | .pragma _ _ => none
  | .function _ => some .function
  | .node _ => some .node
  | .compound _ => some .compound
  | .graph _ => some .graph
  | .trailer _ => some .trailer
  | .edge _ => some .edge
  | .literal _ => some .literal

theorem letter_solid (record : Record) : isBlank (letter record) = false := by
  cases record <;> (simp only [letter]; decide)

theorem kind_of_letter {record : Record} {kind : Kind} (body : kindOf record = some kind) :
    letter record ≠ 'C' ∧ [letter record] ≠ ['T'] ∧ kind? [letter record] = some kind := by
  cases record with
  | type | pragma => cases body
  | function | node | compound | graph | trailer | edge | literal =>
      cases body
      simp only [letter]
      exact ⟨by decide, by decide, rfl⟩

theorem line_ne_nil {record : Record} (fits : record.Wordy) : line record ≠ [] := by
  by_cases special : IsPragma record
  · cases record with
    | pragma key text =>
        obtain ⟨rest, shown, _⟩ := Record.line_pragma fits
        rw [shown]
        exact List.cons_ne_nil _ _
    | _ => cases special
  · obtain ⟨rest, shown⟩ := render_head record special
    obtain ⟨⟨tail, same⟩, _⟩ := head_of_line (letter_solid _) shown
    rw [same]
    exact List.cons_ne_nil _ _

theorem add_line_eq {document : Document} {text : Word} {c : Char} {tail : Word}
    (start : text = c :: tail) (other : c ≠ 'C') :
    addLine document text =
      if (Text.words text).headD [] = ['T'] then addTypeLine document text
      else
        match kind? ((Text.words text).headD []) with
        | some kind => .ok { document with body := document.body ++ [(kind, text)] }
        | none => refuse text .unknownRecord := by
  subst start
  unfold addLine
  split
  · rename_i same
    cases same
    exact absurd rfl other
  · rfl

theorem add_body_line {record : Record} {kind : Kind} (document : Document)
    (body : kindOf record = some kind) :
    addLine document (line record) =
      .ok { document with body := document.body ++ [(kind, line record)] } := by
  obtain ⟨other, notType, found⟩ := kind_of_letter body
  have plain : ¬ IsPragma record := by
    intro pragma
    cases record with
    | pragma => cases body
    | _ => exact pragma
  obtain ⟨rest, shown⟩ := render_head record plain
  obtain ⟨⟨tail, start⟩, head⟩ := head_of_line (letter_solid record) shown
  rw [add_line_eq start other, head, if_neg notType, found]

theorem add_type_line {record : TypeRecord} {document : Document}
    (fits : (Record.type record).Clear) (new : document.types.contains record.label = false) :
    addLine document (line (.type record)) =
      .ok { document with
        types := document.types.insert record.label ⟨line (.type record), TypeRecord.reread record⟩ } := by
  obtain ⟨rest, shown⟩ := render_head (.type record) (fun impossible => impossible)
  obtain ⟨⟨tail, start⟩, head⟩ := head_of_line (letter_solid _) shown
  have parsed : onLine (line (.type record)) (Record.parseType (line (.type record))) =
      .ok (TypeRecord.reread record) := by
    rw [Record.parse_type_line fits]
    rfl
  have other : letter (.type record) ≠ 'C' := by
    simp only [letter]
    decide
  have typed : [letter (.type record)] = ['T'] := rfl
  rw [add_line_eq start other, head, if_pos typed]
  refine (Outcome.bind_of_ok parsed).trans ?_
  rw [TypeRecord.reread]
  simp only [new]
  rfl

theorem add_pragma_line {key : Char} {text : String} (document : Document)
    (wordy : (Record.pragma key text).Wordy) :
    addLine document (line (.pragma key text)) =
      .ok { document with pragmas := document.pragmas.insert key text } := by
  obtain ⟨rest, shown, parsed⟩ := Record.line_pragma wordy
  have read : onLine ('C' :: '$' :: rest) (Record.parsePragma rest) = .ok (key, text) := by
    rw [parsed]
    rfl
  rw [shown]
  exact (Outcome.bind_of_ok read).trans rfl

/-! ### All lines -/

theorem add_type_lines {records : List TypeRecord} (document : Document)
    (clear : ∀ record ∈ records, (Record.type record).Clear)
    (ordered : (records.map TypeRecord.label).Pairwise (· < ·))
    (above : ∀ record ∈ records, ∀ entry ∈ document.types.entries, entry.1 < record.label) :
    ∃ types : TypeLines, types.entries = document.types.entries ++
        records.map (fun record => (record.label, ⟨line (.type record), TypeRecord.reread record⟩)) ∧
      (records.map fun record => line (.type record)).foldlM addLine document =
        .ok { document with types := types } := by
  induction records generalizing document with
  | nil => exact ⟨document.types, by simp, rfl⟩
  | cons record rest ih =>
      obtain ⟨less, tailOrdered⟩ := List.pairwise_cons.mp ordered
      have below : ∀ entry ∈ document.types.entries, compare entry.1 record.label = .lt :=
        fun entry member => Nat.compare_eq_lt.mpr (above record List.mem_cons_self entry member)
      have new : document.types.contains record.label = false := by
        unfold SortedMap.contains
        cases found : document.types.get? record.label with
        | none => rfl
        | some value =>
            have less := below _ (SortedMap.mem_entries_of_get? found)
            exact absurd less (SortedMap.key_lt_irrefl _)
      let entry : TypeLine := ⟨line (.type record), TypeRecord.reread record⟩
      let next : Document := { document with types := document.types.insert record.label entry }
      have added : next.types.entries = document.types.entries ++ [(record.label, entry)] :=
        SortedMap.insert_entry_above below
      have step : addLine document (line (.type record)) = .ok next :=
        add_type_line (clear record List.mem_cons_self) new
      obtain ⟨types, entries, folded⟩ := ih next
        (fun other member => clear other (List.mem_cons_of_mem _ member)) tailOrdered (by
          intro other member old inside
          rw [added] at inside
          rcases List.mem_append.mp inside with inside | last
          · exact above other (List.mem_cons_of_mem _ member) old inside
          · rw [List.mem_singleton.mp last]
            exact less _ (List.mem_map_of_mem member))
      refine ⟨types, ?_, ?_⟩
      · rw [entries, added]
        simp [entry]
      · rw [List.map_cons, List.foldlM_cons, Outcome.bind_of_ok step]
        exact folded

theorem add_pragma_lines {pragmas : List (Char × String)} (document : Document)
    (wordy : ∀ entry ∈ pragmas, (Record.pragma entry.1 entry.2).Wordy) :
    (pragmas.map fun entry => line (.pragma entry.1 entry.2)).foldlM addLine document =
      .ok { document with pragmas := pragmas.foldl (fun map entry => map.insert entry.1 entry.2) document.pragmas } := by
  induction pragmas generalizing document with
  | nil => rfl
  | cons entry rest ih =>
      have step := add_pragma_line document (wordy entry List.mem_cons_self)
      rw [List.map_cons, List.foldlM_cons, Outcome.bind_of_ok step]
      exact ih _ fun other member => wordy other (List.mem_cons_of_mem _ member)

def bodyLine (record : Record) : Option (Kind × Word) :=
  (kindOf record).map (·, line record)

theorem add_body_lines {records : List Record} (document : Document)
    (body : ∀ record ∈ records, (kindOf record).isSome) :
    (records.map line).foldlM addLine document =
      .ok { document with body := document.body ++ records.filterMap bodyLine } := by
  induction records generalizing document with
  | nil => simp only [List.map_nil, List.filterMap_nil, List.append_nil]; rfl
  | cons record rest ih =>
      obtain ⟨kind, found⟩ := Option.isSome_iff_exists.mp (body record List.mem_cons_self)
      have step := add_body_line document found
      have here : bodyLine record = some (kind, line record) := by
        unfold bodyLine
        rw [found]
        rfl
      rw [List.map_cons, List.foldlM_cons, Outcome.bind_of_ok step,
        ih _ fun other member => body other (List.mem_cons_of_mem _ member), List.filterMap_cons, here]
      simp

/-! ### The whole text -/

theorem newline_not_mem_render {record : Record} (fits : record.Wordy) :
    '\n' ∉ record.render.toList := by
  have quoted : ∀ {before text : Word} {pieces : List Word}, '\n' ∉ before → '\n' ∉ text →
      (∀ word ∈ pieces, Solid word) → '\n' ∉ before ++ '"' :: (text ++ '"' :: spread pieces) := by
    intro before text pieces first second solid
    have third := Record.newline_not_mem_spread solid
    simp [first, second, third]
  have blanks : ∀ numbers : List Nat, '\n' ∉ spread (numbers.map Record.digits) :=
    fun numbers => Record.newline_not_mem_spread (Record.solid_numbers numbers)
  cases record with
  | type record => exact Record.newline_not_mem_row (Record.solid_letter (by decide)) fits.2.2
  | node record => exact Record.newline_not_mem_row (Record.solid_letter (by decide)) fits
  | trailer record => exact Record.newline_not_mem_row (Record.solid_letter (by decide)) fits
  | edge record => exact Record.newline_not_mem_row (Record.solid_letter (by decide)) fits
  | pragma key text =>
      obtain ⟨solid, free, _⟩ := fits
      have plain : '\n' ≠ key := fun same => absurd solid (by rw [← same]; decide)
      change '\n' ∉ ("C$  " ++ key.toString ++ " " ++ text).toList
      simp [Char.toString, String.toList_append, free, plain]
  | function record =>
      rw [Record.toList_function]
      have first := blanks [record.type]
      refine quoted ?_ fits.1 fits.2.1.solid
      simp at first ⊢
      exact first
  | literal record =>
      rw [Record.toList_literal]
      have first := blanks [record.target, record.targetPort, record.type]
      refine quoted ?_ fits.1 fits.2.1.solid
      simp at first ⊢
      exact first
  | compound record =>
      have first := blanks [record.label, record.opcode.code]
      change '\n' ∉ ("\x7b Compound" ++ renderNumbers [record.label, record.opcode.code] ++ " ").toList
      simp only [String.toList_append, Record.toList_numbers]
      simp at first ⊢
      exact first
  | graph pragmas =>
      change '\n' ∉ ("G 0" ++ pragmas.render).toList
      have second := Record.newline_not_mem_spread (Pragmas.Wordy.solid fits)
      simp only [String.toList_append, Pragmas.toList_render]
      simp [second]

theorem lines_of_records {header body : List Record} (first : ∀ record ∈ header, record.Wordy)
    (second : ∀ record ∈ body, record.Wordy) :
    Text.lines (String.join (header.map fun record => record.render ++ "\n") ++ renderLines body).toList =
      (header ++ body).map line := by
  have single : ∀ records : List Record, (∀ record ∈ records, record.Wordy) →
      (records.map fun record => record.render.toList).flatMap Text.line = records.map line := by
    intro records wordy
    induction records with
    | nil => rfl
    | cons record rest ih =>
        have held : Text.trim record.render.toList ≠ [] := line_ne_nil (wordy record List.mem_cons_self)
        rw [List.map_cons, List.flatMap_cons, Text.line_of_ne_nil held,
          ih fun other member => wordy other (List.mem_cons_of_mem _ member)]
        rfl
  have whole : ∀ records : List Record, (∀ record ∈ records, record.Wordy) →
      ∀ text ∈ records.map fun record => record.render.toList, '\n' ∉ text := by
    intro records wordy text member
    obtain ⟨record, inside, rfl⟩ := List.mem_map.mp member
    exact newline_not_mem_render (wordy record inside)
  have top : (String.join (header.map fun record => record.render ++ "\n")).toList =
      (header.map fun record => record.render.toList).flatMap fun text => text ++ ['\n'] := by
    rw [String.toList_join, List.flatMap_map, List.flatMap_map]
    congr 1
    funext record
    exact String.toList_append
  have bottom : (renderLines body).toList =
      ['\n'].intercalate (body.map fun record => record.render.toList) := by
    unfold renderLines
    rw [String.toList_intercalate, List.map_map]
    rfl
  rw [String.toList_append, top, bottom, Text.lines_flat_map (whole header first),
    Text.lines_intercalate (whole body second), single header first, single body second, List.map_append]

-- The types and the pragmas of a text, and all of it.
def heading (types : List TypeRecord) (pragmas : SortedMap Char String) : List Record :=
  types.map Record.type ++ pragmas.entries.map fun entry => Record.pragma entry.1 entry.2

def fullText (types : List TypeRecord) (pragmas : SortedMap Char String) (body : List Record) : String :=
  String.join ((heading types pragmas).map fun record => record.render ++ "\n") ++ renderLines body

theorem wordy_heading {types : List TypeRecord} {pragmas : SortedMap Char String}
    (typesWordy : ∀ record ∈ types, (Record.type record).Wordy)
    (pragmasWordy : ∀ entry ∈ pragmas.entries, (Record.pragma entry.1 entry.2).Wordy) :
    ∀ record ∈ heading types pragmas, record.Wordy := by
  intro record member
  rcases List.mem_append.mp member with member | member
  · obtain ⟨type, inside, rfl⟩ := List.mem_map.mp member
    exact typesWordy type inside
  · obtain ⟨entry, inside, rfl⟩ := List.mem_map.mp member
    exact pragmasWordy entry inside

theorem document_of_records {types : List TypeRecord} {pragmas : SortedMap Char String}
    {body : List Record} (typesClear : ∀ record ∈ types, (Record.type record).Clear)
    (ordered : (types.map TypeRecord.label).Pairwise (· < ·))
    (pragmasWordy : ∀ entry ∈ pragmas.entries, (Record.pragma entry.1 entry.2).Wordy)
    (bodyWordy : ∀ record ∈ body, record.Wordy)
    (bodyKinds : ∀ record ∈ body, (kindOf record).isSome) :
    ∃ lines : TypeLines,
      lines.entries = types.map (fun record => (record.label, ⟨line (.type record), TypeRecord.reread record⟩)) ∧
      document (fullText types pragmas body) = .ok ⟨lines, pragmas, body.filterMap bodyLine⟩ := by
  have wordy := wordy_heading (fun record member => (typesClear record member).wordy) pragmasWordy
  obtain ⟨lines, entries, folded⟩ := add_type_lines ⟨.empty, .empty, []⟩ typesClear ordered
    fun _ _ _ member => by cases member
  have listed : pragmas.entries.foldl (fun map entry => map.insert entry.1 entry.2) .empty = pragmas := by
    refine SortedMap.ext ((SortedMap.entries_fold_insert (fun text => text) pragmas.ascending .empty
      fun _ _ _ member => by cases member).trans ?_)
    simp [SortedMap.empty]
  refine ⟨lines, entries, ?_⟩
  unfold document
  rw [fullText, lines_of_records wordy bodyWordy, heading, List.map_append, List.map_append, List.map_map, List.map_map]
  have pragmaLines := add_pragma_lines { (⟨.empty, .empty, []⟩ : Document) with types := lines } pragmasWordy
  have header := (Outcome.fold_m_append folded).trans pragmaLines
  refine (Outcome.fold_m_append header).trans ?_
  rw [add_body_lines _ bodyKinds, List.nil_append, listed]

end Dataflow.Module.Read
