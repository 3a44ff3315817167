import Dataflow.Proofs.Outcome
import Dataflow.Proofs.Record.Parsed
import Dataflow.Proofs.SortedMap
set_option autoImplicit false

-- What a line gives to a document. A line is read without a look at other lines, and only a label of a type
-- that is given twice shows when the parts are put together.
namespace Dataflow.Module.Read
open Record (Word)

inductive Part where
  | type (entry : TypeLine)
  | pragma (key : Char) (text : String)
  | body (kind : Kind) (line : Word)

def pragmaText? : Word → Option Word
  | 'C' :: '$' :: text => some text
  | _ => none

def part (line : Word) : Reading Part :=
  match pragmaText? line with
  | some text => do
      let (key, value) ← onLine line (Record.parsePragma text)
      pure (.pragma key value)
  | none =>
      if (Text.words line).headD [] = ['T'] then do
        let record ← onLine line (Record.parseType line)
        pure (.type ⟨line, record⟩)
      else
        match kind? ((Text.words line).headD []) with
        | some kind => .ok (.body kind line)
        | none => refuse line .unknownRecord

inductive Gives (line : Word) : Part → Prop
  | pragma {text : Word} {key : Char} {value : String} : pragmaText? line = some text →
      Record.parsePragma text = .ok (key, value) → Gives line (.pragma key value)
  | type {record : TypeRecord} : pragmaText? line = none → (Text.words line).headD [] = ['T'] →
      Record.parseType line = .ok record → Gives line (.type ⟨line, record⟩)
  | body {kind : Kind} : pragmaText? line = none → kind? ((Text.words line).headD []) = some kind →
      Gives line (.body kind line)

theorem part_ok_iff {line : Word} {found : Part} : part line = .ok found ↔ Gives line found := by
  unfold part
  constructor
  · intro done
    split at done
    · rename_i marked
      obtain ⟨⟨key, value⟩, parsed, done⟩ := Outcome.bind_ok done
      cases done
      exact .pragma marked (on_line_ok parsed)
    · rename_i plain
      split at done
      · rename_i head
        obtain ⟨record, parsed, done⟩ := Outcome.bind_ok done
        cases done
        exact .type plain head (on_line_ok parsed)
      · split at done
        · rename_i known
          cases done
          exact .body plain known
        · cases done
  · intro gives
    cases gives with
    | pragma marked parsed =>
        rw [marked]
        dsimp only
        rw [parsed]
        rfl
    | type plain head parsed =>
        rw [plain]
        dsimp only
        rw [if_pos head, parsed]
        rfl
    | body plain known =>
        rw [plain]
        dsimp only
        rw [if_neg (fun head => by rw [head] at known; cases known), known]

def place (document : Document) : Part → Reading Document
  | .type entry =>
      if document.types.contains entry.record.label then refuse entry.line .duplicateType
      else .ok { document with types := document.types.insert entry.record.label entry }
  | .pragma key text => .ok { document with pragmas := document.pragmas.insert key text }
  | .body kind line => .ok { document with body := document.body ++ [(kind, line)] }

theorem add_line_part (document : Document) (line : Word) : addLine document line = part line >>= place document := by
  unfold addLine part
  split
  · rename_i text
    rw [show pragmaText? ('C' :: '$' :: text) = some text from rfl]
    dsimp only
    cases onLine ('C' :: '$' :: text) (Record.parsePragma text) <;> rfl
  · rename_i other
    have plain : pragmaText? line = none := by
      unfold pragmaText?
      split
      · exact absurd rfl (other _)
      · rfl
    rw [plain]
    dsimp only
    split
    · unfold addTypeLine
      cases onLine line (Record.parseType line) with
      | error error => rfl
      | ok record =>
          change (if document.types.contains record.label then _ else _) = place document (.type ⟨line, record⟩)
          unfold place
          dsimp only
          split <;> rfl
    · cases kind? ((Text.words line).headD []) <;> rfl

/-! ### All parts -/

def Part.type? : Part → Option TypeLine
  | .type entry => some entry
  | _ => none

def Part.pragma? : Part → Option (Char × String)
  | .pragma key text => some (key, text)
  | _ => none

def Part.body? : Part → Option (Kind × Word)
  | .body kind line => some (kind, line)
  | _ => none

def typesOf (parts : List Part) : List (Nat × TypeLine) :=
  (parts.filterMap Part.type?).map fun entry => (entry.record.label, entry)

def extend (document : Document) (parts : List Part) : Document :=
  ⟨(typesOf parts).foldl (fun types entry => types.insert entry.1 entry.2) document.types,
    (parts.filterMap Part.pragma?).foldl (fun pragmas entry => pragmas.insert entry.1 entry.2) document.pragmas,
    document.body ++ parts.filterMap Part.body?⟩

def collect (parts : List Part) : Document :=
  ⟨SortedMap.ofList (typesOf parts), SortedMap.ofList (parts.filterMap Part.pragma?), parts.filterMap Part.body?⟩

theorem contains_insert (types : TypeLines) (label : Nat) (entry : TypeLine) (other : Nat) :
    (types.insert label entry).contains other = false ↔ other ≠ label ∧ types.contains other = false := by
  unfold SortedMap.contains
  rw [SortedMap.get?_insert]
  by_cases same : other = label <;> simp [same]

theorem place_parts {parts : List Part} {document final : Document} : parts.foldlM place document = .ok final ↔
    ((∀ entry ∈ typesOf parts, document.types.contains entry.1 = false) ∧ ((typesOf parts).map (·.1)).Nodup) ∧
      extend document parts = final := by
  induction parts generalizing document with
  | nil => simp [typesOf, extend, pure, Except.pure]
  | cons first rest ih =>
      rw [List.foldlM_cons]
      cases first with
      | type entry =>
          have listed : typesOf (.type entry :: rest) = (entry.record.label, entry) :: typesOf rest := rfl
          rw [listed, List.map_cons, List.nodup_cons, List.forall_mem_cons]
          cases known : document.types.contains entry.record.label with
          | true =>
              have refused : place document (.type entry) = refuse entry.line .duplicateType := if_pos known
              rw [refused]
              constructor
              · intro done
                cases done
              · rintro ⟨⟨⟨fresh, _⟩, _⟩, _⟩
                cases fresh
          | false =>
              have placed : place document (.type entry) =
                  .ok { document with types := document.types.insert entry.record.label entry } :=
                if_neg (by rw [known]; exact Bool.false_ne_true)
              rw [Outcome.bind_of_ok placed, ih]
              simp only [contains_insert]
              constructor
              · rintro ⟨⟨fresh, once⟩, whole⟩
                refine ⟨⟨⟨trivial, fun other member => (fresh other member).2⟩, fun member => ?_, once⟩, whole⟩
                obtain ⟨other, inside, same⟩ := List.mem_map.mp member
                exact (fresh other inside).1 same
              · rintro ⟨⟨⟨_, fresh⟩, apart, once⟩, whole⟩
                refine ⟨⟨fun other member => ⟨fun same => apart ?_, fresh other member⟩, once⟩, whole⟩
                rw [← same]
                exact List.mem_map_of_mem member
      | pragma key text => exact ih
      | body kind line =>
          have whole : extend document (.body kind line :: rest) =
              extend { document with body := document.body ++ [(kind, line)] } rest :=
            congrArg (Document.mk _ _) (List.append_assoc document.body [(kind, line)] _).symm
          rw [whole]
          exact ih

/-! ### Texts -/

theorem add_lines {lines : List Word} {document final : Document} : lines.foldlM addLine document = .ok final ↔
    ∃ parts, lines.mapM part = .ok parts ∧ parts.foldlM place document = .ok final := by
  induction lines generalizing document with
  | nil => exact ⟨fun done => ⟨[], rfl, done⟩, fun ⟨parts, read, done⟩ => by cases read; exact done⟩
  | cons line rest ih =>
      rw [List.foldlM_cons, List.mapM_cons, add_line_part]
      constructor
      · intro done
        obtain ⟨next, here, later⟩ := Outcome.bind_ok done
        obtain ⟨first, read, placed⟩ := Outcome.bind_ok here
        obtain ⟨parts, others, folded⟩ := ih.mp later
        refine ⟨first :: parts, ?_, ?_⟩
        · rw [Outcome.bind_of_ok read, Outcome.bind_of_ok others]
          rfl
        · rw [List.foldlM_cons, Outcome.bind_of_ok placed]
          exact folded
      · rintro ⟨parts, read, folded⟩
        obtain ⟨first, here, read⟩ := Outcome.bind_ok read
        obtain ⟨others, there, read⟩ := Outcome.bind_ok read
        cases read
        obtain ⟨next, placed, later⟩ := Outcome.fold_m_cons folded
        rw [Outcome.bind_of_ok here, Outcome.bind_of_ok placed]
        exact ih.mpr ⟨others, there, later⟩

theorem document_ok_iff {text : String} {found : Document} : document text = .ok found ↔
    ∃ parts, (Text.lines text.toList).mapM part = .ok parts ∧ ((typesOf parts).map (·.1)).Nodup ∧
      collect parts = found := by
  unfold document
  rw [add_lines]
  refine exists_congr fun parts => and_congr_right fun _ => place_parts.trans ?_
  have fresh : ∀ entry ∈ typesOf parts, (SortedMap.empty : TypeLines).contains entry.1 = false := fun _ _ => rfl
  have whole : extend ⟨.empty, .empty, []⟩ parts = collect parts := rfl
  rw [whole]
  exact ⟨fun ⟨⟨_, once⟩, same⟩ => ⟨once, same⟩, fun ⟨once, same⟩ => ⟨⟨fresh, once⟩, same⟩⟩

end Dataflow.Module.Read
