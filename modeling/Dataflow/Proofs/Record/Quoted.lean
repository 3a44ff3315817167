import Dataflow.Module.Read
import Dataflow.Proofs.Record.Line
set_option autoImplicit false

-- Records with quoted text, and where each line of a text goes. Quoted text may hold quotes and
-- blanks; what follows it may not hold quotes, so the outermost quotes are found.
namespace Dataflow.Record
open Text (Solid isBlank wordBound spread)

/-! ### Ends of lines -/

theorem last_of_spread {pieces : List Word} {word : Word} (solid : Solid word)
    (others : ∀ piece ∈ pieces, Solid piece) :
    ∀ c, (word ++ spread pieces).getLast? = some c → isBlank c = false := by
  induction pieces generalizing word with
  | nil =>
      intro c found
      rw [Text.spread_nil, List.append_nil] at found
      exact solid.2 c (List.mem_of_getLast? found)
  | cons piece rest ih =>
      intro c found
      have here := others piece List.mem_cons_self
      have parts : word ++ spread (piece :: rest) = (word ++ [' ']) ++ (piece ++ spread rest) := by simp
      have nonempty : piece ++ spread rest ≠ [] := by simp [here.1]
      rw [parts, List.getLast?_append_of_ne_nil _ nonempty] at found
      exact ih here (fun other member => others other (List.mem_cons_of_mem _ member)) c found

theorem trim_quoted {c : Char} {before text : Word} {pieces : List Word} (solid : isBlank c = false)
    (others : ∀ piece ∈ pieces, Solid piece) :
    Text.trim (c :: before ++ '"' :: (text ++ '"' :: spread pieces)) =
      c :: before ++ '"' :: (text ++ '"' :: spread pieces) := by
  refine Text.trim_eq_self_iff.mpr ⟨?_, ?_⟩
  · intro head found
    cases found
    exact solid
  · intro last found
    have parts : c :: before ++ '"' :: (text ++ '"' :: spread pieces) =
        (c :: before ++ '"' :: text) ++ (['"'] ++ spread pieces) := by simp
    rw [parts, List.getLast?_append_of_ne_nil _ (by simp)] at found
    exact last_of_spread (solid_letter (by decide)) others last found

theorem split_quoted_line {before after : Word} (text : Word) (plain : '"' ∉ before) (rest : '"' ∉ after) :
    splitQuoted (before ++ '"' :: (text ++ '"' :: after)) = some (before, text, after) := by
  have first := split_first_of_not_mem plain (text ++ '"' :: after)
  have turned : (text ++ '"' :: after).reverse = after.reverse ++ '"' :: text.reverse := by simp
  have absent : '"' ∉ after.reverse := fun member => rest (List.mem_reverse.mp member)
  have second := split_first_of_not_mem absent text.reverse
  unfold splitQuoted
  rw [first]
  simp only [Option.bind_eq_bind, Option.bind_some, turned, second, List.reverse_reverse, Option.pure_def]

theorem quote_not_mem_digits (numbers : List Nat) : '"' ∉ spread (numbers.map digits) := by
  intro member
  obtain ⟨word, inside, here⟩ := List.mem_flatMap.mp member
  obtain ⟨number, _, rfl⟩ := List.mem_map.mp inside
  rcases List.mem_cons.mp here with same | here
  · exact absurd same (by decide)
  · exact absurd (Text.digits_are_digits number '"' here) (by decide)

/-! ### Functions and literals -/

theorem require_bind {α β : Type} (fault : Fault) (value : α) (next : α → Parsed β) :
    (require fault (some value) >>= next) = next value := rfl

theorem toList_function (record : FunctionRecord) :
    (function record).render.toList =
      'X' :: (spread [digits record.type] ++ [' ']) ++
        '"' :: (record.name.toList ++ '"' :: spread record.pragmas.words) := by
  change ("X" ++ renderNumbers [record.type] ++ " \"" ++ record.name ++ "\"" ++ record.pragmas.render).toList = _
  simp only [String.toList_append, toList_numbers, Pragmas.toList_render]
  simp

theorem toList_literal (record : LiteralRecord) :
    (literal record).render.toList =
      'L' :: (' ' :: ' ' :: ' ' :: ' ' ::
        spread [digits record.target, digits record.targetPort, digits record.type] ++ [' ']) ++
        '"' :: (record.text.toList ++ '"' :: spread record.pragmas.words) := by
  change ("L    " ++ renderNumbers [record.target, record.targetPort, record.type]
    ++ " \"" ++ record.text ++ "\"" ++ record.pragmas.render).toList = _
  simp only [String.toList_append, toList_numbers, Pragmas.toList_render]
  simp

theorem fields_of_suffix {pragmas : Pragmas} (clear : pragmas.Clear) :
    fields (Text.words (spread pragmas.words)) = .ok ([], pragmas.normalize) := by
  rw [Text.words_spread clear.solid]
  have none : ∀ word ∈ ([] : List Word), word.head? ≠ some '%' := fun _ member => by cases member
  exact fields_of_words none clear

theorem split_function_line {record : FunctionRecord} (fits : (function record).Wordy) :
    splitQuoted (line (function record)) = some ('X' :: (spread [digits record.type] ++ [' ']),
      record.name.toList, spread record.pragmas.words) := by
  obtain ⟨_, wordy, quoteless⟩ := fits
  have before : '"' ∉ 'X' :: (spread [digits record.type] ++ [' ']) := by
    have free := quote_not_mem_digits [record.type]
    simp at free ⊢
    exact free
  unfold line
  rw [toList_function, trim_quoted (by decide) wordy.solid]
  exact split_quoted_line record.name.toList before (Pragmas.quote_not_mem_words quoteless)

-- The words before the name of a function.
theorem words_function_front (record : FunctionRecord) :
    Text.words ('X' :: (spread [digits record.type] ++ [' '])) = ["X".toList, digits record.type] := by
  have solid : ∀ word ∈ [digits record.type], Solid word := solid_numbers [record.type]
  change Text.words ((['X'] ++ spread [digits record.type]) ++ [' ']) = _
  rw [Text.words_append_only_blank (by decide), Text.words_append_spread _ solid,
    Text.words_of_solid (solid_letter (by decide))]
  rfl

theorem parse_function_line {record : FunctionRecord} (fits : (function record).Clear) :
    parseFunction (line (function record)) = .ok { record with pragmas := record.pragmas.normalize } := by
  have cut := split_function_line fits.wordy
  obtain ⟨⟨_, clear, _⟩, bound⟩ := fits
  unfold parseFunction
  rw [cut]
  refine (require_bind _ _ _).trans ?_
  refine (Outcome.bind_of_ok (fields_of_suffix clear)).trans ?_
  rw [words_function_front]
  refine (Outcome.bind_of_ok (number_digits .typeLabel bound)).trans ?_
  rw [String.ofList_toList]
  rfl

-- The words before the text of a literal, with the blanks around them.
def literalFront (record : LiteralRecord) : Word :=
  'L' :: (' ' :: ' ' :: ' ' :: ' ' ::
    spread ([record.target, record.targetPort, record.type].map digits) ++ [' '])

theorem split_literal_line {record : LiteralRecord} (fits : (literal record).Wordy) :
    splitQuoted (line (literal record)) =
      some (literalFront record, record.text.toList, spread record.pragmas.words) := by
  obtain ⟨_, wordy, quoteless⟩ := fits
  have absent : '"' ∉ literalFront record := by
    have free := quote_not_mem_digits [record.target, record.targetPort, record.type]
    unfold literalFront
    generalize [record.target, record.targetPort, record.type].map digits = numbers at free ⊢
    simp only [List.mem_cons, List.mem_append, List.cons_append, List.not_mem_nil, or_false]
    simp [free]
  unfold line
  rw [toList_literal, trim_quoted (by decide) wordy.solid]
  exact split_quoted_line record.text.toList absent (Pragmas.quote_not_mem_words quoteless)

theorem words_literal_front (record : LiteralRecord) :
    Text.words (literalFront record) = "L".toList :: [record.target, record.targetPort, record.type].map digits := by
  have parts : literalFront record = ['L'] ++ ' ' :: ([] ++ ' ' :: ([] ++ ' ' :: ([] ++ ' ' ::
      (spread ([record.target, record.targetPort, record.type].map digits) ++ [' '])))) := by
    simp [literalFront]
  rw [parts]
  simp only [Text.words_append_blank Text.blank_space]
  rw [Text.words_spread (solid_numbers _), Text.words_of_solid (solid_letter (by decide))]
  rfl

theorem parse_literal_line {record : LiteralRecord} (fits : (literal record).Clear) :
    parseLiteral (line (literal record)) = .ok { record with pragmas := record.pragmas.normalize } := by
  have cut := split_literal_line fits.wordy
  obtain ⟨⟨_, clear, _⟩, target, targetPort, type⟩ := fits
  unfold parseLiteral
  rw [cut]
  refine (require_bind _ _ _).trans ?_
  simp only [words_literal_front, List.drop_one, List.tail_cons]
  refine (guard_passes (by simp)).trans ?_
  refine (Outcome.bind_of_ok (fields_of_suffix clear)).trans ?_
  refine (Outcome.bind_of_ok (number_digits .targetLabel target)).trans ?_
  refine (Outcome.bind_of_ok (number_digits .targetPort targetPort)).trans ?_
  refine (Outcome.bind_of_ok (number_digits .typeLabel type)).trans ?_
  rw [String.ofList_toList]
  rfl

/-! ### Pragmas of the module -/

theorem line_pragma {key : Char} {text : String} (wordy : (pragma key text).Wordy) :
    ∃ rest, line (pragma key text) = 'C' :: '$' :: rest ∧ parsePragma rest = .ok (key, text) := by
  obtain ⟨solid, _, trimmed⟩ := wordy
  have shown : (pragma key text).render.toList = 'C' :: '$' :: ' ' :: ' ' :: key :: ' ' :: text.toList := by
    change ("C$  " ++ key.toString ++ " " ++ text).toList = _
    simp [Char.toString, String.toList_append]
  have keyed : ∀ rest : Word, parsePragma (' ' :: ' ' :: key :: rest) =
      .ok (key, String.ofList (Text.trim rest)) := by
    intro rest
    have skipped : Text.trimLeft (' ' :: ' ' :: key :: rest) = key :: rest := by
      simp [Text.trimLeft, Text.blank_space, solid]
    unfold parsePragma
    rw [skipped]
  have blank := Text.blank_space
  have value : Text.trim (' ' :: text.toList) = text.toList := by
    have skipped : Text.trimLeft (' ' :: text.toList) = Text.trimLeft text.toList := by
      simp [Text.trimLeft, blank]
    rw [Text.trim, skipped]
    exact trimmed
  unfold line
  rw [shown]
  cases characters : text.toList with
  | nil =>
      have empty : text = "" := by rw [← String.ofList_toList (s := text), characters]
      refine ⟨[' ', ' ', key], ?_, ?_⟩
      · have head : Text.trimLeft ['C', '$', ' ', ' ', key, ' '] = ['C', '$', ' ', ' ', key] ++ [' '] := rfl
        have body := @Text.trim_right_append ['C', '$', ' ', ' '] key solid
        rw [Text.trim, head, Text.trim_right_blank blank]
        exact body
      · rw [keyed, empty]
        rfl
  | cons c rest =>
      refine ⟨' ' :: ' ' :: key :: ' ' :: c :: rest, ?_, ?_⟩
      · refine Text.trim_eq_self_iff.mpr ⟨fun head found => ?_, fun last found => ?_⟩
        · cases found
          decide
        · have back := (Text.trim_eq_self_iff.mp trimmed).2 last
          rw [characters] at back
          refine back ?_
          have parts : 'C' :: '$' :: ' ' :: ' ' :: key :: ' ' :: c :: rest =
              ['C', '$', ' ', ' ', key, ' '] ++ (c :: rest) := rfl
          rw [parts, List.getLast?_append_of_ne_nil _ (by simp)] at found
          exact found
      · rw [keyed, ← characters, value, String.ofList_toList]

end Dataflow.Record
