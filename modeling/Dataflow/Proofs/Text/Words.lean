import Dataflow.Text.Blank
set_option autoImplicit false

-- Words and lines of texts that are put together from pieces: splitting undoes joining.
namespace Dataflow.Text

-- A word has a character, and none that is blank.
def Solid (word : List Char) : Prop :=
  word ≠ [] ∧ ∀ c ∈ word, isBlank c = false

-- Goes through the word, not through all characters there are.
instance (word : List Char) : Decidable (Solid word) :=
  @instDecidableAnd _ _ _ (List.decidableBAll _ word)

def spread (pieces : List (List Char)) : List Char :=
  pieces.flatMap fun piece => ' ' :: piece

@[simp] theorem spread_nil : spread [] = [] := rfl

@[simp] theorem spread_cons (piece : List Char) (rest : List (List Char)) :
    spread (piece :: rest) = ' ' :: (piece ++ spread rest) := rfl

theorem spread_append (first second : List (List Char)) :
    spread (first ++ second) = spread first ++ spread second :=
  List.flatMap_append

/-! ### Splitting -/

theorem split_cons (separates : Char → Bool) (c : Char) (rest : List Char) :
    split separates (c :: rest) =
      if separates c then [] :: split separates rest else extendFirst c (split separates rest) := rfl

theorem split_ne_nil (separates : Char → Bool) (text : List Char) : split separates text ≠ [] := by
  cases text with
  | nil => simp [split]
  | cons c rest =>
      rw [split_cons]
      split
      · simp
      · cases split separates rest <;> simp [extendFirst]

theorem split_append_separator {separates : Char → Bool} {c : Char} (separator : separates c = true)
    (first rest : List Char) :
    split separates (first ++ c :: rest) = split separates first ++ split separates rest := by
  induction first with
  | nil => simp [separator, split]
  | cons head first ih =>
      rw [List.cons_append, split_cons, split_cons, ih]
      by_cases here : separates head = true
      · simp [here]
      · have nonempty := split_ne_nil separates first
        cases pieces : split separates first with
        | nil => exact absurd pieces nonempty
        | cons piece pieces => simp [here, extendFirst]

theorem split_of_none {separates : Char → Bool} {text : List Char}
    (none : ∀ c ∈ text, separates c = false) : split separates text = [text] := by
  induction text with
  | nil => rfl
  | cons c rest ih =>
      rw [split_cons, none c List.mem_cons_self, ih fun other member => none other (List.mem_cons_of_mem _ member)]
      simp [extendFirst]

/-! ### Words -/

theorem blank_space : isBlank ' ' = true := by decide

theorem words_append_blank {c : Char} (blank : isBlank c = true) (first rest : List Char) :
    words (first ++ c :: rest) = words first ++ words rest := by
  unfold words
  rw [split_append_separator blank, List.filter_append]

theorem words_nil : words [] = [] := rfl

theorem words_blank_cons {c : Char} (blank : isBlank c = true) (rest : List Char) :
    words (c :: rest) = words rest := by
  have same := words_append_blank blank [] rest
  simpa [words_nil] using same

theorem words_append_only_blank {c : Char} (blank : isBlank c = true) (text : List Char) :
    words (text ++ [c]) = words text := by
  have same := words_append_blank blank text []
  simpa [words_nil] using same

theorem words_of_solid {word : List Char} (solid : Solid word) : words word = [word] := by
  unfold words
  rw [split_of_none solid.2]
  have nonempty : word ≠ [] := solid.1
  simp [nonempty]

theorem words_append_spread {pieces : List (List Char)} (text : List Char)
    (solid : ∀ piece ∈ pieces, Solid piece) : words (text ++ spread pieces) = words text ++ pieces := by
  induction pieces generalizing text with
  | nil => simp
  | cons piece rest ih =>
      have tail := fun other member => solid other (List.mem_cons_of_mem piece member)
      rw [spread_cons, words_append_blank blank_space, ih _ tail, words_of_solid (solid piece List.mem_cons_self)]
      simp

theorem words_spread {pieces : List (List Char)} (solid : ∀ piece ∈ pieces, Solid piece) :
    words (spread pieces) = pieces := by
  have same := words_append_spread [] solid
  simpa [words_nil] using same

-- A first word goes on with the character, or it starts there.
theorem mem_words_cons {c : Char} {rest word : List Char} (solid : isBlank c = false)
    (member : word ∈ words (c :: rest)) :
    word ∈ words rest ∨ ∃ piece, word = c :: piece ∧ (piece ≠ [] → piece ∈ words rest) := by
  unfold words at member ⊢
  rw [split_cons, if_neg (ne_true_of_eq_false solid)] at member
  obtain ⟨member, nonempty⟩ := List.mem_filter.mp member
  cases pieces : split isBlank rest with
  | nil => exact absurd pieces (split_ne_nil _ _)
  | cons piece others =>
      rw [pieces] at member
      rcases List.mem_cons.mp member with rfl | member
      · refine .inr ⟨piece, rfl, fun nonempty => List.mem_filter.mpr ⟨List.mem_cons_self, ?_⟩⟩
        simp [nonempty]
      · exact .inl (List.mem_filter.mpr ⟨List.mem_cons_of_mem _ member, nonempty⟩)

theorem solid_of_mem_words {text word : List Char} (member : word ∈ words text) : Solid word := by
  induction text generalizing word with
  | nil => simp [words_nil] at member
  | cons c rest ih =>
      cases blank : isBlank c with
      | true =>
          rw [words_blank_cons blank] at member
          exact ih member
      | false =>
          rcases mem_words_cons blank member with member | ⟨piece, rfl, whole⟩
          · exact ih member
          · refine ⟨by simp, fun other inside => ?_⟩
            rcases List.mem_cons.mp inside with rfl | inside
            · exact blank
            · exact (ih (whole (List.ne_nil_of_mem inside))).2 other inside

theorem mem_of_mem_words {text word : List Char} (member : word ∈ words text) :
    ∀ c ∈ word, c ∈ text := by
  induction text generalizing word with
  | nil => simp [words_nil] at member
  | cons c rest ih =>
      intro other inside
      cases blank : isBlank c with
      | true =>
          rw [words_blank_cons blank] at member
          exact List.mem_cons_of_mem _ (ih member other inside)
      | false =>
          rcases mem_words_cons blank member with member | ⟨piece, rfl, whole⟩
          · exact List.mem_cons_of_mem _ (ih member other inside)
          · rcases List.mem_cons.mp inside with rfl | inside
            · exact List.mem_cons_self
            · exact List.mem_cons_of_mem _ (ih (whole (List.ne_nil_of_mem inside)) other inside)

/-! ### Trimming -/

theorem trim_left_of_head {c : Char} {rest : List Char} (solid : isBlank c = false) :
    trimLeft (c :: rest) = c :: rest := by
  simp [trimLeft, solid]

theorem trim_right_append {text : List Char} {c : Char} (solid : isBlank c = false) :
    trimRight (text ++ [c]) = text ++ [c] := by
  simp [trimRight, solid]

theorem trim_right_blank {text : List Char} {c : Char} (blank : isBlank c = true) :
    trimRight (text ++ [c]) = trimRight text := by
  simp [trimRight, blank]

theorem words_trim_left (text : List Char) : words (trimLeft text) = words text := by
  induction text with
  | nil => rfl
  | cons c rest ih =>
      by_cases blank : isBlank c = true
      · have same : trimLeft (c :: rest) = trimLeft rest := by simp [trimLeft, blank]
        rw [same, words_blank_cons blank, ih]
      · rw [trim_left_of_head (by simpa using blank)]

theorem words_append_blanks (text : List Char) {tail : List Char}
    (blank : ∀ c ∈ tail, isBlank c = true) : words (text ++ tail) = words text := by
  induction tail generalizing text with
  | nil => rw [List.append_nil]
  | cons c rest ih =>
      have later := ih [] fun other member => blank other (List.mem_cons_of_mem _ member)
      rw [words_append_blank (blank c List.mem_cons_self)]
      rw [List.nil_append, words_nil] at later
      rw [later, List.append_nil]

theorem words_trim_right (text : List Char) : words (trimRight text) = words text := by
  have whole : text = trimRight text ++ (text.reverse.takeWhile isBlank).reverse := by
    have parts := @List.takeWhile_append_dropWhile _ isBlank text.reverse
    have turned := congrArg List.reverse parts
    rw [List.reverse_append, List.reverse_reverse] at turned
    exact turned.symm
  have tail : ∀ c ∈ (text.reverse.takeWhile isBlank).reverse, isBlank c = true := by
    intro c member
    exact List.all_eq_true.mp (List.all_takeWhile (l := text.reverse)) c (List.mem_reverse.mp member)
  have same := words_append_blanks (trimRight text) tail
  rw [← whole] at same
  exact same.symm

theorem words_trim (text : List Char) : words (trim text) = words text := by
  rw [trim, words_trim_right, words_trim_left]

theorem trim_left_suffix (text : List Char) : trimLeft text <:+ text :=
  List.dropWhile_suffix _

theorem trim_right_front (text : List Char) : trimRight text <+: text := by
  have suffix : text.reverse.dropWhile isBlank <:+ text.reverse := List.dropWhile_suffix _
  have turned := List.reverse_prefix.mpr suffix
  rwa [List.reverse_reverse] at turned

theorem mem_of_mem_trim {text : List Char} {c : Char} (member : c ∈ trim text) : c ∈ text :=
  (trim_left_suffix text).subset ((trim_right_front (trimLeft text)).subset member)

theorem trim_left_eq_self_iff {text : List Char} :
    trimLeft text = text ↔ ∀ c, text.head? = some c → isBlank c = false := by
  cases text with
  | nil => simp [trimLeft]
  | cons c rest =>
      by_cases blank : isBlank c = true
      · simp only [trimLeft, List.dropWhile_cons, blank, if_true, List.head?_cons, Option.some.injEq,
          forall_eq', Bool.true_eq_false, iff_false]
        intro same
        have shorter := (trim_left_suffix rest).length_le
        rw [trimLeft, same] at shorter
        exact absurd shorter (Nat.not_succ_le_self _)
      · simp [trimLeft, blank]

theorem head_trim_left (text : List Char) : ∀ c, (trimLeft text).head? = some c → isBlank c = false := by
  intro c found
  have some_ := List.head?_dropWhile_not isBlank text
  unfold trimLeft at found
  rw [found] at some_
  simpa using some_

theorem last_trim_right (text : List Char) :
    ∀ c, (trimRight text).getLast? = some c → isBlank c = false := by
  intro c found
  rw [trimRight, List.getLast?_reverse] at found
  exact head_trim_left text.reverse c found

theorem trim_right_of_last {text : List Char}
    (solid : ∀ c, text.getLast? = some c → isBlank c = false) : trimRight text = text := by
  have head : trimLeft text.reverse = text.reverse := by
    refine trim_left_eq_self_iff.mpr fun c found => solid c ?_
    rwa [List.head?_reverse] at found
  unfold trimLeft at head
  rw [trimRight, head, List.reverse_reverse]

theorem trim_trim (text : List Char) : trim (trim text) = trim text := by
  have left : trimLeft (trim text) = trim text := by
    refine trim_left_eq_self_iff.mpr fun c found => head_trim_left text c ?_
    obtain ⟨rest, same⟩ := trim_right_front (trimLeft text)
    unfold trim at found
    rw [← same]
    cases start : trimRight (trimLeft text) with
    | nil => simp [start] at found
    | cons head tail => simpa [start] using found
  rw [trim, left]
  exact trim_right_of_last (last_trim_right (trimLeft text))

theorem trim_eq_self_iff {text : List Char} :
    trim text = text ↔ (∀ c, text.head? = some c → isBlank c = false) ∧
      ∀ c, text.getLast? = some c → isBlank c = false := by
  constructor
  · intro same
    refine ⟨fun c found => ?_, fun c found => ?_⟩
    · obtain ⟨rest, whole⟩ := trim_right_front (trimLeft text)
      have start : (trim text).head? = some c := by rw [same]; exact found
      refine head_trim_left text c ?_
      rw [← whole]
      unfold trim at start
      cases front : trimRight (trimLeft text) with
      | nil => simp [front] at start
      | cons head tail => simpa [front] using start
    · rw [← same] at found
      exact last_trim_right _ c found
  · rintro ⟨front, back⟩
    rw [trim, trim_left_eq_self_iff.mpr front, trim_right_of_last back]

/-! ### Lines -/

-- The trimmed line, unless nothing is left of it.
def line (text : List Char) : List (List Char) :=
  [trim text].filter (!·.isEmpty)

theorem line_of_ne_nil {text : List Char} (held : trim text ≠ []) : line text = [trim text] := by
  simp [line, held]

theorem lines_of_single {text : List Char} (whole : '\n' ∉ text) : lines text = line text := by
  have none : ∀ c ∈ text, (c == '\n') = false := by
    intro c member
    by_cases same : c = '\n'
    · subst same
      exact absurd member whole
    · simp [same]
  unfold lines
  rw [split_of_none none]
  rfl

theorem lines_append_newline {first : List Char} (whole : '\n' ∉ first) (rest : List Char) :
    lines (first ++ '\n' :: rest) = line first ++ lines rest := by
  rw [← lines_of_single whole]
  unfold lines
  rw [split_append_separator (by decide), List.map_append, List.filter_append]

theorem lines_flat_map {texts : List (List Char)} (whole : ∀ text ∈ texts, '\n' ∉ text)
    (rest : List Char) :
    lines (texts.flatMap (fun text => text ++ ['\n']) ++ rest) = texts.flatMap line ++ lines rest := by
  induction texts with
  | nil => rfl
  | cons text texts ih =>
      have first := lines_append_newline (whole text List.mem_cons_self)
        (texts.flatMap (fun text => text ++ ['\n']) ++ rest)
      have later := ih fun other member => whole other (List.mem_cons_of_mem _ member)
      simp only [List.flatMap_cons, List.append_assoc, List.cons_append, List.nil_append]
      rw [first, later]

theorem lines_intercalate {texts : List (List Char)} (whole : ∀ text ∈ texts, '\n' ∉ text) :
    lines (['\n'].intercalate texts) = texts.flatMap line := by
  induction texts with
  | nil => rfl
  | cons text texts ih =>
      have later := ih fun other member => whole other (List.mem_cons_of_mem _ member)
      have here := whole text List.mem_cons_self
      cases texts with
      | nil => simp [lines_of_single here]
      | cons next others =>
          rw [List.intercalate_cons_cons, List.append_assoc, List.singleton_append, lines_append_newline here,
            later]
          rfl

theorem newline_not_mem_of_split {text piece : List Char} (member : piece ∈ split (· == '\n') text) :
    '\n' ∉ piece := by
  induction text generalizing piece with
  | nil =>
      simp only [split, List.foldr_nil, List.mem_singleton] at member
      rw [member]
      exact List.not_mem_nil
  | cons c rest ih =>
      rw [split_cons] at member
      by_cases newline : (c == '\n') = true
      · rw [if_pos newline] at member
        rcases List.mem_cons.mp member with rfl | member
        · exact List.not_mem_nil
        · exact ih member
      · rw [if_neg newline] at member
        cases pieces : split (· == '\n') rest with
        | nil => exact absurd pieces (split_ne_nil _ _)
        | cons first others =>
            rw [pieces] at member ih
            rcases List.mem_cons.mp member with rfl | member
            · intro present
              rcases List.mem_cons.mp present with rfl | present
              · exact newline (by decide)
              · exact ih List.mem_cons_self present
            · exact ih (List.mem_cons_of_mem _ member)

theorem newline_not_mem_of_lines {text line : List Char} (member : line ∈ lines text) : '\n' ∉ line := by
  unfold lines at member
  obtain ⟨member, _⟩ := List.mem_filter.mp member
  obtain ⟨piece, inside, rfl⟩ := List.mem_map.mp member
  exact fun held => newline_not_mem_of_split inside (mem_of_mem_trim held)

end Dataflow.Text
