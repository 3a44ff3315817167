import Dataflow.Proofs.Pragma.Suffix
set_option autoImplicit false

-- What is read back at the end of a record: pragmas that can be written come back as they are, and what a
-- row of words gives can be written. Of several pragmas with one key the last one counts.
namespace Dataflow

namespace Pragmas
open Text (isBlank)

-- Every key and text is within one word, keys end at the equals sign, and no text is a number.
structure Verbatim (pragmas : Pragmas) : Prop where
  sized : ∀ {key value}, (key, value) ∈ pragmas.entries.entries → key.length = 2
  keys : ∀ {key value}, (key, value) ∈ pragmas.entries.entries → ∀ c ∈ key.toList, isBlank c = false
  free : ∀ {key value}, (key, value) ∈ pragmas.entries.entries → '=' ∉ key.toList
  texts : ∀ {key text}, (key, .text text) ∈ pragmas.entries.entries → ∀ c ∈ text.toList, isBlank c = false
  words : ∀ {key text}, (key, .text text) ∈ pragmas.entries.entries → Text.integer? text.toList = none

section Verbatim
variable {pragmas : Pragmas}

theorem Verbatim.clear (verbatim : pragmas.Verbatim) : pragmas.Clear := by
  refine ⟨⟨verbatim.sized, verbatim.keys, fun {key value} member => ?_⟩, verbatim.free⟩
  cases value with
  | int number => exact (Text.solid_show number).2
  | text text => exact verbatim.texts member

theorem Verbatim.fixed (verbatim : pragmas.Verbatim) {key : String} {value : PragmaValue}
    (member : (key, value) ∈ pragmas.entries.entries) : value.reread = value := by
  unfold PragmaValue.reread PragmaValue.ofText
  cases value with
  | int number =>
      simp only [PragmaValue.render]
      rw [Text.integer_show]
  | text text =>
      simp only [PragmaValue.render]
      rw [verbatim.words member]

theorem Verbatim.normalized (verbatim : pragmas.Verbatim) : pragmas.normalize = pragmas := by
  have entries : pragmas.normalize.entries = pragmas.entries := by
    refine SortedMap.ext ((entries_normalize pragmas).trans ?_)
    refine (List.map_congr_left fun entry member => ?_).trans (List.map_id _)
    exact congrArg (entry.1, ·) (verbatim.fixed member)
  cases pragmas
  exact congrArg Pragmas.mk entries

theorem words_render (wordy : pragmas.Wordy) : Text.words pragmas.render.toList = pragmas.words := by
  rw [toList_render, Text.words_spread wordy.solid]

end Verbatim

end Pragmas

namespace Record
open Pragmas

theorem verbatim_of_taken {pragmas : Pragmas} (taken : Taken pragmas) : pragmas.Verbatim := by
  refine ⟨taken.plain.sized, taken.plain.keys, taken.plain.free, taken.plain.values, fun {key text} member => ?_⟩
  have same := taken.fixed member
  unfold PragmaValue.reread PragmaValue.ofText at same
  simp only [PragmaValue.render] at same
  cases number : Text.integer? text.toList with
  | none => rfl
  | some value =>
      rw [number] at same
      cases same

theorem fields_of_render {pragmas : Pragmas} (verbatim : pragmas.Verbatim) {front : List Word}
    (plain : ∀ word ∈ front, word.head? ≠ some '%') :
    fields (front ++ Text.words pragmas.render.toList) = .ok (front, pragmas) := by
  rw [words_render verbatim.clear.toWordy, fields_of_words plain verbatim.clear, verbatim.normalized]

/-! ### What a row of words gives -/

-- The pragma that a word stands for.
def pragmaOf? : Word → Option (String × PragmaValue)
  | '%' :: rest => (splitFirst '=' rest).map fun parts => (String.ofList parts.1, .ofText (String.ofList parts.2))
  | _ => none

theorem entry_of_plain {word : Word} (plain : word.head? ≠ some '%') : pragmaOf? word = none := by
  unfold pragmaOf?
  split
  · exact absurd rfl plain
  · rfl

theorem entry_of_pragma {key : Word} (absent : '=' ∉ key) (value : Word) :
    pragmaOf? ('%' :: (key ++ '=' :: value)) = some (String.ofList key, .ofText (String.ofList value)) := by
  simp only [pragmaOf?, split_first_of_not_mem absent, Option.map_some]

theorem entries_of_fold {words fields later : List Word} {pragmas read : Pragmas}
    (done : words.foldlM addWord (fields, pragmas) = .ok (later, read)) :
    read.entries = (words.filterMap pragmaOf?).foldl (fun map entry => map.insert entry.1 entry.2) pragmas.entries := by
  induction words generalizing fields pragmas with
  | nil =>
      cases done
      rfl
  | cons word rest ih =>
      obtain ⟨⟨middle, between⟩, here, done⟩ := Outcome.fold_m_cons done
      rw [ih done]
      rcases add_word_cases here with ⟨rfl, _, plain⟩ | ⟨key, value, rfl, absent, _, _, rfl⟩
      · rw [List.filterMap_cons_none (entry_of_plain plain)]
      · rw [List.filterMap_cons_some (entry_of_pragma absent value)]
        rfl

theorem plain_of_fields {words front : List Word} {pragmas : Pragmas} (done : fields words = .ok (front, pragmas)) :
    ∀ word ∈ front, word.head? ≠ some '%' := by
  refine Outcome.fold_m_keeps (fun read => ∀ word ∈ read.1, word.head? ≠ some '%') ?_ (by simp) done
  rintro ⟨before, old⟩ word ⟨later, read⟩ _ kept step
  rcases add_word_cases step with ⟨_, rfl, plain⟩ | ⟨_, _, _, _, _, rfl, _⟩
  · intro other member
    rcases List.mem_append.mp member with member | last
    · exact kept other member
    · rw [List.mem_singleton.mp last]
      exact plain
  · exact kept

theorem get_of_fields {words front : List Word} {pragmas : Pragmas} (done : fields words = .ok (front, pragmas))
    (key : String) :
    pragmas.get? key = (((words.filterMap pragmaOf?).filter (·.1 = key)).getLast?).map (·.2) := by
  rw [Pragmas.get?, entries_of_fold done, SortedMap.get?_fold_insert]
  exact Option.or_none

theorem pragmas_are_read_back :
    (∀ {pragmas : Pragmas}, pragmas.Verbatim → ∀ {front : List Word}, (∀ word ∈ front, word.head? ≠ some '%') →
      fields (front ++ Text.words pragmas.render.toList) = .ok (front, pragmas)) ∧
    ∀ {words front : List Word} {pragmas : Pragmas}, (∀ word ∈ words, Text.Solid word) →
      fields words = .ok (front, pragmas) →
        fields (Text.words pragmas.render.toList) = .ok ([], pragmas) ∧
        fields (front ++ Text.words pragmas.render.toList) = .ok (front, pragmas) ∧ pragmas.Verbatim ∧
        ∀ key, pragmas.get? key = (((words.filterMap pragmaOf?).filter (·.1 = key)).getLast?).map (·.2) := by
  refine ⟨fields_of_render, fun {words front pragmas} solid done => ?_⟩
  have verbatim := verbatim_of_taken (fields_taken solid done)
  refine ⟨?_, fields_of_render verbatim (plain_of_fields done), verbatim, get_of_fields done⟩
  exact fields_of_render verbatim (List.forall_mem_nil _)

-- The second name is a number, and it counts; the other key and its text are signs of the format themselves.
theorem second_name_counts :
    ∃ pragmas, fields ["N".toList, "%na=x".toList, "%%%==\"".toList, "%na=+07".toList] = .ok (["N".toList], pragmas) ∧
      pragmas.get? "na" = some (.int 7) ∧ pragmas.get? "%%" = some (.text "=\"") ∧
      fields (["N".toList] ++ Text.words pragmas.render.toList) = .ok (["N".toList], pragmas) ∧
      fields (["E".toList, [], "0".toList] ++ Text.words pragmas.render.toList) =
        .ok (["E".toList, [], "0".toList], pragmas) := by
  have shown : (fields ["N".toList, "%na=x".toList, "%%%==\"".toList, "%na=+07".toList]).toOption.any
      (fun read => decide (read.1 = ["N".toList])) = true := by
    decide +kernel
  cases done : fields ["N".toList, "%na=x".toList, "%%%==\"".toList, "%na=+07".toList] with
  | error fault =>
      rw [done] at shown
      cases shown
  | ok read =>
      obtain ⟨front, pragmas⟩ := read
      rw [done] at shown
      obtain rfl := of_decide_eq_true shown
      obtain ⟨_, again, verbatim, last⟩ := pragmas_are_read_back.2 (by decide +kernel) done
      refine ⟨pragmas, rfl, (last "na").trans ?_, (last "%%").trans ?_, again, pragmas_are_read_back.1 verbatim ?_⟩ <;>
        decide +kernel

end Record

end Dataflow
