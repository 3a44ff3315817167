import Mathlib.Data.List.TakeDrop
import Dataflow.Proofs.Outcome
import Dataflow.Proofs.SortedMap
import Dataflow.Proofs.Text.Numeral
import Dataflow.Record.Parse
set_option autoImplicit false

-- Pragmas at the end of a record: they are read back as they were written, except that text that
-- reads as an integer comes back as one.
namespace Dataflow

def PragmaValue.reread (value : PragmaValue) : PragmaValue :=
  ofText value.render

namespace Pragmas
open Text (Solid isBlank)

-- Each pragma is written as one word.
structure Wordy (pragmas : Pragmas) : Prop where
  sized : ∀ {key value}, (key, value) ∈ pragmas.entries.entries → key.length = 2
  keys : ∀ {key value}, (key, value) ∈ pragmas.entries.entries → ∀ c ∈ key.toList, isBlank c = false
  values : ∀ {key value}, (key, value) ∈ pragmas.entries.entries →
    ∀ c ∈ value.render.toList, isBlank c = false

-- A word is cut at its first equals sign.
structure Clear (pragmas : Pragmas) : Prop extends Wordy pragmas where
  free : ∀ {key value}, (key, value) ∈ pragmas.entries.entries → '=' ∉ key.toList

structure Plain (pragmas : Pragmas) : Prop extends Clear pragmas where
  stable : ∀ {key value}, (key, value) ∈ pragmas.entries.entries →
    value.reread.render = value.render

def Quoteless (pragmas : Pragmas) : Prop :=
  ∀ {key value}, (key, value) ∈ pragmas.entries.entries →
    '"' ∉ key.toList ∧ '"' ∉ value.render.toList

def normalize (pragmas : Pragmas) : Pragmas :=
  ⟨pragmas.entries.mapValues fun _ value => value.reread⟩

def word (entry : String × PragmaValue) : List Char :=
  '%' :: (entry.1.toList ++ '=' :: entry.2.render.toList)

def words (pragmas : Pragmas) : List (List Char) :=
  pragmas.entries.entries.map word

theorem entries_normalize (pragmas : Pragmas) :
    pragmas.normalize.entries.entries =
      pragmas.entries.entries.map fun entry => (entry.1, entry.2.reread) := rfl

theorem plain_empty : Plain .empty := by
  refine ⟨⟨⟨?_, ?_, ?_⟩, ?_⟩, ?_⟩ <;> (intro key value member; cases member)

theorem quoteless_empty : Quoteless .empty := by
  intro key value member
  cases member

/-! ### Rendering -/

theorem toList_render (pragmas : Pragmas) : pragmas.render.toList = Text.spread pragmas.words := by
  unfold render words Text.spread
  rw [String.toList_join, List.flatMap_map, List.flatMap_map]
  congr 1
  funext entry
  simp [renderEntry, word]

section Written
variable {pragmas : Pragmas}

theorem Wordy.solid (wordy : pragmas.Wordy) : ∀ word ∈ pragmas.words, Solid word := by
  intro word member
  obtain ⟨⟨key, value⟩, inside, rfl⟩ := List.mem_map.mp member
  refine ⟨by simp [Pragmas.word], fun c here => ?_⟩
  simp only [Pragmas.word, List.mem_cons, List.mem_append] at here
  rcases here with rfl | here | rfl | here
  · decide
  · exact wordy.keys inside c here
  · decide
  · exact wordy.values inside c here

theorem Plain.render_normalized (plain : pragmas.Plain) : pragmas.normalize.render = pragmas.render := by
  unfold render
  rw [entries_normalize, List.map_map]
  congr 1
  refine List.map_congr_left ?_
  rintro ⟨key, value⟩ member
  simp [renderEntry, plain.stable member]

end Written

theorem quote_not_mem_words {pragmas : Pragmas} (quoteless : pragmas.Quoteless) :
    '"' ∉ Text.spread pragmas.words := by
  intro member
  obtain ⟨word, inside, here⟩ := List.mem_flatMap.mp member
  obtain ⟨⟨key, value⟩, entry, rfl⟩ := List.mem_map.mp inside
  obtain ⟨keyFree, valueFree⟩ := quoteless entry
  simp [Pragmas.word, keyFree, valueFree] at here

/-! ### Merging -/

theorem mem_merge_fold {producer : Pragmas} {entry : String × PragmaValue} (entries : List (String × PragmaValue))
    {start : SortedMap String PragmaValue}
    (found : entry ∈ (entries.foldl (fun merged (key, value) =>
      if key = nameKey ∧ producer.contains nameKey then merged else merged.insert key value) start).entries) :
    entry ∈ start.entries ∨ entry ∈ entries := by
  induction entries generalizing start with
  | nil => exact .inl found
  | cons head rest ih =>
      obtain ⟨key, value⟩ := head
      rw [List.foldl_cons] at found
      rcases ih found with before | later
      · replace before : entry ∈ (if key = nameKey ∧ producer.contains nameKey then start
            else start.insert key value).entries := before
        by_cases named : key = nameKey ∧ producer.contains nameKey
        · rw [if_pos named] at before
          exact .inl before
        · rw [if_neg named] at before
          rcases SortedMap.mem_entries_insert before with here | ⟨_, old⟩
          · exact .inr (by rw [here]; exact List.mem_cons_self)
          · exact .inl old
      · exact .inr (List.mem_cons_of_mem _ later)

theorem mem_merge {producer consumer : Pragmas} {entry : String × PragmaValue}
    (member : entry ∈ (producer.merge consumer).entries.entries) :
    entry ∈ producer.entries.entries ∨ entry ∈ consumer.entries.entries :=
  mem_merge_fold _ member

theorem wordy_merge {producer consumer : Pragmas} (first : producer.Wordy) (second : consumer.Wordy) :
    (producer.merge consumer).Wordy := by
  refine ⟨fun member => ?_, fun member => ?_, fun member => ?_⟩
  · exact (mem_merge member).elim first.sized second.sized
  · exact (mem_merge member).elim first.keys second.keys
  · exact (mem_merge member).elim first.values second.values

theorem plain_merge {producer consumer : Pragmas} (first : producer.Plain) (second : consumer.Plain) :
    (producer.merge consumer).Plain := by
  refine ⟨⟨wordy_merge first.toWordy second.toWordy, fun member => ?_⟩, fun member => ?_⟩
  · exact (mem_merge member).elim first.free second.free
  · exact (mem_merge member).elim first.stable second.stable

-- What is asked of pragmas when records are written: it goes over to the pragmas that are written with wires.
structure Lasting (asked : Pragmas → Prop) : Prop where
  empty : asked .empty
  merge : ∀ {producer consumer}, asked producer → asked consumer → asked (producer.merge consumer)

theorem lasting_wordy : Lasting Wordy :=
  ⟨plain_empty.toWordy, wordy_merge⟩

theorem lasting_plain : Lasting Plain :=
  ⟨plain_empty, plain_merge⟩

theorem empty_merge (consumer : Pragmas) : Pragmas.empty.merge consumer = consumer := by
  have inserted := SortedMap.entries_fold_insert (fun value : PragmaValue => value)
    consumer.entries.ascending .empty (fun _ _ _ member => by cases member)
  unfold merge
  refine congrArg Pragmas.mk (SortedMap.ext ?_)
  have absent : Pragmas.empty.contains nameKey = false := rfl
  simp only [absent, Bool.false_eq_true, and_false, if_false]
  refine Eq.trans inserted ?_
  simp [SortedMap.empty]

end Pragmas

/-! ### Reading -/

namespace Record
open Pragmas

theorem split_first_of_not_mem {separator : Char} {first : Word} (absent : separator ∉ first) (rest : Word) :
    splitFirst separator (first ++ separator :: rest) = some (first, rest) := by
  unfold splitFirst
  have spanned : (first ++ separator :: rest).span (· ≠ separator) = (first, separator :: rest) := by
    rw [List.span_eq_takeWhile_dropWhile]
    have kept : ∀ c ∈ first, decide (c ≠ separator) = true := by
      intro c member
      exact decide_eq_true fun same => absent (same ▸ member)
    rw [List.takeWhile_append_of_pos kept, List.dropWhile_append_of_pos kept]
    simp
  rw [spanned]

theorem split_first_some {separator : Char} {text before after : Word}
    (found : splitFirst separator text = some (before, after)) :
    text = before ++ separator :: after ∧ separator ∉ before := by
  unfold splitFirst at found
  rw [List.span_eq_takeWhile_dropWhile] at found
  cases tail : text.dropWhile (· ≠ separator) with
  | nil =>
      rw [tail] at found
      cases found
  | cons c rest =>
      rw [tail] at found
      cases found
      have whole := @List.takeWhile_append_dropWhile _ (· ≠ separator) text
      have head := List.head?_dropWhile_not (· ≠ separator) text
      rw [tail] at whole head
      have same : c = separator := by simpa using head
      rw [same] at whole
      refine ⟨whole.symm, fun member => ?_⟩
      have kept := List.all_eq_true.mp (@List.all_takeWhile _ (· ≠ separator) text) _ member
      simp at kept

theorem add_field {word : Word} (plain : word.head? ≠ some '%') (before : List Word) :
    addWord (before, .empty) word = .ok (before ++ [word], .empty) := by
  unfold addWord
  split
  · rename_i entry
    simp at plain
  · rfl

theorem add_fields {words : List Word} (plain : ∀ word ∈ words, word.head? ≠ some '%')
    (before : List Word) :
    words.foldlM addWord (before, .empty) = .ok (before ++ words, .empty) := by
  induction words generalizing before with
  | nil => rw [List.append_nil]; rfl
  | cons word rest ih =>
      rw [List.foldlM_cons, Outcome.bind_of_ok (add_field (plain word List.mem_cons_self) before)]
      rw [ih fun other member => plain other (List.mem_cons_of_mem _ member)]
      simp

theorem add_pragma {entry : String × PragmaValue} (sized : entry.1.length = 2)
    (key : '=' ∉ entry.1.toList) (fields : List Word) (pragmas : Pragmas) :
    addWord (fields, pragmas) (Pragmas.word entry) =
      .ok (fields, ⟨pragmas.entries.insert entry.1 entry.2.reread⟩) := by
  have cut := split_first_of_not_mem key entry.2.render.toList
  unfold addWord Pragmas.word
  simp only [cut, String.ofList_toList, Pragmas.set, checkKey, sized, if_true]
  rfl

theorem add_pragmas {pragmas : Pragmas} (clear : pragmas.Clear) (fields : List Word) :
    pragmas.words.foldlM addWord (fields, .empty) = .ok (fields, pragmas.normalize) := by
  have folded : ∀ (entries : List (String × PragmaValue)) (start : Pragmas),
      (∀ entry ∈ entries, entry ∈ pragmas.entries.entries) →
      (entries.map Pragmas.word).foldlM addWord (fields, start) =
        .ok (fields, ⟨entries.foldl (fun map entry => map.insert entry.1 entry.2.reread) start.entries⟩) := by
    intro entries
    induction entries with
    | nil => intro start _; rfl
    | cons entry rest ih =>
        intro start inside
        obtain ⟨key, value⟩ := entry
        have here := inside (key, value) List.mem_cons_self
        have step := @add_pragma (key, value) (clear.sized here) (clear.free here) fields start
        rw [List.map_cons, List.foldlM_cons, Outcome.bind_of_ok step]
        exact ih _ fun other member => inside other (List.mem_cons_of_mem _ member)
  have all := folded pragmas.entries.entries .empty fun _ member => member
  have listed := SortedMap.entries_fold_insert PragmaValue.reread pragmas.entries.ascending .empty
    (fun _ _ _ member => by cases member)
  unfold Pragmas.words
  rw [all]
  refine congrArg (fun read => Except.ok (fields, Pragmas.mk read)) (SortedMap.ext ?_)
  refine Eq.trans listed ?_
  simp [SortedMap.empty, SortedMap.mapValues]

theorem fields_of_words {words : List Word} {pragmas : Pragmas}
    (plain : ∀ word ∈ words, word.head? ≠ some '%') (suffix : pragmas.Clear) :
    fields (words ++ pragmas.words) = .ok (words, pragmas.normalize) := by
  have first := add_fields plain []
  rw [List.nil_append] at first
  unfold fields
  rw [Outcome.fold_m_append first]
  exact add_pragmas suffix words

/-! ### What is read -/

theorem reread_of_text (text : String) : (PragmaValue.ofText text).reread = PragmaValue.ofText text := by
  unfold PragmaValue.reread
  cases found : Text.integer? text.toList with
  | none =>
      have kept : PragmaValue.ofText text = .text text := by
        unfold PragmaValue.ofText
        rw [found]
      rw [kept]
      exact kept
  | some value =>
      have number : PragmaValue.ofText text = .int value := by
        unfold PragmaValue.ofText
        rw [found]
      rw [number]
      unfold PragmaValue.render PragmaValue.ofText
      rw [Text.integer_show]

theorem mem_render_of_text {text : String} {c : Char}
    (member : c ∈ (PragmaValue.ofText text).render.toList) : c ∈ text.toList ∨ c.isDigit ∨ c = '-' := by
  unfold PragmaValue.ofText at member
  split at member
  · rename_i value _
    refine .inr ?_
    rw [PragmaValue.render, Text.toList_show_integer] at member
    split at member
    · exact .inl (Text.digits_are_digits _ c member)
    · rcases List.mem_cons.mp member with rfl | member
      · exact .inr rfl
      · exact .inl (Text.digits_are_digits _ c member)
  · exact .inl member

theorem solid_of_text {text : String} (solid : ∀ c ∈ text.toList, Text.isBlank c = false) :
    ∀ c ∈ (PragmaValue.ofText text).render.toList, Text.isBlank c = false := by
  intro c member
  unfold PragmaValue.ofText at member
  split at member
  · exact (Text.solid_show _).2 c member
  · exact solid c member

-- Pragmas as a record gives them: every value is what its text reads as.
structure Taken (pragmas : Pragmas) : Prop where
  plain : pragmas.Plain
  fixed : ∀ {key value}, (key, value) ∈ pragmas.entries.entries → value.reread = value

theorem taken_empty : Taken .empty :=
  ⟨plain_empty, fun member => by cases member⟩

theorem add_word_cases {word : Word} {fields later : List Word} {pragmas read : Pragmas}
    (done : addWord (fields, pragmas) word = .ok (later, read)) :
    (read = pragmas ∧ later = fields ++ [word] ∧ word.head? ≠ some '%') ∨
      ∃ key value, word = '%' :: (key ++ '=' :: value) ∧ '=' ∉ key ∧ key.length = 2 ∧ later = fields ∧
        read = ⟨pragmas.entries.insert (String.ofList key) (PragmaValue.ofText (String.ofList value))⟩ := by
  unfold addWord at done
  split at done
  · rename_i entry
    cases cut : splitFirst '=' entry with
    | none => simp [cut] at done
    | some parts =>
        obtain ⟨key, value⟩ := parts
        obtain ⟨whole, absent⟩ := split_first_some cut
        simp only [cut, Pragmas.set, checkKey, String.length_ofList] at done
        by_cases sized : key.length = 2
        · rw [if_pos sized] at done
          cases done
          exact .inr ⟨key, value, by rw [whole], absent, sized, rfl, rfl⟩
        · rw [if_neg sized] at done
          cases done
  · rename_i other
    split at done
    · cases done
      refine .inl ⟨rfl, rfl, fun start => ?_⟩
      obtain ⟨rest, same⟩ := List.head?_eq_some_iff.mp start
      exact other rest same
    · cases done

theorem add_word_taken {word : Word} {fields later : List Word} {pragmas read : Pragmas}
    (solid : Text.Solid word) (taken : Taken pragmas)
    (done : addWord (fields, pragmas) word = .ok (later, read)) : Taken read := by
  rcases add_word_cases done with ⟨rfl, _⟩ | ⟨key, value, rfl, absent, sized, _, rfl⟩
  · exact taken
  have keySolid : ∀ c ∈ (String.ofList key).toList, Text.isBlank c = false := by
    intro c member
    rw [String.toList_ofList] at member
    exact solid.2 c (by simp [member])
  have valueSolid : ∀ c ∈ (String.ofList value).toList, Text.isBlank c = false := by
    intro c member
    rw [String.toList_ofList] at member
    exact solid.2 c (by simp [member])
  refine ⟨⟨⟨⟨?_, ?_, ?_⟩, ?_⟩, ?_⟩, ?_⟩
  all_goals
    intro other found member
    rcases SortedMap.mem_entries_insert member with here | ⟨_, old⟩
  · cases here
    rw [String.length_ofList]
    exact sized
  · exact taken.plain.sized old
  · cases here
    exact keySolid
  · exact taken.plain.keys old
  · cases here
    exact solid_of_text valueSolid
  · exact taken.plain.values old
  · cases here
    rw [String.toList_ofList]
    exact absent
  · exact taken.plain.free old
  · cases here
    rw [reread_of_text]
  · exact taken.plain.stable old
  · cases here
    exact reread_of_text _
  · exact taken.fixed old

theorem fields_taken {words fields : List Word} {pragmas : Pragmas}
    (solid : ∀ word ∈ words, Text.Solid word) (done : Record.fields words = .ok (fields, pragmas)) :
    Taken pragmas := by
  refine Outcome.fold_m_keeps (fun read => Taken read.2) ?_ taken_empty done
  rintro ⟨before, old⟩ word ⟨later, read⟩ member taken step
  exact add_word_taken (solid word member) taken step

theorem fields_quoteless {words fields : List Word} {pragmas : Pragmas}
    (quoteless : ∀ word ∈ words, '"' ∉ word) (done : Record.fields words = .ok (fields, pragmas)) :
    pragmas.Quoteless := by
  refine Outcome.fold_m_keeps (fun read => Quoteless read.2) ?_ quoteless_empty done
  rintro ⟨before, old⟩ word ⟨later, read⟩ member kept step
  have free := quoteless word member
  intro other found inside
  rcases add_word_cases step with ⟨rfl, _⟩ | ⟨key, value, rfl, absent, sized, _, rfl⟩
  · exact kept inside
  rcases SortedMap.mem_entries_insert inside with here | ⟨_, old⟩
  · cases here
    refine ⟨fun present => free ?_, fun present => ?_⟩
    · rw [String.toList_ofList] at present
      simp [present]
    · rcases mem_render_of_text present with present | digit | minus
      · rw [String.toList_ofList] at present
        exact free (by simp [present])
      · exact absurd digit (by decide)
      · exact absurd minus (by decide)
  · exact kept old

end Record

end Dataflow
