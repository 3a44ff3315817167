import Mathlib.Data.List.GetD
import Mathlib.Data.Set.Function
import Mathlib.Data.Set.Monotone
import Dataflow.Proofs.Record.Parsed
set_option autoImplicit false

-- Rows of words in which labels of types are written anew. A label may be written in any way that reads as
-- its new number, and all other words stay.
namespace Dataflow.Record

/-! ### Labels that keep their order -/

-- The label 0 stands for no type, and goes on to do so.
structure Relabelling (phi : Nat → Nat) (labels : List Nat) : Prop where
  zero : phi 0 = 0
  ascending : StrictMonoOn phi {label | label ∈ 0 :: labels}

namespace Relabelling
variable {phi : Nat → Nat} {labels : List Nat}

theorem iff_ascending : Relabelling phi labels ↔
    phi 0 = 0 ∧ ∀ first ∈ 0 :: labels, ∀ second ∈ 0 :: labels, first < second → phi first < phi second :=
  ⟨fun relabelling => ⟨relabelling.zero, fun _ known _ knownToo => relabelling.ascending known knownToo⟩,
    fun ⟨zero, ascending⟩ => ⟨zero, fun first known second knownToo => ascending first known second knownToo⟩⟩

instance : Decidable (Relabelling phi labels) :=
  decidable_of_iff _ iff_ascending.symm

theorem of_subset {fewer : List Nat} (relabelling : Relabelling phi labels) (inside : fewer ⊆ labels) :
    Relabelling phi fewer :=
  ⟨relabelling.zero, relabelling.ascending.mono fun _ member => List.cons_subset_cons 0 inside member⟩

theorem eq_iff (relabelling : Relabelling phi labels) {first second : Nat} (known : first ∈ 0 :: labels)
    (knownToo : second ∈ 0 :: labels) : phi first = phi second ↔ first = second :=
  relabelling.ascending.injOn.eq_iff known knownToo

theorem zero_iff (relabelling : Relabelling phi labels) {label : Nat} (known : label ∈ labels) :
    phi label = 0 ↔ label = 0 := by
  rw [← relabelling.eq_iff (List.mem_cons_of_mem 0 known) List.mem_cons_self, relabelling.zero]

theorem label_of (relabelling : Relabelling phi labels) {number : Nat} (known : number ∈ labels) :
    label? (phi number) = (label? number).map phi := by
  unfold label?
  by_cases none : number = 0
  · rw [if_pos none, if_pos ((relabelling.zero_iff known).mpr none)]
    rfl
  · rw [if_neg none, if_neg (mt (relabelling.zero_iff known).mp none)]
    rfl

theorem back (relabelling : Relabelling phi labels) :
    ∃ psi, Relabelling psi (labels.map phi) ∧ ∀ label ∈ 0 :: labels, psi (phi label) = label := by
  have undone : Set.LeftInvOn (Function.invFunOn phi {label | label ∈ 0 :: labels}) phi
      {label | label ∈ 0 :: labels} := relabelling.ascending.injOn.leftInvOn_invFunOn
  refine ⟨_, ⟨?_, ?_⟩, fun label known => undone known⟩
  · have start := undone (show 0 ∈ 0 :: labels from List.mem_cons_self)
    rwa [relabelling.zero] at start
  · have mapped : ∀ label ∈ 0 :: labels.map phi, ∃ old ∈ 0 :: labels, phi old = label := by
      intro label member
      rcases List.mem_cons.mp member with rfl | member
      · exact ⟨0, List.mem_cons_self, relabelling.zero⟩
      · obtain ⟨old, inside, same⟩ := List.mem_map.mp member
        exact ⟨old, List.mem_cons_of_mem 0 inside, same⟩
    intro first member second memberToo less
    obtain ⟨first, known, rfl⟩ := mapped first member
    obtain ⟨second, knownToo, rfl⟩ := mapped second memberToo
    rw [undone known, undone knownToo]
    exact (relabelling.ascending.lt_iff_lt known knownToo).mp less

end Relabelling

/-! ### Rows of words -/

def Respells (phi : Nat → Nat) (label : Bool) (word twin : Word) : Prop :=
  match label, Text.word? word with
  | true, some number => Text.word? twin = some (phi number)
  | _, _ => twin = word

instance (phi : Nat → Nat) (label : Bool) (word twin : Word) : Decidable (Respells phi label word twin) := by
  unfold Respells
  split <;> infer_instance

theorem Respells.symm {phi psi : Nat → Nat} {label : Bool} {word twin : Word} (respells : Respells phi label word twin)
    (undone : label = true → ∀ number, Text.word? word = some number → psi (phi number) = number) :
    Respells psi label twin word := by
  unfold Respells at *
  cases label with
  | false => exact respells.symm
  | true =>
      cases read : Text.word? word with
      | none =>
          rw [read] at respells
          rw [show twin = word from respells, read]
      | some number =>
          rw [read] at respells
          rw [show Text.word? twin = some (phi number) from respells]
          exact congrArg some (undone rfl number read).symm

structure Respelled (phi : Nat → Nat) (isLabel : Nat → Bool) (words twins : List Word) : Prop where
  length : twins.length = words.length
  word : ∀ place < words.length, Respells phi (isLabel place) (words.getD place []) (twins.getD place [])

instance (phi : Nat → Nat) (isLabel : Nat → Bool) (words twins : List Word) :
    Decidable (Respelled phi isLabel words twins) :=
  decidable_of_iff (twins.length = words.length ∧
      ∀ place < words.length, Respells phi (isLabel place) (words.getD place []) (twins.getD place []))
    ⟨fun ⟨length, word⟩ => ⟨length, word⟩, fun ⟨length, word⟩ => ⟨length, word⟩⟩

namespace Respelled
variable {phi : Nat → Nat} {isLabel : Nat → Bool} {words twins : List Word}

theorem at_place (respelled : Respelled phi isLabel words twins) {place : Nat} {word : Word}
    (found : words[place]? = some word) :
    ∃ twin, twins[place]? = some twin ∧ Respells phi (isLabel place) word twin := by
  obtain ⟨inside, rfl⟩ := List.getElem?_eq_some_iff.mp found
  have insideToo : place < twins.length := by rw [respelled.length]; exact inside
  have here := respelled.word place inside
  rw [List.getD_eq_getElem _ _ inside, List.getD_eq_getElem _ _ insideToo] at here
  exact ⟨_, List.getElem?_eq_getElem insideToo, here⟩

theorem missing (respelled : Respelled phi isLabel words twins) {place : Nat} :
    twins[place]? = none ↔ words[place]? = none := by
  rw [List.getElem?_eq_none_iff, List.getElem?_eq_none_iff, respelled.length]

theorem of_places (length : twins.length = words.length)
    (each : ∀ {place word twin}, words[place]? = some word → twins[place]? = some twin →
      Respells phi (isLabel place) word twin) : Respelled phi isLabel words twins := by
  refine ⟨length, fun place inside => ?_⟩
  have insideToo : place < twins.length := by rw [length]; exact inside
  rw [List.getD_eq_getElem _ _ inside, List.getD_eq_getElem _ _ insideToo]
  exact each (List.getElem?_eq_getElem inside) (List.getElem?_eq_getElem insideToo)

theorem unchanged (respelled : Respelled phi isLabel words twins) {place : Nat} (other : isLabel place = false) :
    twins[place]? = words[place]? := by
  cases found : words[place]? with
  | none => exact respelled.missing.mpr found
  | some word =>
      obtain ⟨twin, there, same⟩ := respelled.at_place found
      rw [other] at same
      rw [there, show twin = word from same]

theorem word_at (respelled : Respelled phi isLabel words twins) {place : Nat} (label : isLabel place = true) :
    twins[place]?.bind Text.word? = (words[place]?.bind Text.word?).map phi := by
  cases found : words[place]? with
  | none => rw [respelled.missing.mpr found]; rfl
  | some word =>
      obtain ⟨twin, there, same⟩ := respelled.at_place found
      rw [label] at same
      unfold Respells at same
      rw [there, Option.bind_some, Option.bind_some]
      cases number : Text.word? word with
      | none =>
          rw [number] at same
          rw [show twin = word from same, number]
          rfl
      | some value =>
          rw [number] at same
          exact same

theorem drop (respelled : Respelled phi isLabel words twins) (count : Nat) :
    Respelled phi (fun place => isLabel (count + place)) (words.drop count) (twins.drop count) := by
  refine of_places (by rw [List.length_drop, List.length_drop, respelled.length]) fun {place word twin} found there => ?_
  rw [List.getElem?_drop] at found there
  obtain ⟨other, here, same⟩ := respelled.at_place found
  cases there.symm.trans here
  exact same

theorem take (respelled : Respelled phi isLabel words twins) (count : Nat) :
    Respelled phi isLabel (words.take count) (twins.take count) := by
  refine of_places (by rw [List.length_take, List.length_take, respelled.length]) fun {place word twin} found there => ?_
  rw [List.getElem?_take] at found there
  split at found
  · rename_i inside
    rw [if_pos inside] at there
    obtain ⟨other, here, same⟩ := respelled.at_place found
    cases there.symm.trans here
    exact same
  · cases found

end Respelled

theorem number_ok_iff {field : Field} {word : Option Word} {value : Nat} :
    number field word = .ok value ↔ word.bind Text.word? = some value := by
  cases word with
  | none => simp [number]
  | some word =>
      unfold number
      rw [Option.bind_some]
      cases read : Text.word? word <;> simp [read]

theorem Respelled.number {phi : Nat → Nat} {isLabel : Nat → Bool} {words twins : List Word}
    (respelled : Respelled phi isLabel words twins) {place value : Nat} {field : Field} (label : isLabel place = true)
    (done : number field words[place]? = .ok value) : Record.number field twins[place]? = .ok (phi value) := by
  rw [number_ok_iff] at done ⊢
  rw [respelled.word_at label, done]
  rfl

/-! ### Fields -/

theorem word_of_mark {word : Word} (marked : word.head? = some '%') : Text.word? word = none := by
  cases word with
  | nil => cases marked
  | cons c rest =>
      cases marked
      rfl

theorem nonempty_of_set {pragmas read : Pragmas} {key : String} {value : PragmaValue}
    (done : pragmas.set key value = .ok read) : read.isEmpty = false := by
  obtain ⟨_, _, done⟩ := Outcome.bind_ok done
  cases done
  have found : (pragmas.entries.insert key value).get? key = some value := by
    rw [SortedMap.get?_insert, if_pos rfl]
  exact List.isEmpty_eq_false_iff.mpr (List.ne_nil_of_mem (SortedMap.mem_entries_of_get? found))

theorem add_word_plain {word : Word} (plain : word.head? ≠ some '%') (read : List Word × Pragmas) :
    addWord read word = if read.2.isEmpty then .ok (read.1 ++ [word], read.2)
      else .error (.unexpectedField (String.ofList word)) := by
  unfold addWord
  split
  · exact absurd rfl plain
  · rfl

theorem add_word_marked {word : Word} (marked : word.head? = some '%') {fields later : List Word}
    {pragmas read : Pragmas} (done : addWord (fields, pragmas) word = .ok (later, read)) :
    later = fields ∧ read.isEmpty = false ∧ ∀ other, addWord (other, pragmas) word = .ok (other, read) := by
  unfold addWord at done ⊢
  split at done
  · rename_i entry
    cases cut : splitFirst '=' entry with
    | none => simp [cut] at done
    | some parts =>
        obtain ⟨key, value⟩ := parts
        simp only [cut] at done ⊢
        cases changed : pragmas.set (String.ofList key) (PragmaValue.ofText (String.ofList value)) with
        | error error => simp [changed] at done
        | ok next =>
            simp only [changed, Except.ok.injEq, Prod.mk.injEq] at done ⊢
            obtain ⟨rfl, rfl⟩ := done
            exact ⟨rfl, nonempty_of_set changed, fun _ => ⟨trivial, rfl⟩⟩
  · rename_i plain
    cases word with
    | nil => cases marked
    | cons c rest =>
        cases marked
        exact absurd rfl (plain rest)

-- What a row of words is read as depends on its words only by the pragmas.
def Alike (word twin : Word) : Prop :=
  twin = word ∨ word.head? ≠ some '%' ∧ twin.head? ≠ some '%'

theorem fold_alike {words twins : List Word} (each : List.Forall₂ Alike words twins) {before found : List Word}
    {pragmas last : Pragmas} (beforeToo : List Word)
    (done : words.foldlM addWord (before, pragmas) = .ok (found, last)) :
    ∃ count, (pragmas.isEmpty = false → count = 0) ∧ found = before ++ words.take count ∧
      twins.foldlM addWord (beforeToo, pragmas) = .ok (beforeToo ++ twins.take count, last) := by
  induction each generalizing before beforeToo pragmas with
  | nil =>
      cases done
      exact ⟨0, fun _ => rfl, (List.append_nil _).symm, by rw [List.take_nil, List.append_nil]; rfl⟩
  | @cons word twin words twins alike _ ih =>
      obtain ⟨⟨middle, between⟩, here, later⟩ := Outcome.fold_m_cons done
      rw [List.foldlM_cons]
      by_cases marked : word.head? = some '%'
      · obtain rfl := alike.resolve_right fun plain => plain.1 marked
        obtain ⟨rfl, nonempty, same⟩ := add_word_marked marked here
        obtain ⟨count, none, whole, there⟩ := ih beforeToo later
        obtain rfl := none nonempty
        refine ⟨0, fun _ => rfl, whole, ?_⟩
        rw [Outcome.bind_of_ok (same beforeToo)]
        exact there
      · have plain : twin.head? ≠ some '%' := by
          rcases alike with rfl | both
          · exact marked
          · exact both.2
        rw [add_word_plain marked] at here
        rw [add_word_plain plain]
        cases empty : pragmas.isEmpty with
        | false =>
            rw [empty] at here
            cases here
        | true =>
            rw [empty] at here
            cases here
            obtain ⟨count, _, whole, there⟩ := ih (beforeToo ++ [twin]) later
            refine ⟨count + 1, fun some => (by cases some), ?_, ?_⟩
            · rw [whole, List.append_assoc]
              rfl
            · rw [List.append_assoc] at there
              exact there

theorem alike_of_respells {phi : Nat → Nat} {label : Bool} {word twin : Word} (respells : Respells phi label word twin) :
    Alike word twin := by
  unfold Respells at respells
  split at respells
  · rename_i number read
    refine .inr ⟨fun marked => ?_, fun marked => ?_⟩
    · rw [word_of_mark marked] at read
      cases read
    · rw [word_of_mark marked] at respells
      cases respells
  · exact .inl respells

theorem Respelled.fields {phi : Nat → Nat} {isLabel : Nat → Bool} {words twins found : List Word} {pragmas : Pragmas}
    (respelled : Respelled phi isLabel words twins) (done : Record.fields words = .ok (found, pragmas)) :
    ∃ count, found = words.take count ∧ Record.fields twins = .ok (twins.take count, pragmas) := by
  have each : List.Forall₂ Alike words twins := by
    refine List.forall₂_iff_get.mpr ⟨respelled.length.symm, fun place inside insideToo => ?_⟩
    obtain ⟨twin, there, respells⟩ := respelled.at_place (List.getElem?_eq_getElem inside)
    rw [List.getElem?_eq_getElem insideToo] at there
    cases there
    exact alike_of_respells respells
  obtain ⟨count, _, whole, there⟩ := fold_alike each [] done
  exact ⟨count, whole, there⟩

end Dataflow.Record
