import Dataflow.Proofs.Record.Parts
set_option autoImplicit false

-- Types and pragmas of the module may stand anywhere: what the lines of a text give, put together, depends
-- on their order only among the records that are read in order and among the pragmas of one key.
namespace Dataflow.Module.Read
open Record (Word)

-- A record of a function, which counts by its place among the others.
def inOrder (line : Word) : Bool :=
  (pragmaText? line).isNone && (kind? ((Text.words line).headD [])).isSome

def pragmaKey? (line : Word) : Option Char :=
  (pragmaText? line).bind fun text => (Text.trimLeft text).head?

structure Shuffled (first second : List Word) : Prop where
  lines : first.Perm second
  body : first.filter inOrder = second.filter inOrder
  pragmas : ∀ key, first.filter (pragmaKey? · = some key) = second.filter (pragmaKey? · = some key)

theorem Shuffled.symm {first second : List Word} (shuffled : Shuffled first second) : Shuffled second first :=
  ⟨shuffled.lines.symm, shuffled.body.symm, fun key => (shuffled.pragmas key).symm⟩

theorem shuffled_iff {first second : List Word} : Shuffled first second ↔
    first.Perm second ∧ first.filter inOrder = second.filter inOrder ∧ ∀ key ∈ first.filterMap pragmaKey?,
      first.filter (pragmaKey? · = some key) = second.filter (pragmaKey? · = some key) := by
  refine ⟨fun shuffled => ⟨shuffled.lines, shuffled.body, fun key _ => shuffled.pragmas key⟩, ?_⟩
  rintro ⟨lines, body, pragmas⟩
  refine ⟨lines, body, fun key => ?_⟩
  by_cases used : key ∈ first.filterMap pragmaKey?
  · exact pragmas key used
  · have unused : first.filter (pragmaKey? · = some key) = [] := by
      refine List.filter_eq_nil_iff.mpr fun line member keyed => used ?_
      exact List.mem_filterMap.mpr ⟨line, member, of_decide_eq_true keyed⟩
    have same := lines.filter (pragmaKey? · = some key)
    rw [unused] at same ⊢
    exact (List.nil_perm.mp same).symm

-- Goes through the keys that are used, not through all characters there are.
instance (first second : List Word) : Decidable (Shuffled first second) :=
  @decidable_of_iff _ _ shuffled_iff.symm
    (@instDecidableAnd _ _ _ (@instDecidableAnd _ _ _ (List.decidableBAll _ _)))

def part? (line : Word) : Option Part :=
  (part line).toOption

/-! ### What is left out of a walk -/

theorem filter_map_filter {α β : Type} {pick : α → Option β} (kept : α → Bool)
    (only : ∀ value result, pick value = some result → kept value = true) (values : List α) :
    (values.filter kept).filterMap pick = values.filterMap pick := by
  rw [List.filterMap_filter]
  refine List.filterMap_congr fun value _ => ?_
  split
  · rfl
  · rename_i dropped
    cases found : pick value with
    | none => rfl
    | some result => exact absurd (only value result found) dropped

theorem part_some_iff {line : Word} {found : Part} : part? line = some found ↔ Gives line found :=
  Outcome.mem_to_option.trans part_ok_iff

theorem part_of_body {line : Word} {entry : Kind × Word} (found : (part? line).bind Part.body? = some entry) :
    inOrder line = true := by
  obtain ⟨other, here, body⟩ := Option.bind_eq_some_iff.mp found
  cases part_some_iff.mp here with
  | body plain known =>
      unfold inOrder
      rw [plain, known]
      rfl
  | type | pragma => cases body

theorem part_of_pragma {line : Word} {entry : Char × String} (found : (part? line).bind Part.pragma? = some entry) :
    pragmaKey? line = some entry.1 := by
  obtain ⟨other, here, pragma⟩ := Option.bind_eq_some_iff.mp found
  cases part_some_iff.mp here with
  | pragma marked parsed =>
      cases pragma
      unfold pragmaKey?
      rw [marked]
      unfold Record.parsePragma at parsed
      split at parsed
      · cases parsed
      · rename_i start
        cases parsed
        exact congrArg List.head? start
  | type | body => cases pragma

/-! ### The same document -/

section Same
variable {first second : List Word}

theorem Shuffled.typesOf (shuffled : Shuffled first second) :
    (typesOf (first.filterMap part?)).Perm (typesOf (second.filterMap part?)) :=
  ((shuffled.lines.filterMap part?).filterMap Part.type?).map _

theorem Shuffled.bodies (shuffled : Shuffled first second) :
    (first.filterMap part?).filterMap Part.body? = (second.filterMap part?).filterMap Part.body? := by
  rw [List.filterMap_filterMap, List.filterMap_filterMap, ← filter_map_filter inOrder fun _ _ => part_of_body,
    shuffled.body]
  exact filter_map_filter inOrder (fun _ _ => part_of_body) second

theorem Shuffled.pragmasOf (shuffled : Shuffled first second) (key : Char) :
    ((first.filterMap part?).filterMap Part.pragma?).filter (·.1 = key) =
      ((second.filterMap part?).filterMap Part.pragma?).filter (·.1 = key) := by
  rw [List.filterMap_filterMap, List.filterMap_filterMap, List.filter_filterMap, List.filter_filterMap]
  have keyed : ∀ line entry, (((part? line).bind Part.pragma?).filter (·.1 = key)) = some entry →
      decide (pragmaKey? line = some key) = true := by
    intro line entry found
    obtain ⟨given, same⟩ := Option.filter_eq_some_iff.mp found
    rw [part_of_pragma given, of_decide_eq_true same]
    exact decide_eq_true rfl
  rw [← filter_map_filter _ keyed, shuffled.pragmas]
  exact filter_map_filter _ keyed second

theorem Shuffled.collect (shuffled : Shuffled first second)
    (once : ((Read.typesOf (first.filterMap part?)).map (·.1)).Nodup) :
    Read.collect (first.filterMap part?) = Read.collect (second.filterMap part?) := by
  unfold Read.collect
  rw [SortedMap.of_list_perm shuffled.typesOf once, SortedMap.of_list_congr shuffled.pragmasOf, shuffled.bodies]

end Same

theorem document_shuffled {first second : String}
    (shuffled : Shuffled (Text.lines first.toList) (Text.lines second.toList)) {found : Document}
    (done : document first = .ok found) : document second = .ok found := by
  obtain ⟨parts, read, once, whole⟩ := document_ok_iff.mp done
  obtain ⟨each, rfl⟩ := Outcome.map_m_ok_iff.mp read
  refine document_ok_iff.mpr ⟨_, Outcome.map_m_ok_iff.mpr ⟨?_, rfl⟩, ?_, ?_⟩
  · exact fun line member => each line (shuffled.lines.mem_iff.mpr member)
  · exact (shuffled.typesOf.map (·.1)).nodup_iff.mp once
  · exact (shuffled.collect once).symm.trans whole

theorem of_text_shuffled {first second : String}
    (shuffled : Shuffled (Text.lines first.toList) (Text.lines second.toList)) (m : Module) :
    ofText first = .ok m ↔ ofText second = .ok m := by
  have carried : ∀ {first second : String}, Shuffled (Text.lines first.toList) (Text.lines second.toList) →
      ofText first = .ok m → ofText second = .ok m := by
    intro first second shuffled done
    obtain ⟨found, read, built⟩ := Outcome.bind_ok done
    exact (Outcome.bind_of_ok (document_shuffled shuffled read)).trans built
  exact ⟨carried shuffled, carried shuffled.symm⟩

-- An array comes before the type of its elements, and both after what is in a function.
theorem types_after_function :
    let first := "T 1 1 3\nT 2 0 1\nC$ A one\nC$ B other\nC$ A two\nX 0 \"f\"\nN 1 141\nE 0 1 1 1 2"
    let second := "X 0 \"f\"\nC$ A one\nN 1 141\nE 0 1 1 1 2\nC$ A two\nT 2 0 1\nC$ B other\nT 1 1 3"
    Shuffled (Text.lines first.toList) (Text.lines second.toList) ∧ first ≠ second ∧
      ∀ m, ofText first = .ok m ↔ ofText second = .ok m := by
  intro first second
  have shuffled : Shuffled (Text.lines first.toList) (Text.lines second.toList) := by decide +kernel
  exact ⟨shuffled, by decide, of_text_shuffled shuffled⟩

end Dataflow.Module.Read
