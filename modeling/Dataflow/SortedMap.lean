set_option autoImplicit false

namespace Dataflow

universe u v w

abbrev Ascending {κ : Type u} {α : Type v} [Ord κ] (entries : List (κ × α)) : Prop :=
  entries.Pairwise fun first second => compare first.1 second.1 = .lt

structure SortedMap (κ : Type u) (α : Type v) [Ord κ] where
  entries : List (κ × α)
  ascending : Ascending entries
deriving DecidableEq

namespace SortedMap

variable {κ : Type u} {α : Type v} {β : Type w} [Ord κ]

theorem ext {first second : SortedMap κ α} (same : first.entries = second.entries) :
    first = second := by
  cases first
  cases second
  simp_all

def empty : SortedMap κ α :=
  ⟨[], .nil⟩

instance : EmptyCollection (SortedMap κ α) := ⟨empty⟩
instance : Inhabited (SortedMap κ α) := ⟨empty⟩

def keys (map : SortedMap κ α) : List κ :=
  map.entries.map (·.1)

def size (map : SortedMap κ α) : Nat :=
  map.entries.length

def isEmpty (map : SortedMap κ α) : Bool :=
  map.entries.isEmpty

def get? (map : SortedMap κ α) (key : κ) : Option α :=
  (map.entries.find? fun entry => compare key entry.1 == .eq).map (·.2)

def contains (map : SortedMap κ α) (key : κ) : Bool :=
  (map.get? key).isSome

def lastKey? (map : SortedMap κ α) : Option κ :=
  map.keys.getLast?

def eraseEntry (key : κ) (entries : List (κ × α)) : List (κ × α) :=
  entries.filter fun entry => compare key entry.1 != .eq

def erase (map : SortedMap κ α) (key : κ) : SortedMap κ α :=
  ⟨eraseEntry key map.entries, map.ascending.filter _⟩

def mapValues (f : κ → α → β) (map : SortedMap κ α) : SortedMap κ β :=
  ⟨map.entries.map fun entry => (entry.1, f entry.1 entry.2), by
    exact List.pairwise_map.mpr map.ascending⟩

def insertEntry (key : κ) (value : α) : List (κ × α) → List (κ × α)
  | [] => [(key, value)]
  | (other, kept) :: rest =>
      match compare key other with
      | .lt => (key, value) :: (other, kept) :: rest
      | .eq => (key, value) :: rest
      | .gt => (other, kept) :: insertEntry key value rest

theorem key_of_mem_insertEntry {key : κ} {value : α} {entries : List (κ × α)} {entry : κ × α}
    (found : entry ∈ insertEntry key value entries) : entry.1 = key ∨ entry ∈ entries := by
  induction entries with
  | nil => simp_all [insertEntry]
  | cons head rest ih =>
      obtain ⟨other, kept⟩ := head
      simp only [insertEntry] at found
      split at found <;> simp only [List.mem_cons] at found ⊢
      · rcases found with rfl | found <;> simp_all
      · rcases found with rfl | found <;> simp_all
      · rcases found with rfl | found
        · simp
        · rcases ih found with same | old
          · exact .inl same
          · exact .inr (.inr old)

variable [Std.TransOrd κ] [Std.LawfulEqOrd κ]

theorem ascending_insertEntry (key : κ) (value : α) (entries : List (κ × α))
    (ordered : Ascending entries) : Ascending (insertEntry key value entries) := by
  induction entries with
  | nil => simp [insertEntry, Ascending]
  | cons head rest ih =>
      obtain ⟨other, kept⟩ := head
      have ⟨above, tailOrdered⟩ := List.pairwise_cons.mp ordered
      simp only [insertEntry]
      split
      · rename_i less
        refine List.pairwise_cons.mpr ⟨fun entry found => ?_, ordered⟩
        rcases List.mem_cons.mp found with rfl | found
        · exact less
        · exact Std.TransCmp.lt_trans less (above entry found)
      · rename_i same
        have : key = other := Std.LawfulEqCmp.eq_of_compare same
        subst this
        exact List.pairwise_cons.mpr ⟨above, tailOrdered⟩
      · rename_i greater
        refine List.pairwise_cons.mpr ⟨fun entry found => ?_, ih tailOrdered⟩
        rcases key_of_mem_insertEntry found with same | old
        · simp only [same]
          exact Std.OrientedCmp.lt_of_gt greater
        · exact above entry old

def insert (map : SortedMap κ α) (key : κ) (value : α) : SortedMap κ α :=
  ⟨insertEntry key value map.entries, ascending_insertEntry key value _ map.ascending⟩

def update (map : SortedMap κ α) (key : κ) (initial : α) (change : α → α) : SortedMap κ α :=
  map.insert key (change ((map.get? key).getD initial))

def ofList (entries : List (κ × α)) : SortedMap κ α :=
  entries.foldl (fun map entry => map.insert entry.1 entry.2) empty

variable [DecidableEq κ]

omit [Std.TransOrd κ] in
theorem find?_insertEntry (key : κ) (value : α) (entries : List (κ × α)) (query : κ) :
    (insertEntry key value entries).find? (fun entry => compare query entry.1 == .eq) =
      if query = key then some (key, value)
      else entries.find? (fun entry => compare query entry.1 == .eq) := by
  induction entries with
  | nil =>
      by_cases same : query = key
      · simp [insertEntry, same]
      · simp [insertEntry, same]
  | cons head rest ih =>
      obtain ⟨other, kept⟩ := head
      simp only [insertEntry]
      split
      · by_cases same : query = key <;> simp [List.find?_cons, same]
      · rename_i equal
        have : key = other := Std.LawfulEqCmp.eq_of_compare equal
        subst this
        by_cases same : query = key <;> simp [same]
      · rename_i greater
        rw [List.find?_cons, ih, List.find?_cons]
        by_cases same : query = key
        · subst same
          simp [greater]
        · simp [same]

theorem get?_insert (map : SortedMap κ α) (key : κ) (value : α) (query : κ) :
    (map.insert key value).get? query = if query = key then some value else map.get? query := by
  simp only [get?, insert, find?_insertEntry]
  split <;> rfl

omit [Std.TransOrd κ] in
theorem get?_erase (map : SortedMap κ α) (key query : κ) :
    (map.erase key).get? query = if query = key then none else map.get? query := by
  simp only [get?, erase, eraseEntry, List.find?_filter]
  by_cases same : query = key
  · subst same
    simp
  · simp only [same, if_false]
    congr 2
    funext entry
    by_cases here : query = entry.1
    · have other : key ≠ entry.1 := fun equal => same (here.trans equal.symm)
      simp [here, other]
    · simp [here]

end SortedMap

end Dataflow
