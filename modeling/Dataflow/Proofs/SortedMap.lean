import Mathlib.Data.List.Nodup
import Dataflow.SortedMap
set_option autoImplicit false

-- Maps through their look-ups: what a key holds decides everything a walk over the entries sees.
namespace Dataflow.SortedMap

universe u v w x y
variable {κ : Type u} {α : Type v} {β : Type w} [Ord κ]

@[simp] theorem get?_empty (key : κ) : (empty : SortedMap κ α).get? key = none := rfl

variable [Std.LawfulEqOrd κ]

theorem mem_entries_of_get? {map : SortedMap κ α} {key : κ} {value : α}
    (found : map.get? key = some value) : (key, value) ∈ map.entries := by
  simp only [get?, Option.map_eq_some_iff] at found
  obtain ⟨entry, here, rfl⟩ := found
  have same := List.find?_some here
  have equal : key = entry.1 := Std.LawfulEqCmp.eq_of_compare (eq_of_beq same)
  rw [equal]
  exact List.mem_of_find?_eq_some here

theorem key_lt_irrefl (key : κ) : compare key key ≠ .lt := by simp

theorem nodup_of_ascending {entries : List (κ × α)} (ordered : Ascending entries) : entries.Nodup := by
  refine List.Pairwise.imp ?_ ordered
  intro first second less same
  rw [same] at less
  exact key_lt_irrefl _ less

variable [Std.TransOrd κ]

theorem get?_of_mem_entries {map : SortedMap κ α} {key : κ} {value : α}
    (member : (key, value) ∈ map.entries) : map.get? key = some value := by
  obtain ⟨entries, ordered⟩ := map
  simp only [get?] at *
  induction entries with
  | nil => cases member
  | cons head rest ih =>
      obtain ⟨above, tailOrdered⟩ := List.pairwise_cons.mp ordered
      rcases List.mem_cons.mp member with rfl | later
      · simp
      · have less := above _ later
        have different : (compare key head.1 == .eq) = false := by
          have swapped : compare key head.1 = (compare head.1 key).swap := Std.OrientedCmp.eq_swap
          rw [swapped, less]
          rfl
        rw [List.find?_cons, different]
        exact ih tailOrdered later

theorem get?_eq_some_iff {map : SortedMap κ α} {key : κ} {value : α} :
    map.get? key = some value ↔ (key, value) ∈ map.entries :=
  ⟨mem_entries_of_get?, get?_of_mem_entries⟩

theorem mem_keys_iff {map : SortedMap κ α} {key : κ} :
    key ∈ map.keys ↔ (map.get? key).isSome := by
  simp only [keys, List.mem_map, Option.isSome_iff_exists, get?_eq_some_iff]
  constructor
  · rintro ⟨⟨key, value⟩, member, rfl⟩
    exact ⟨value, member⟩
  · rintro ⟨value, member⟩
    exact ⟨(key, value), member, rfl⟩

@[simp] theorem get?_mapValues (f : κ → α → β) (map : SortedMap κ α) (key : κ) :
    (map.mapValues f).get? key = (map.get? key).map (f key) := by
  cases found : map.get? key with
  | some value =>
      have member := mem_entries_of_get? found
      refine get?_of_mem_entries (List.mem_map.mpr ⟨_, member, rfl⟩)
  | none =>
      cases image : (map.mapValues f).get? key with
      | none => rfl
      | some value =>
          obtain ⟨⟨other, old⟩, member, same⟩ := List.mem_map.mp (mem_entries_of_get? image)
          cases same
          rw [get?_of_mem_entries member] at found
          cases found

theorem lastKey?_of_bound {map : SortedMap κ α} {key : κ} (held : (map.get? key).isSome) :
    ∃ last, map.lastKey? = some last ∧ compare last key ≠ .lt := by
  have member := mem_keys_iff.mpr held
  have nonempty : map.keys ≠ [] := List.ne_nil_of_mem member
  refine ⟨_, List.getLast?_eq_some_getLast nonempty, ?_⟩
  intro less
  have ordered : map.keys.Pairwise fun first second => compare first second = .lt :=
    List.pairwise_map.mpr map.ascending
  rw [← List.dropLast_concat_getLast nonempty] at ordered member
  rcases List.mem_append.mp member with early | last
  · have := (List.pairwise_append.mp ordered).2.2 key early _ (List.mem_singleton.mpr rfl)
    exact key_lt_irrefl _ (Std.TransCmp.lt_trans less this)
  · rw [List.mem_singleton.mp last] at less
    exact key_lt_irrefl _ less

theorem le_last_key {map : SortedMap Nat α} {key : Nat} (held : (map.get? key).isSome) :
    key ≤ map.lastKey?.getD 0 := by
  obtain ⟨last, found, above⟩ := lastKey?_of_bound held
  rw [found]
  exact Nat.le_of_not_lt fun less => above (Nat.compare_eq_lt.mpr less)

theorem last_key_le {map : SortedMap Nat α} {bound : Nat} (below : ∀ {key}, (map.get? key).isSome → key ≤ bound) :
    map.lastKey?.getD 0 ≤ bound := by
  cases found : map.lastKey? with
  | none => exact Nat.zero_le bound
  | some last => exact below (mem_keys_iff.mp (List.mem_of_getLast? found))

theorem last_key_iff {map : SortedMap Nat α} {top : Nat} :
    map.lastKey? = some top ↔ (map.get? top).isSome ∧ ∀ {key}, (map.get? key).isSome → key ≤ top := by
  constructor
  · intro last
    refine ⟨mem_keys_iff.mp (List.mem_of_getLast? last), fun {key} held => ?_⟩
    have below := le_last_key held
    rw [last] at below
    exact below
  · rintro ⟨held, highest⟩
    obtain ⟨last, found, above⟩ := lastKey?_of_bound held
    have top_le : top ≤ last := Nat.le_of_not_lt fun less => above (Nat.compare_eq_lt.mpr less)
    rw [found, Nat.le_antisymm top_le (highest (mem_keys_iff.mp (List.mem_of_getLast? found)))]

variable [DecidableEq κ]

theorem get?_update (map : SortedMap κ α) (key : κ) (initial : α) (change : α → α) (query : κ) :
    (map.update key initial change).get? query =
      if query = key then some (change ((map.get? key).getD initial)) else map.get? query :=
  get?_insert map key _ query

theorem mem_entries_insert {map : SortedMap κ α} {key : κ} {value : α} {entry : κ × α}
    (member : entry ∈ (map.insert key value).entries) :
    entry = (key, value) ∨ entry.1 ≠ key ∧ entry ∈ map.entries := by
  obtain ⟨query, found⟩ := entry
  have look := get?_of_mem_entries member
  rw [get?_insert] at look
  by_cases same : query = key
  · rw [if_pos same] at look
    cases look
    exact .inl (by rw [same])
  · rw [if_neg same] at look
    exact .inr ⟨same, mem_entries_of_get? look⟩

/-! ### Building from ordered entries -/

omit [Std.LawfulEqOrd κ] [DecidableEq κ] in
theorem insert_entry_above {key : κ} {value : α} {entries : List (κ × α)}
    (above : ∀ entry ∈ entries, compare entry.1 key = .lt) :
    insertEntry key value entries = entries ++ [(key, value)] := by
  induction entries with
  | nil => rfl
  | cons head rest ih =>
      obtain ⟨other, kept⟩ := head
      have less : compare other key = .lt := above _ List.mem_cons_self
      have greater : compare key other = .gt := Std.OrientedCmp.gt_of_lt less
      have later := ih fun entry member => above entry (List.mem_cons_of_mem _ member)
      rw [insertEntry, greater, later]
      rfl

-- Inserting entries in ascending order lists them.
omit [DecidableEq κ] in
theorem entries_fold_insert (f : α → β) {entries : List (κ × α)} (ordered : Ascending entries)
    (start : SortedMap κ β) (above : ∀ entry ∈ entries, ∀ old ∈ start.entries, compare old.1 entry.1 = .lt) :
    (entries.foldl (fun map entry => map.insert entry.1 (f entry.2)) start).entries =
      start.entries ++ entries.map fun entry => (entry.1, f entry.2) := by
  induction entries generalizing start with
  | nil => simp
  | cons head rest ih =>
      obtain ⟨less, tailOrdered⟩ := List.pairwise_cons.mp ordered
      have here : (start.insert head.1 (f head.2)).entries = start.entries ++ [(head.1, f head.2)] :=
        insert_entry_above fun old member => above head List.mem_cons_self old member
      rw [List.foldl_cons, ih tailOrdered, here]
      · simp
      · intro entry member old inside
        rw [here] at inside
        rcases List.mem_append.mp inside with inside | last
        · exact above entry (List.mem_cons_of_mem _ member) old inside
        · rw [List.mem_singleton.mp last]
          exact less entry member

theorem mem_keys_of_list {entries : List (κ × α)} {key : κ} :
    key ∈ (ofList entries).keys ↔ key ∈ entries.map (·.1) := by
  have walked : ∀ (start : SortedMap κ α),
      ((entries.foldl (fun map entry => map.insert entry.1 entry.2) start).get? key).isSome ↔
        (start.get? key).isSome ∨ key ∈ entries.map (·.1) := by
    induction entries with
    | nil => simp
    | cons entry rest ih =>
        intro start
        rw [List.foldl_cons, ih, get?_insert]
        by_cases same : key = entry.1
        · simp [same]
        · simp [same]
  rw [mem_keys_iff, ofList, walked]
  simp

/-! ### Walks over the entries -/

def walk {γ : Type x} (pick : κ → α → Option γ) (map : SortedMap κ α) : List (κ × γ) :=
  map.entries.filterMap fun entry => (pick entry.1 entry.2).map (entry.1, ·)

omit [DecidableEq κ] in
theorem mem_walk {γ : Type x} {pick : κ → α → Option γ} {map : SortedMap κ α} {key : κ} {picked : γ} :
    (key, picked) ∈ map.walk pick ↔ (map.get? key).bind (pick key) = some picked := by
  rw [walk, List.mem_filterMap, Option.bind_eq_some_iff]
  constructor
  · rintro ⟨⟨other, value⟩, member, found⟩
    obtain ⟨_, here, same⟩ := Option.map_eq_some_iff.mp found
    cases same
    exact ⟨value, get?_of_mem_entries member, here⟩
  · rintro ⟨value, found, here⟩
    exact ⟨(key, value), mem_entries_of_get? found, by simp [here]⟩

omit [Std.LawfulEqOrd κ] [Std.TransOrd κ] [DecidableEq κ] in
theorem walk_ascending {γ : Type x} (pick : κ → α → Option γ) (map : SortedMap κ α) :
    Ascending (map.walk pick) := by
  refine List.Pairwise.filterMap _ ?_ map.ascending
  intro first second less found here other there
  obtain ⟨_, _, rfl⟩ := Option.map_eq_some_iff.mp here
  obtain ⟨_, _, rfl⟩ := Option.map_eq_some_iff.mp there
  exact less

omit [DecidableEq κ] in
-- What a walk picks out of the entries depends on the look-ups alone.
theorem walk_congr {γ : Type x} {first : SortedMap κ α} {second : SortedMap κ β}
    {f : κ → α → Option γ} {g : κ → β → Option γ}
    (same : ∀ key, (first.get? key).bind (f key) = (second.get? key).bind (g key)) :
    first.walk f = second.walk g := by
  refine List.Perm.eq_of_pairwise ?_ (walk_ascending f first) (walk_ascending g second) ?_
  · intro a b _ _ less greater
    exact absurd (Std.TransCmp.lt_trans less greater) (key_lt_irrefl _)
  · refine (List.perm_ext_iff_of_nodup (nodup_of_ascending (walk_ascending f first))
      (nodup_of_ascending (walk_ascending g second))).mpr ?_
    rintro ⟨key, picked⟩
    rw [mem_walk, mem_walk, same]

omit [Std.LawfulEqOrd κ] [Std.TransOrd κ] [DecidableEq κ] in
theorem walk_values {γ : Type x} (pick : κ → α → Option γ) (map : SortedMap κ α) :
    (map.walk pick).map (·.2) = map.entries.filterMap fun entry => pick entry.1 entry.2 := by
  simp only [walk, List.map_filterMap]
  congr 1
  funext entry
  cases pick entry.1 entry.2 <;> rfl

omit [Std.LawfulEqOrd κ] [Std.TransOrd κ] [DecidableEq κ] in
theorem walk_map {γ : Type x} {δ : Type y} (change : γ → δ) (pick : κ → α → Option γ) (map : SortedMap κ α) :
    (map.walk fun key value => (pick key value).map change).map (·.2) =
      ((map.walk pick).map (·.2)).map change := by
  rw [walk_values, walk_values, List.map_filterMap]

/-! ### Building from entries in any order -/

theorem get?_fold_insert (entries : List (κ × α)) (start : SortedMap κ α) (key : κ) :
    (entries.foldl (fun map entry => map.insert entry.1 entry.2) start).get? key =
      ((entries.filter (·.1 = key)).getLast?.map (·.2)).or (start.get? key) := by
  induction entries generalizing start with
  | nil => rfl
  | cons entry rest ih =>
      rw [List.foldl_cons, ih, get?_insert]
      by_cases same : entry.1 = key
      · rw [List.filter_cons_of_pos (by simpa using same), if_pos same.symm, List.getLast?_cons]
        cases (rest.filter (·.1 = key)).getLast? <;> rfl
      · rw [List.filter_cons_of_neg (by simpa using same), if_neg (Ne.symm same)]

omit [DecidableEq κ] in
theorem ext_get? {first second : SortedMap κ α} (same : ∀ key, first.get? key = second.get? key) :
    first = second := by
  have listed : ∀ map : SortedMap κ α, map.walk (fun _ value => some value) = map.entries :=
    fun map => List.filterMap_some
  refine ext ?_
  rw [← listed first, ← listed second]
  exact walk_congr fun key => by rw [same]

theorem update_twice (map : SortedMap κ α) (key : κ) (initial : α) (first second : α → α) :
    (map.update key initial first).update key initial second = map.update key initial (second ∘ first) := by
  refine ext_get? fun query => ?_
  simp only [get?_update]
  split <;> simp

-- For each key, only the entries of this key count.
theorem of_list_congr {first second : List (κ × α)}
    (same : ∀ key, first.filter (·.1 = key) = second.filter (·.1 = key)) : ofList first = ofList second := by
  refine ext_get? fun key => ?_
  unfold ofList
  rw [get?_fold_insert, get?_fold_insert, same]

omit [Ord κ] [Std.LawfulEqOrd κ] [Std.TransOrd κ] in
theorem entries_of_key {entries : List (κ × α)} (once : (entries.map (·.1)).Nodup) (key : κ) :
    (entries.filter (·.1 = key)).length ≤ 1 := by
  have keys : (entries.filter (·.1 = key)).map (·.1) = List.replicate (entries.filter (·.1 = key)).length key := by
    refine List.eq_replicate_iff.mpr ⟨List.length_map _, fun other member => ?_⟩
    obtain ⟨entry, inside, rfl⟩ := List.mem_map.mp member
    exact of_decide_eq_true (List.mem_filter.mp inside).2
  have apart : ((entries.filter (·.1 = key)).map (·.1)).Nodup := (List.filter_sublist.map _).nodup once
  rw [keys] at apart
  exact List.nodup_replicate.mp apart

theorem get?_of_list {entries : List (κ × α)} (once : (entries.map (·.1)).Nodup) {key : κ} {value : α} :
    (ofList entries).get? key = some value ↔ (key, value) ∈ entries := by
  have shown : (ofList entries).get? key = (entries.filter (·.1 = key)).getLast?.map (·.2) := by
    unfold ofList
    rw [get?_fold_insert]
    exact Option.or_none
  have last : ∀ {entry}, (entries.filter (·.1 = key)).getLast? = some entry → entry ∈ entries ∧ entry.1 = key := by
    intro entry found
    exact (List.mem_filter.mp (List.mem_of_getLast? found)).imp id of_decide_eq_true
  rw [shown]
  constructor
  · intro found
    obtain ⟨⟨other, _⟩, here, rfl⟩ := Option.map_eq_some_iff.mp found
    obtain ⟨member, rfl⟩ := last here
    exact member
  · intro member
    have here : (key, value) ∈ entries.filter (·.1 = key) := List.mem_filter.mpr ⟨member, decide_eq_true rfl⟩
    have found := List.getLast?_eq_some_getLast (List.ne_nil_of_mem here)
    obtain ⟨there, same⟩ := last found
    rw [found, List.inj_on_of_nodup_map once there member same]
    rfl

theorem of_list_perm {first second : List (κ × α)} (perm : first.Perm second) (once : (first.map (·.1)).Nodup) :
    ofList first = ofList second := by
  have short : ∀ {here there : List (κ × α)}, here.Perm there → here.length ≤ 1 → here = there := by
    intro here there permuted single
    match here, single with
    | [], _ => exact (List.nil_perm.mp permuted).symm
    | [entry], _ => exact List.singleton_perm.mp permuted
  exact of_list_congr fun key => short (perm.filter _) (entries_of_key once key)

end Dataflow.SortedMap
