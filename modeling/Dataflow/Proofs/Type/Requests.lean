import Dataflow.Proofs.SortedMap
import Dataflow.Proofs.Type.Listed
import Mathlib.Logic.Relation
set_option autoImplicit false

-- Tables that are only changed by requests: no two types in the list have one signature, so a type
-- that is deleted was the one that is handed out, and keys of pragmas have two characters.
namespace Dataflow

namespace Pragmas

def Sized (pragmas : Pragmas) : Prop :=
  ∀ key value, pragmas.entries.get? key = some value → key.length = 2

theorem sized_empty : Sized .empty :=
  fun _ _ found => by cases found

theorem sized_insert {pragmas : Pragmas} {key : String} {value : PragmaValue} (sized : pragmas.Sized)
    (two : key.length = 2) : Sized ⟨pragmas.entries.insert key value⟩ := by
  intro query other found
  rw [SortedMap.get?_insert] at found
  split at found
  · rename_i same
    rw [same]
    exact two
  · exact sized query other found

theorem sized_erase {pragmas : Pragmas} (key : String) (sized : pragmas.Sized) :
    Sized ⟨pragmas.entries.erase key⟩ := by
  intro query other found
  rw [SortedMap.get?_erase] at found
  split at found
  · cases found
  · exact sized query other found

theorem checked_key {key : String} (checked : checkKey key = .ok ()) : key.length = 2 := by
  unfold checkKey at checked
  split at checked
  · assumption
  · cases checked

theorem sized_set {pragmas changed : Pragmas} {key : String} {value : PragmaValue} (sized : pragmas.Sized)
    (done : pragmas.set key value = .ok changed) : changed.Sized := by
  obtain ⟨_, checked, done⟩ := Outcome.bind_ok done
  cases done
  exact sized_insert sized (checked_key checked)

theorem sized_remove {pragmas changed : Pragmas} {key : String} {removed : Option PragmaValue}
    (sized : pragmas.Sized) (done : pragmas.remove key = .ok (removed, changed)) : changed.Sized := by
  obtain ⟨_, _, done⟩ := Outcome.bind_ok done
  cases done
  exact sized_erase key sized

theorem sized_name {pragmas : Pragmas} (sized : pragmas.Sized) (name : Option String) :
    (pragmas.setName name).Sized := by
  cases name with
  | none => exact sized_erase _ sized
  | some name => exact sized_insert sized (by decide)

end Pragmas

namespace TypeTable
open Edit

structure Neat (table : TypeTable) : Prop where
  regular : table.Regular
  distinct : ∀ {first second signature}, first ∈ table.order → second ∈ table.order →
    table.signature? first = some signature → table.signature? second = some signature → first = second
  sized : ∀ {id : TypeId} {definition : TypeDef}, table.arena[id]? = some definition → definition.pragmas.Sized

/-! ### Interning -/

theorem neat_interned {table : TypeTable} {signature : Signature} (neat : table.Neat)
    (live : ∀ reference ∈ signature.references, reference ∈ table.order)
    (missing : table.index.lookup signature = none) : (interned signature table).Neat := by
  have regular := neat.regular
  have old : ∀ {id other}, id ∈ table.order → (interned signature table).signature? id = some other →
      table.signature? id = some other := by
    intro id other member found
    rw [signature_interned, if_neg (Nat.ne_of_lt (regular.bounded id member))] at found
    exact found
  have new : ∀ {other}, (interned signature table).signature? table.arena.size = some other → other = signature := by
    intro other found
    rw [signature_interned, if_pos rfl] at found
    exact (Option.some.inj found).symm
  refine ⟨regular_interned regular missing fun reference member => regular.bounded _ (live reference member), ?_, ?_⟩
  · intro first second other inFirst inSecond found foundToo
    rcases mem_order_interned.mp inFirst with inFirst | rfl <;>
      rcases mem_order_interned.mp inSecond with inSecond | rfl
    · exact neat.distinct inFirst inSecond (old inFirst found) (old inSecond foundToo)
    · rw [new foundToo] at found
      exact absurd (old inFirst found) (absent_of_lookup regular missing inFirst)
    · rw [new found] at foundToo
      exact absurd (old inSecond foundToo) (absent_of_lookup regular missing inSecond)
    · rfl
  · intro id definition found
    rw [arena_interned] at found
    split at found
    · cases found
      exact Pragmas.sized_empty
    · exact neat.sized found

theorem unchanged_require (type : Option TypeId) (table : TypeTable) : (requireLive type).after table = table := by
  cases type with
  | none => rfl
  | some id =>
      cases found : table.find id with
      | ok definition =>
          exact after_of_ok ((bind_query_of_ok (by exact found)).trans rfl)
      | error error => exact after_of_error (bind_query_of_error (by exact found))

theorem intact_add (code : TypeCode) (first second : Option TypeId) : Intact (add code first second : Change TypeId) :=
  fun _ _ _ refused => (add_error refused).1

/-! ### Pragmas -/

theorem regular_modify {change : Pragmas → Pragmas} {id : TypeId} {table : TypeTable} (regular : table.Regular) :
    (modifyPragmas change id table).Regular := by
  have size : (modifyPragmas change id table).arena.size = table.arena.size := by simp [modifyPragmas]
  obtain ⟨rank, downwards⟩ := regular.grounded
  refine ⟨?_, regular.once, ?_, ?_, rank, ?_⟩
  · intro query member
    rw [size]
    exact regular.bounded query member
  · intro signature
    simp only [signature_modify]
    exact regular.canonical signature
  · intro query signature found
    rw [signature_modify] at found
    rw [size]
    exact regular.inside found
  · intro query signature found
    rw [signature_modify] at found
    exact downwards found

theorem neat_modify (change : Pragmas → Pragmas) {id : TypeId} {table : TypeTable} (neat : table.Neat)
    (sized : ∀ {definition}, table.arena[id]? = some definition → (change definition.pragmas).Sized) :
    (modifyPragmas change id table).Neat := by
  refine ⟨regular_modify neat.regular, ?_, ?_⟩
  · intro first second signature inFirst inSecond found foundToo
    rw [signature_modify] at found foundToo
    exact neat.distinct inFirst inSecond found foundToo
  · intro query definition found
    rw [arena_modify] at found
    split at found
    · rename_i same
      obtain ⟨old, here, rfl⟩ := Option.map_eq_some_iff.mp found
      exact sized (by rw [← same]; exact here)
    · exact neat.sized found

/-! ### Additions -/

-- What a request other than a deletion does to the types, again and again.
inductive Addition (table : TypeTable) : TypeTable → Prop
  | type {signature : Signature} (live : ∀ reference ∈ signature.references, reference ∈ table.order)
      (missing : table.index.lookup signature = none) : Addition table (interned signature table)
  | pragmas {id : TypeId} {change : Pragmas → Pragmas}
      (sized : ∀ {definition}, table.arena[id]? = some definition → definition.pragmas.Sized →
        (change definition.pragmas).Sized) : Addition table (modifyPragmas change id table)

abbrev Added : TypeTable → TypeTable → Prop :=
  Relation.ReflTransGen Addition

abbrev AddEdit {α : Type} (change : Change α) : Prop :=
  Moves Added change

theorem neat_added {table changed : TypeTable} (added : Added table changed) (neat : table.Neat) : changed.Neat := by
  induction added with
  | refl => exact neat
  | tail _ addition ih =>
      cases addition with
      | type live missing => exact neat_interned ih live missing
      | pragmas sized => exact neat_modify _ ih fun found => sized found (ih.sized found)

theorem added_refl (table : TypeTable) : Added table table := .refl

theorem added_trans (first second third : TypeTable) (here : Added first second) (later : Added second third) :
    Added first third := here.trans later

theorem added_bind {α β : Type} {first : Change α} {next : α → Change β} (here : AddEdit first)
    (later : ∀ value, AddEdit (next value)) : AddEdit (first >>= next) :=
  moves_bind added_trans here later

theorem added_pure {α : Type} (value : α) : AddEdit (pure value) :=
  moves_pure added_refl value

theorem added_intern {table : TypeTable} {signature : Signature}
    (live : ∀ reference ∈ signature.references, reference ∈ table.order) :
    Added table ((internType signature).after table) := by
  rw [after_of_ok (intern_type_run signature table)]
  rcases intern_cases table signature with ⟨_, _, same⟩ | ⟨missing, same⟩
  · rw [same]
  · rw [same]
    exact .single (.type live missing)

-- What is asked for is interned, or nothing changes.
theorem added_add (code : TypeCode) (first second : Option TypeId) : AddEdit (add code first second) := by
  intro table
  refine related_of_intact (intact_add code first second) .refl fun id changed done => ?_
  obtain ⟨signature, _, live, interning⟩ := live_of_parameters done
  rw [← after_of_ok interning]
  exact added_intern live

theorem added_basic (kind : BasicKind) : AddEdit (addBasic kind) :=
  fun _ => added_intern fun _ member => by cases member

theorem added_require (type : Option TypeId) : AddEdit (requireLive type) :=
  moves_of_unchanged added_refl (unchanged_require type)

theorem added_new_name (id : TypeId) (name : Option String) :
    AddEdit (modify (modifyPragmas (·.setName name) id) : Change PUnit) :=
  moves_modify fun _ => .single (.pragmas fun _ sized => Pragmas.sized_name sized name)

theorem added_name (id : TypeId) (name : Option String) : AddEdit (setName id name) :=
  added_bind (moves_query added_refl _) fun _ => added_new_name id name

theorem added_set_pragma (id : TypeId) (key : String) (value : PragmaValue) : AddEdit (setPragma id key value) := by
  refine moves_found added_refl fun {table definition} found => ?_
  obtain ⟨_, here⟩ := get_eq_some_iff.mp (find_ok_iff.mp found)
  cases changing : definition.pragmas.set key value with
  | error error => exact .refl
  | ok pragmas =>
      change Added table (modifyPragmas (fun _ => pragmas) id table)
      refine .single (.pragmas fun {old} there sized => Pragmas.sized_set ?_ changing)
      rw [here] at there
      cases there
      exact sized

theorem added_remove_pragma (id : TypeId) (key : String) : AddEdit (removePragma id key) := by
  refine moves_found added_refl fun {table definition} found => ?_
  obtain ⟨_, here⟩ := get_eq_some_iff.mp (find_ok_iff.mp found)
  cases changing : definition.pragmas.remove key with
  | error error => exact .refl
  | ok pair =>
      change Added table (modifyPragmas (fun _ => pair.2) id table)
      refine .single (.pragmas fun {old} there sized => Pragmas.sized_remove ?_ changing)
      rw [here] at there
      cases there
      exact sized

theorem added_links (code : TypeCode) (elements : List (TypeId × Option String)) : AddEdit (addLinks code elements) := by
  induction elements with
  | nil => exact added_pure none
  | cons entry rest ih =>
      obtain ⟨element, name⟩ := entry
      refine added_bind ih fun tail => added_bind (added_add code _ tail) fun link => ?_
      by_cases named : name.isSome = true
      · simp only [named, if_true]
        exact added_bind (added_new_name link name) fun _ => added_pure _
      · simp only [named]
        exact added_bind (added_pure _) fun _ => added_pure _

theorem added_chain (types : List TypeId) (code : TypeCode) (names : Option (List String)) :
    AddEdit (addChain types code names) := by
  unfold addChain
  split
  · cases names with
    | none => exact added_links code _
    | some names =>
        dsimp only
        split
        · exact added_links code _
        · exact moves_throw added_refl _
  · exact moves_throw added_refl _

/-! ### Deletions -/

theorem lookup_filter (index : List (Signature × TypeId)) (signature other : Signature) :
    (index.filter (·.1 ≠ signature)).lookup other = if other = signature then none else index.lookup other := by
  induction index with
  | nil => simp
  | cons entry rest ih =>
      obtain ⟨first, id⟩ := entry
      rw [List.filter_cons]
      by_cases own : first = signature
      · subst own
        simp only [ne_eq, not_true_eq_false, decide_false, Bool.false_eq_true, if_false]
        rw [ih, lookup_cons]
        split <;> simp_all
      · simp only [ne_eq, own, not_false_eq_true, decide_true, if_true]
        rw [lookup_cons, lookup_cons, ih]
        by_cases here : other = first
        · subst here
          simp [own]
        · simp [here]

-- The only type with a signature is the one that is handed out for it.
theorem lookup_of_live {table : TypeTable} (neat : table.Neat) {id : TypeId} {signature : Signature}
    (member : id ∈ table.order) (found : table.signature? id = some signature) :
    table.index.lookup signature = some id := by
  cases known : table.index.lookup signature with
  | none => exact absurd found (absent_of_lookup neat.regular known member)
  | some other =>
      obtain ⟨live, there⟩ := live_of_lookup neat.regular known
      rw [neat.distinct live member there found]

theorem find_erase_other {values : List TypeId} {id : TypeId} {holds : TypeId → Bool} (apart : holds id = false) :
    (values.erase id).find? holds = values.find? holds := by
  induction values with
  | nil => rfl
  | cons value rest ih =>
      by_cases same : value = id
      · subst same
        rw [List.erase_cons_head, List.find?_cons, apart]
      · rw [List.erase_cons_tail (by simpa using same), List.find?_cons, List.find?_cons, ih]

def deleted (id : TypeId) (signature : Signature) (table : TypeTable) : TypeTable :=
  { table with
    order := table.order.erase id
    index := if table.index.lookup signature = some id then table.index.filter (·.1 ≠ signature) else table.index }

theorem delete_run {table : TypeTable} {id : TypeId} {definition : TypeDef} (found : table.get? id = some definition) :
    delete id table = .ok () (deleted id definition.signature table) :=
  (bind_query_of_ok (by exact find_ok_iff.mpr found)).trans rfl

theorem delete_refused {table : TypeTable} {id : TypeId} (missing : table.get? id = none) :
    delete id table = .error (.typeNotFound id) table :=
  bind_query_of_error (by exact find_error missing)

theorem neat_deleted {table : TypeTable} {id : TypeId} {signature : Signature} (neat : table.Neat)
    (member : id ∈ table.order) (found : table.signature? id = some signature) : (deleted id signature table).Neat := by
  have handedOut := lookup_of_live neat member found
  have regular := neat.regular
  have kept : ∀ {query}, query ∈ table.order.erase id → query ∈ table.order := fun inside => List.mem_of_mem_erase inside
  refine ⟨⟨?_, ?_, ?_, regular.inside, regular.grounded⟩, ?_, neat.sized⟩
  · exact fun query inside => regular.bounded query (kept inside)
  · exact regular.once.erase id
  · intro other
    change (deleted id signature table).index.lookup other =
      (table.order.erase id).find? fun query => table.signature? query = some other
    rw [deleted, if_pos handedOut, lookup_filter]
    by_cases same : other = signature
    · subst same
      rw [if_pos rfl, eq_comm, List.find?_eq_none]
      intro query inside holds
      obtain ⟨different, live⟩ := (List.Nodup.mem_erase_iff regular.once).mp inside
      exact different (neat.distinct live member (of_decide_eq_true holds) found)
    · rw [if_neg same, regular.canonical, find_erase_other]
      rw [found]
      exact decide_eq_false fun equal => same (Option.some.inj equal).symm
  · exact fun inFirst inSecond => neat.distinct (kept inFirst) (kept inSecond)

theorem neat_delete {table : TypeTable} (id : TypeId) (neat : table.Neat) : ((delete id).after table).Neat := by
  cases found : table.get? id with
  | none =>
      rw [after_of_error (delete_refused found)]
      exact neat
  | some definition =>
      obtain ⟨member, here⟩ := get_eq_some_iff.mp found
      rw [after_of_ok (delete_run found)]
      refine neat_deleted neat member ?_
      rw [signature?, here]
      rfl

/-! ### Tables to begin with -/

theorem neat_empty : empty.Neat := by
  refine ⟨⟨?_, ?_, ?_, ?_, ⟨fun _ => 0, ?_⟩⟩, ?_, ?_⟩ <;> simp [empty, signature?]

def builtinTypes : List (Signature × String) :=
  (BasicKind.all.map fun kind => (.basic kind, kind.typeName)) ++
    [(.wild, "wild"), (.container .array BasicKind.character.code, "string")]

theorem builtin_eq : builtin = ofList (builtinTypes.map fun entry =>
    ⟨entry.1, Pragmas.empty.setName (some entry.2)⟩) := by
  rfl

theorem builtin_downwards : ∀ entry ∈ builtinTypes.zipIdx, ∀ reference ∈ entry.1.1.references, reference < entry.2 := by
  decide

theorem neat_builtin : builtin.Neat := by
  rw [builtin_eq]
  have place : ∀ {id : TypeId} {definition : TypeDef}, (builtinTypes.map fun entry : Signature × String =>
      (⟨entry.1, Pragmas.empty.setName (some entry.2)⟩ : TypeDef))[id]? = some definition →
      ∃ entry, builtinTypes[id]? = some entry ∧ definition = ⟨entry.1, Pragmas.empty.setName (some entry.2)⟩ := by
    intro id definition found
    rw [List.getElem?_map] at found
    obtain ⟨entry, here, rfl⟩ := Option.map_eq_some_iff.mp found
    exact ⟨entry, here, rfl⟩
  have downwards : ∀ {id : TypeId} {entry : Signature × String}, builtinTypes[id]? = some entry →
      ∀ reference ∈ entry.1.references, reference < id := by
    intro id entry here reference member
    exact builtin_downwards (entry, id) (List.mem_zipIdx_iff_getElem?.mpr here) reference member
  refine ⟨regular_of_list (fun id => id) ?_ ?_, ?_, ?_⟩
  · intro id definition found reference member
    obtain ⟨entry, here, rfl⟩ := place found
    rw [List.length_map]
    exact Nat.lt_trans (downwards here reference member) (List.getElem?_eq_some_iff.mp here).1
  · intro id definition found reference member
    obtain ⟨entry, here, rfl⟩ := place found
    exact downwards here reference member
  · intro first second signature _ _ found foundToo
    rw [signature_of_list] at found foundToo
    obtain ⟨_, here, rfl⟩ := Option.map_eq_some_iff.mp found
    obtain ⟨_, there, same⟩ := Option.map_eq_some_iff.mp foundToo
    obtain ⟨entry, first, rfl⟩ := place here
    obtain ⟨other, second, rfl⟩ := place there
    have once : (builtinTypes.map Prod.fst).Nodup := by decide
    have bound := (List.getElem?_eq_some_iff.mp first).1
    refine (List.getElem?_inj (by rw [List.length_map]; exact bound) once).mp ?_
    rw [List.getElem?_map, List.getElem?_map, first, second]
    exact congrArg some same.symm
  · intro id definition found
    change (List.toArray _)[id]? = _ at found
    rw [List.getElem?_toArray] at found
    obtain ⟨entry, _, rfl⟩ := place found
    exact Pragmas.sized_name Pragmas.sized_empty _

end TypeTable

end Dataflow
