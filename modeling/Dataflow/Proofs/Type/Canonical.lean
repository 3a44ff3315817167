import Mathlib.Algebra.GroupWithZero.Nat
import Dataflow.Proofs.Edit
import Dataflow.Type.Chain
set_option autoImplicit false

-- Tables of types: every id that is handed out for a signature is the first live one with it, and
-- references lead downwards. Interning a type keeps all that is known of the types before it.
namespace Dataflow.TypeTable

def signature? (table : TypeTable) (id : TypeId) : Option Signature :=
  table.arena[id]?.map TypeDef.signature

structure Regular (table : TypeTable) : Prop where
  bounded : ∀ id ∈ table.order, id < table.arena.size
  once : table.order.Nodup
  canonical : ∀ signature, table.index.lookup signature =
    table.order.find? fun id => table.signature? id = some signature
  inside : ∀ {id signature}, table.signature? id = some signature →
    ∀ reference ∈ signature.references, reference < table.arena.size
  grounded : ∃ rank : TypeId → Nat, ∀ {id signature}, table.signature? id = some signature →
    ∀ reference ∈ signature.references, rank reference < rank id

-- What stays true when types are deleted: an id that is handed out is live and has the signature.
structure Reliable (table : TypeTable) : Prop where
  bounded : ∀ id ∈ table.order, id < table.arena.size
  leads : ∀ {signature id}, table.index.lookup signature = some id →
    id ∈ table.order ∧ table.signature? id = some signature
  inside : ∀ {id signature}, table.signature? id = some signature →
    ∀ reference ∈ signature.references, reference < table.arena.size

-- Live types only refer to live types.
def Closed (table : TypeTable) : Prop :=
  ∀ {id signature}, id ∈ table.order → table.signature? id = some signature →
    ∀ reference ∈ signature.references, reference ∈ table.order

-- The links of a live chain are of one kind.
def Homogeneous (table : TypeTable) : Prop :=
  ∀ {id kind element rest}, id ∈ table.order →
    table.signature? id = some (.link kind element (some rest)) →
      (table.signature? rest).map Signature.code = some kind.code

-- What interning keeps.
structure Grows (table changed : TypeTable) : Prop where
  arena : ∀ id, id < table.arena.size → changed.arena[id]? = table.arena[id]?
  size : table.arena.size ≤ changed.arena.size
  order : ∃ added, changed.order = table.order ++ added ∧ ∀ id ∈ added, table.arena.size ≤ id
  index : ∀ {signature id}, table.index.lookup signature = some id →
    changed.index.lookup signature = some id
  plain : ∀ {id definition}, table.arena.size ≤ id → changed.arena[id]? = some definition →
    definition.pragmas = .empty
  closed : table.Closed → changed.Closed
  homogeneous : table.Homogeneous → changed.Homogeneous

theorem live_iff {table : TypeTable} {id : TypeId} : table.isLive id = true ↔ id ∈ table.order := by
  simp [isLive]

theorem get_eq_some_iff {table : TypeTable} {id : TypeId} {definition : TypeDef} :
    table.get? id = some definition ↔ id ∈ table.order ∧ table.arena[id]? = some definition := by
  unfold get?
  by_cases live : table.isLive id = true
  · simp [live, live_iff.mp live]
  · have absent : id ∉ table.order := fun member => live (live_iff.mpr member)
    simp [live, absent]

theorem find_ok_iff {table : TypeTable} {type : TypeId} {definition : TypeDef} :
    table.find type = .ok definition ↔ table.get? type = some definition := by
  unfold find
  cases table.get? type <;> simp

theorem find_error {table : TypeTable} {type : TypeId} (missing : table.get? type = none) :
    table.find type = .error (.typeNotFound type) := by
  unfold find
  rw [missing]

namespace Grows

variable {table changed third : TypeTable}

theorem refl (table : TypeTable) : Grows table table :=
  ⟨fun _ _ => rfl, Nat.le_refl _, ⟨[], by simp, by simp⟩, fun found => found, by
    intro id definition beyond found
    have inside := (Array.getElem?_eq_some_iff.mp found).1
    omega, id, id⟩

theorem trans (here : Grows table changed) (later : Grows changed third) : Grows table third := by
  have grown := here.size
  refine ⟨?_, Nat.le_trans grown later.size, ?_, fun found => later.index (here.index found), ?_,
    later.closed ∘ here.closed, later.homogeneous ∘ here.homogeneous⟩
  · intro id inside
    rw [later.arena id (by omega), here.arena id inside]
  · obtain ⟨first, same, above⟩ := here.order
    obtain ⟨second, sameToo, aboveToo⟩ := later.order
    refine ⟨first ++ second, by rw [sameToo, same, List.append_assoc], ?_⟩
    intro id member
    rcases List.mem_append.mp member with member | member
    · exact above id member
    · exact Nat.le_trans grown (aboveToo id member)
  · intro id definition beyond found
    by_cases inside : id < changed.arena.size
    · rw [later.arena id inside] at found
      exact here.plain beyond found
    · exact later.plain (by omega) found

theorem live (grows : Grows table changed) {id : TypeId} (member : id ∈ table.order) :
    id ∈ changed.order := by
  obtain ⟨added, same, _⟩ := grows.order
  rw [same]
  exact List.mem_append_left _ member

theorem get (grows : Grows table changed) {id : TypeId} {definition : TypeDef}
    (found : table.get? id = some definition) : changed.get? id = some definition := by
  obtain ⟨member, here⟩ := get_eq_some_iff.mp found
  have inside := (Array.getElem?_eq_some_iff.mp here).1
  exact get_eq_some_iff.mpr ⟨grows.live member, by rw [grows.arena id inside]; exact here⟩

end Grows

/-! ### Interning -/

theorem find_congr {α : Type} {first second : α → Bool} {values : List α}
    (same : ∀ value ∈ values, first value = second value) : values.find? first = values.find? second := by
  induction values with
  | nil => rfl
  | cons value rest ih =>
      have later := ih fun other member => same other (List.mem_cons_of_mem _ member)
      rw [List.find?_cons, List.find?_cons, same value List.mem_cons_self, later]

theorem le_sum_of_mem (rank : Nat → Nat) {number : Nat} {numbers : List Nat} (member : number ∈ numbers) :
    rank number ≤ (numbers.map rank).sum := by
  induction numbers with
  | nil => cases member
  | cons other rest ih =>
      rw [List.map_cons, List.sum_cons]
      rcases List.mem_cons.mp member with rfl | member
      · omega
      · have := ih member
        omega

def interned (signature : Signature) (table : TypeTable) : TypeTable :=
  { arena := table.arena.push ⟨signature, .empty⟩
    order := table.order ++ [table.arena.size]
    index := (signature, table.arena.size) :: table.index }

theorem intern_cases (table : TypeTable) (signature : Signature) :
    (∃ id, table.index.lookup signature = some id ∧ table.intern signature = (id, table)) ∨
      table.index.lookup signature = none ∧
        table.intern signature = (table.arena.size, interned signature table) := by
  unfold intern interned
  cases found : table.index.lookup signature with
  | some id => exact .inl ⟨id, rfl, rfl⟩
  | none => exact .inr ⟨rfl, rfl⟩

theorem lookup_cons (signature other : Signature) (id : TypeId) (index : List (Signature × TypeId)) :
    List.lookup other ((signature, id) :: index) =
      if other = signature then some id else index.lookup other := by
  rw [List.lookup_cons]
  by_cases same : other = signature
  · simp [same]
  · have different : (other == signature) = false := beq_false_of_ne same
    rw [different, if_neg same]

theorem arena_interned (signature : Signature) (table : TypeTable) (id : TypeId) :
    (interned signature table).arena[id]? =
      if id = table.arena.size then some ⟨signature, .empty⟩ else table.arena[id]? := by
  simp only [interned, Array.getElem?_push]

theorem signature_interned (signature : Signature) (table : TypeTable) (id : TypeId) :
    (interned signature table).signature? id =
      if id = table.arena.size then some signature else table.signature? id := by
  rw [signature?, arena_interned]
  split <;> rfl

theorem signature_lt_size {table : TypeTable} {id : TypeId} {signature : Signature}
    (found : table.signature? id = some signature) : id < table.arena.size := by
  obtain ⟨definition, here, _⟩ := Option.map_eq_some_iff.mp found
  exact (Array.getElem?_eq_some_iff.mp here).1

theorem live_of_lookup {table : TypeTable} (regular : table.Regular) {signature : Signature} {id : TypeId}
    (found : table.index.lookup signature = some id) :
    id ∈ table.order ∧ table.signature? id = some signature := by
  rw [regular.canonical] at found
  have holds := List.find?_some found
  exact ⟨List.mem_of_find?_eq_some found, of_decide_eq_true holds⟩

theorem Regular.reliable {table : TypeTable} (regular : table.Regular) : table.Reliable :=
  ⟨regular.bounded, live_of_lookup regular, regular.inside⟩

theorem Reliable.held {table : TypeTable} (reliable : table.Reliable) {signature : Signature} {id : TypeId}
    (found : table.index.lookup signature = some id) :
    ∃ definition, table.get? id = some definition ∧ definition.signature = signature := by
  obtain ⟨live, here⟩ := reliable.leads found
  obtain ⟨definition, there, same⟩ := Option.map_eq_some_iff.mp here
  exact ⟨definition, get_eq_some_iff.mpr ⟨live, there⟩, same⟩

theorem Reliable.live {table : TypeTable} (reliable : table.Reliable) {id : TypeId} (member : id ∈ table.order) :
    ∃ definition, table.get? id = some definition :=
  ⟨_, get_eq_some_iff.mpr ⟨member, Array.getElem?_eq_getElem (reliable.bounded id member)⟩⟩

theorem absent_of_lookup {table : TypeTable} (regular : table.Regular) {signature : Signature}
    (missing : table.index.lookup signature = none) {id : TypeId} (member : id ∈ table.order) :
    table.signature? id ≠ some signature := by
  rw [regular.canonical, List.find?_eq_none] at missing
  intro same
  exact missing id member (decide_eq_true same)

theorem mem_order_interned {signature : Signature} {table : TypeTable} {id : TypeId} :
    id ∈ (interned signature table).order ↔ id ∈ table.order ∨ id = table.arena.size := by
  simp [interned]

theorem closed_interned {table : TypeTable} {signature : Signature} (reliable : table.Reliable)
    (live : ∀ reference ∈ signature.references, reference ∈ table.order) (closed : table.Closed) :
    (interned signature table).Closed := by
  intro id other member found reference inside
  rw [signature_interned] at found
  refine mem_order_interned.mpr (.inl ?_)
  rcases mem_order_interned.mp member with old | rfl
  · rw [if_neg (Nat.ne_of_lt (reliable.bounded id old))] at found
    exact closed old found reference inside
  · rw [if_pos rfl] at found
    cases found
    exact live reference inside

-- What a new link leads to is a link of its kind.
def Continues (table : TypeTable) (signature : Signature) : Prop :=
  ∀ {kind element rest}, signature = .link kind element (some rest) →
    (table.signature? rest).map Signature.code = some kind.code

theorem homogeneous_interned {table : TypeTable} {signature : Signature} (reliable : table.Reliable)
    (known : ∀ reference ∈ signature.references, reference < table.arena.size)
    (continues : table.Continues signature) (homogeneous : table.Homogeneous) :
    (interned signature table).Homogeneous := by
  intro id kind element rest member found
  rw [signature_interned] at found
  rcases mem_order_interned.mp member with old | rfl
  · rw [if_neg (Nat.ne_of_lt (reliable.bounded id old))] at found
    have inside := reliable.inside found rest (by simp [Signature.references, Signature.second?])
    rw [signature_interned, if_neg (Nat.ne_of_lt inside)]
    exact homogeneous old found
  · rw [if_pos rfl] at found
    cases found
    have inside := known rest (by simp [Signature.references, Signature.second?])
    rw [signature_interned, if_neg (Nat.ne_of_lt inside)]
    exact continues rfl

theorem grows_interned {table : TypeTable} {signature : Signature} (reliable : table.Reliable)
    (missing : table.index.lookup signature = none)
    (live : ∀ reference ∈ signature.references, reference ∈ table.order)
    (continues : table.Continues signature) : Grows table (interned signature table) := by
  have size : (interned signature table).arena.size = table.arena.size + 1 := by simp [interned]
  have known := fun reference member => reliable.bounded reference (live reference member)
  refine ⟨?_, by omega, ⟨[table.arena.size], rfl, by simp⟩, ?_, ?_, closed_interned reliable live,
    homogeneous_interned reliable known continues⟩
  · intro id inside
    rw [arena_interned, if_neg (Nat.ne_of_lt inside)]
  · intro other id found
    change List.lookup other ((signature, table.arena.size) :: table.index) = some id
    rw [lookup_cons, if_neg, found]
    rintro rfl
    rw [missing] at found
    cases found
  · intro id definition beyond found
    rw [arena_interned] at found
    split at found
    · cases found
      rfl
    · have inside := (Array.getElem?_eq_some_iff.mp found).1
      omega

theorem reliable_interned {table : TypeTable} {signature : Signature} (reliable : table.Reliable)
    (known : ∀ reference ∈ signature.references, reference < table.arena.size) :
    (interned signature table).Reliable := by
  have size : (interned signature table).arena.size = table.arena.size + 1 := by simp [interned]
  refine ⟨?_, ?_, ?_⟩
  · intro id member
    rw [size]
    rcases mem_order_interned.mp member with old | rfl
    · exact Nat.lt_succ_of_lt (reliable.bounded id old)
    · exact Nat.lt_succ_self _
  · intro other id found
    change List.lookup other ((signature, table.arena.size) :: table.index) = some id at found
    rw [lookup_cons] at found
    rw [signature_interned]
    split at found
    · rename_i same
      cases found
      exact ⟨mem_order_interned.mpr (.inr rfl), by rw [if_pos rfl, same]⟩
    · obtain ⟨live, there⟩ := reliable.leads found
      rw [if_neg (Nat.ne_of_lt (reliable.bounded id live))]
      exact ⟨mem_order_interned.mpr (.inl live), there⟩
  · intro id other found reference member
    rw [size]
    rw [signature_interned] at found
    split at found
    · cases found
      exact Nat.lt_succ_of_lt (known reference member)
    · exact Nat.lt_succ_of_lt (reliable.inside found reference member)

-- The new type ranks above all that it refers to, and no other type refers to it.
theorem regular_interned {table : TypeTable} {signature : Signature} (regular : table.Regular)
    (missing : table.index.lookup signature = none)
    (known : ∀ reference ∈ signature.references, reference < table.arena.size) :
    (interned signature table).Regular := by
  have size : (interned signature table).arena.size = table.arena.size + 1 := by simp [interned]
  obtain ⟨rank, downwards⟩ := regular.grounded
  refine ⟨?_, ?_, ?_, ?_, ?_⟩
  · intro id member
    rw [size]
    rcases List.mem_append.mp member with member | last
    · exact Nat.lt_succ_of_lt (regular.bounded id member)
    · rw [List.mem_singleton.mp last]
      exact Nat.lt_succ_self _
  · refine List.nodup_append.mpr ⟨regular.once, by simp, ?_⟩
    intro id member other last
    rw [List.mem_singleton.mp last]
    exact Nat.ne_of_lt (regular.bounded id member)
  · intro other
    change List.lookup other ((signature, table.arena.size) :: table.index) =
      (table.order ++ [table.arena.size]).find? _
    have older : table.order.find? (fun id => (interned signature table).signature? id = some other) =
        table.order.find? fun id => table.signature? id = some other := by
      refine find_congr fun id member => ?_
      rw [signature_interned, if_neg (Nat.ne_of_lt (regular.bounded id member))]
    rw [lookup_cons, List.find?_append, older, ← regular.canonical]
    by_cases same : other = signature
    · subst same
      simp [missing, signature_interned]
    · have different : ¬ signature = other := fun equal => same equal.symm
      simp [same, different, signature_interned]
  · intro id other found reference member
    rw [size]
    rw [signature_interned] at found
    split at found
    · cases found
      exact Nat.lt_succ_of_lt (known reference member)
    · exact Nat.lt_succ_of_lt (regular.inside found reference member)
  · refine ⟨fun id => if id = table.arena.size then 1 + (signature.references.map rank).sum else rank id, ?_⟩
    intro id other found reference member
    rw [signature_interned] at found
    have referenceOld : reference ≠ table.arena.size := by
      split at found
      · cases found
        exact Nat.ne_of_lt (known reference member)
      · exact Nat.ne_of_lt (regular.inside found reference member)
    simp only [if_neg referenceOld]
    split at found
    · rename_i new
      cases found
      rw [if_pos new]
      have below := le_sum_of_mem rank member
      omega
    · rename_i old
      rw [if_neg old]
      exact downwards found reference member

/-! ### Requests for types -/

theorem intern_type_run (signature : Signature) (table : TypeTable) :
    internType signature table = .ok (table.intern signature).1 (table.intern signature).2 := rfl

theorem intern_known {table : TypeTable} {signature : Signature} {id : TypeId}
    (found : table.index.lookup signature = some id) : internType signature table = .ok id table := by
  rw [intern_type_run]
  unfold intern
  rw [found]

-- A table that types were interned in.
structure Grown (table changed : TypeTable) : Prop where
  grows : Grows table changed
  reliable : table.Reliable → changed.Reliable
  regular : table.Regular → changed.Regular

theorem Grown.refl (table : TypeTable) : Grown table table :=
  ⟨.refl table, id, id⟩

theorem Grown.trans {table changed third : TypeTable} (here : Grown table changed) (later : Grown changed third) :
    Grown table third :=
  ⟨here.grows.trans later.grows, later.reliable ∘ here.reliable, later.regular ∘ here.regular⟩

structure Interned (table : TypeTable) (signature : Signature) (id : TypeId) (changed : TypeTable) : Prop where
  grown : Grown table changed
  found : changed.index.lookup signature = some id

theorem interned_of_intern {table changed : TypeTable} {signature : Signature} {id : TypeId}
    (reliable : table.Reliable) (live : ∀ reference ∈ signature.references, reference ∈ table.order)
    (continues : table.Continues signature) (done : internType signature table = .ok id changed) :
    Interned table signature id changed := by
  have known := fun reference member => reliable.bounded reference (live reference member)
  rw [intern_type_run] at done
  rcases intern_cases table signature with ⟨old, found, same⟩ | ⟨missing, same⟩
  · rw [same] at done
    cases done
    exact ⟨.refl table, found⟩
  · rw [same] at done
    cases done
    refine ⟨⟨grows_interned reliable missing live continues, fun _ => reliable_interned reliable known,
      fun regular => regular_interned regular missing known⟩, ?_⟩
    change List.lookup signature ((signature, table.arena.size) :: table.index) = _
    rw [lookup_cons, if_pos rfl]

def LiveOption (table : TypeTable) (type : Option TypeId) : Prop :=
  ∀ id, type = some id → id ∈ table.order

theorem require_ok {table changed : TypeTable} {type : Option TypeId}
    (done : requireLive type table = .ok () changed) : LiveOption table type ∧ table = changed := by
  cases type with
  | none => exact ⟨fun _ impossible => (by cases impossible), (Edit.pure_ok done).2⟩
  | some id =>
      obtain ⟨definition, _, query, done⟩ := Edit.bind_ok done
      obtain ⟨found, rfl⟩ := Edit.query_ok query
      refine ⟨?_, (Edit.pure_ok done).2⟩
      intro other same
      cases same
      change table.find id = .ok definition at found
      unfold find at found
      cases held : table.get? id with
      | none => simp [held] at found
      | some definition => exact (get_eq_some_iff.mp held).1

theorem require_run {table : TypeTable} {type : Option TypeId} (bounded : ∀ id ∈ table.order, id < table.arena.size)
    (live : LiveOption table type) : requireLive type table = .ok () table := by
  cases type with
  | none => rfl
  | some id =>
      have member := live id rfl
      have inside := bounded id member
      have held := get_eq_some_iff.mpr ⟨member, Array.getElem?_eq_getElem inside⟩
      have found : table.find id = .ok table.arena[id] := by
        unfold find
        rw [held]
      exact (Edit.bind_query_of_ok (by exact found)).trans rfl

theorem add_ok {table changed : TypeTable} {code : TypeCode} {first second : Option TypeId} {id : TypeId}
    (done : add code first second table = .ok id changed) :
    ∃ signature, Signature.ofParameters code first second = .ok signature ∧ LiveOption table first ∧
      LiveOption table second ∧ internType signature table = .ok id changed := by
  unfold add at done
  cases made : Signature.ofParameters code first second with
  | error fault =>
      rw [made] at done
      cases done
  | ok signature =>
      rw [made] at done
      obtain ⟨_, _, checked, done⟩ := Edit.bind_ok done
      obtain ⟨firstLive, rfl⟩ := require_ok checked
      obtain ⟨_, _, checked, done⟩ := Edit.bind_ok done
      obtain ⟨secondLive, rfl⟩ := require_ok checked
      exact ⟨signature, rfl, firstLive, secondLive, done⟩

theorem add_run {table : TypeTable} {code : TypeCode} {first second : Option TypeId}
    {signature : Signature} (bounded : ∀ id ∈ table.order, id < table.arena.size)
    (made : Signature.ofParameters code first second = .ok signature) (firstLive : LiveOption table first)
    (secondLive : LiveOption table second) :
    add code first second table = internType signature table := by
  unfold add
  rw [made]
  refine (Edit.bind_of_ok (require_run bounded firstLive)).trans ?_
  exact Edit.bind_of_ok (require_run bounded secondLive)

-- A refused type is one that the signature cannot have, or that the table does not have; nothing changes.
theorem require_error {table changed : TypeTable} {type : Option TypeId} {error : Error}
    (refused : requireLive type table = .error error changed) :
    changed = table ∧ ∃ id, type = some id ∧ table.get? id = none ∧ error = .typeNotFound id := by
  cases type with
  | none => cases refused
  | some id =>
      cases held : table.get? id with
      | some definition => cases (Edit.bind_query_of_ok (by exact find_ok_iff.mpr held)).symm.trans refused
      | none =>
          cases (Edit.bind_query_of_error (by exact find_error held)).symm.trans refused
          exact ⟨rfl, id, rfl, held, rfl⟩

theorem add_error {table changed : TypeTable} {code : TypeCode} {first second : Option TypeId} {error : Error}
    (refused : add code first second table = .error error changed) :
    changed = table ∧ ((∃ fault, Signature.ofParameters code first second = .error fault) ∨
      ∃ id, (first = some id ∨ second = some id) ∧ table.get? id = none ∧ error = .typeNotFound id) := by
  unfold add at refused
  cases made : Signature.ofParameters code first second with
  | error fault =>
      rw [made] at refused
      cases refused
      exact ⟨rfl, .inl ⟨fault, rfl⟩⟩
  | ok signature =>
      rw [made] at refused
      rcases Edit.bind_error refused with here | ⟨_, _, checked, later⟩
      · obtain ⟨rfl, id, same, missing, reason⟩ := require_error here
        exact ⟨rfl, .inr ⟨id, .inl same, missing, reason⟩⟩
      obtain ⟨_, rfl⟩ := require_ok checked
      rcases Edit.bind_error later with here | ⟨_, _, _, interning⟩
      · obtain ⟨rfl, id, same, missing, reason⟩ := require_error here
        exact ⟨rfl, .inr ⟨id, .inr same, missing, reason⟩⟩
      · rw [intern_type_run] at interning
        cases interning

theorem not_mem_of_get_none {table : TypeTable} (reliable : table.Reliable) {id : TypeId}
    (missing : table.get? id = none) : id ∉ table.order := by
  intro member
  rw [get_eq_some_iff.mpr ⟨member, Array.getElem?_eq_getElem (reliable.bounded id member)⟩] at missing
  cases missing

theorem references_of_parameters {code : TypeCode} {first second : Option Nat} {signature : Signature}
    (made : Signature.ofParameters code first second = .ok signature) :
    ∀ reference ∈ signature.references, first = some reference ∨ second = some reference := by
  have parts : signature.first? = none ∧ signature.second? = none ∨
      (signature.first? = first ∧ (signature.second? = none ∨ signature.second? = second)) := by
    unfold Signature.ofParameters at made
    cases code <;> cases first <;> cases second <;>
      simp_all [TypeCode.linkKind?, TypeCode.container?] <;> subst made <;>
      simp [Signature.first?, Signature.second?]
  intro reference member
  rcases List.mem_append.mp member with here | here
  · have found := Option.mem_toList.mp here
    rcases parts with ⟨none, _⟩ | ⟨same, _⟩
    · rw [none] at found
      cases found
    · exact .inl (by rw [← same]; exact found)
  · have found := Option.mem_toList.mp here
    rcases parts with ⟨_, none⟩ | ⟨_, none | same⟩
    · rw [none] at found
      cases found
    · rw [none] at found
      cases found
    · exact .inr (by rw [← same]; exact found)

theorem live_of_parameters {table changed : TypeTable} {code : TypeCode} {first second : Option TypeId}
    {id : TypeId} (done : add code first second table = .ok id changed) :
    ∃ signature, Signature.ofParameters code first second = .ok signature ∧
      (∀ reference ∈ signature.references, reference ∈ table.order) ∧ internType signature table = .ok id changed := by
  obtain ⟨signature, made, firstLive, secondLive, done⟩ := add_ok done
  refine ⟨signature, made, fun reference member => ?_, done⟩
  rcases references_of_parameters made reference member with same | same
  · exact firstLive reference same
  · exact secondLive reference same

theorem interned_of_add {table changed : TypeTable} {code : TypeCode} {first second : Option TypeId}
    {id : TypeId} (reliable : table.Reliable) (done : add code first second table = .ok id changed)
    (continues : ∀ {signature}, Signature.ofParameters code first second = .ok signature →
      table.Continues signature) :
    ∃ signature, Signature.ofParameters code first second = .ok signature ∧
      Interned table signature id changed := by
  obtain ⟨signature, made, live, done⟩ := live_of_parameters done
  exact ⟨signature, made, interned_of_intern reliable live (@continues signature made) done⟩

/-! ### Pragmas -/

theorem arena_modify (change : Pragmas → Pragmas) (id query : TypeId) (table : TypeTable) :
    (modifyPragmas change id table).arena[query]? =
      if query = id then table.arena[query]?.map fun definition =>
        { definition with pragmas := change definition.pragmas } else table.arena[query]? := by
  simp only [modifyPragmas, Array.getElem?_modify, eq_comm]

theorem signature_modify (change : Pragmas → Pragmas) (id query : TypeId) (table : TypeTable) :
    (modifyPragmas change id table).signature? query = table.signature? query := by
  rw [signature?, arena_modify]
  split
  · rw [signature?]
    cases table.arena[query]? <;> rfl
  · rfl

theorem reliable_modify (change : Pragmas → Pragmas) (id : TypeId) {table : TypeTable} (reliable : table.Reliable) :
    (modifyPragmas change id table).Reliable := by
  have size : (modifyPragmas change id table).arena.size = table.arena.size := by simp [modifyPragmas]
  refine ⟨?_, ?_, ?_⟩
  · rw [size]
    exact reliable.bounded
  · simp only [signature_modify]
    exact reliable.leads
  · simp only [signature_modify, size]
    exact reliable.inside

end Dataflow.TypeTable
