import Mathlib.Data.Finset.Card
import Mathlib.Data.Finset.Range
import Dataflow.Proofs.Type.Orderly
import Dataflow.Type.Display
set_option autoImplicit false

-- No type is part of itself. So types rank by how many others they hold, no type is nested deeper than
-- there are types, and showing one or walking a chain needs no bound.
namespace Dataflow.TypeTable
open Relation (TransGen)

-- A type that was deleted keeps its parameters.
def Contains (table : TypeTable) (outer inner : TypeId) : Prop :=
  ∃ signature, table.signature? outer = some signature ∧
    (signature.first? = some inner ∨ signature.second? = some inner)

structure Grounded (table : TypeTable) : Prop where
  inside : ∀ {outer inner}, table.Contains outer inner → inner < table.arena.size
  acyclic : ∀ id, ¬ TransGen table.Contains id id

theorem contains_iff {table : TypeTable} {outer inner : TypeId} : table.Contains outer inner ↔
    ∃ signature, table.signature? outer = some signature ∧ inner ∈ signature.references := by
  simp [Contains, Signature.references]

theorem contains_of_get {table : TypeTable} {id inner : TypeId} {definition : TypeDef}
    (found : table.get? id = some definition) (member : inner ∈ definition.signature.references) :
    table.Contains id inner := by
  have held := (get_eq_some_iff.mp found).2
  exact contains_iff.mpr ⟨definition.signature, by rw [signature?, held]; rfl, member⟩

theorem grounded_of_regular {table : TypeTable} (regular : table.Regular) : table.Grounded := by
  obtain ⟨rank, downwards⟩ := regular.grounded
  have below : ∀ {outer inner}, table.Contains outer inner → rank inner < rank outer := by
    intro outer inner contains
    obtain ⟨signature, found, member⟩ := contains_iff.mp contains
    exact downwards found _ member
  refine ⟨fun here => ?_, Places.not_reached_of_ranks below⟩
  obtain ⟨signature, found, member⟩ := contains_iff.mp here
  exact regular.inside found _ member

theorem grounded_of_same {table changed : TypeTable} (size : changed.arena.size = table.arena.size)
    (same : ∀ id, changed.signature? id = table.signature? id) (grounded : table.Grounded) : changed.Grounded := by
  have contains : changed.Contains = table.Contains := by
    funext outer inner
    unfold Contains
    rw [same]
  refine ⟨fun here => ?_, fun id => ?_⟩
  · rw [contains] at here
    rw [size]
    exact grounded.inside here
  · rw [contains]
    exact grounded.acyclic id

section Interned
variable {table : TypeTable} {signature : Signature}

theorem contains_interned {outer inner : TypeId} (old : outer ≠ table.arena.size) :
    (interned signature table).Contains outer inner ↔ table.Contains outer inner := by
  unfold Contains
  rw [signature_interned, if_neg old]

-- Nothing refers to a type that is new, so it is on no cycle.
theorem grounded_interned (known : ∀ reference ∈ signature.references, reference < table.arena.size)
    (grounded : table.Grounded) : (interned signature table).Grounded := by
  have low : ∀ {outer inner}, (interned signature table).Contains outer inner → inner < table.arena.size := by
    intro outer inner here
    by_cases new : outer = table.arena.size
    · obtain ⟨other, found, member⟩ := contains_iff.mp here
      rw [signature_interned, if_pos new] at found
      cases found
      exact known inner member
    · exact grounded.inside ((contains_interned new).mp here)
  have older : ∀ {outer inner}, outer ≠ table.arena.size → TransGen (interned signature table).Contains outer inner →
      TransGen table.Contains outer inner := by
    intro outer inner old contains
    induction contains with
    | single here => exact .single ((contains_interned old).mp here)
    | tail _ here ih =>
        obtain ⟨_, _, before⟩ := TransGen.tail'_iff.mp ih
        exact .tail ih ((contains_interned (Nat.ne_of_lt (grounded.inside before))).mp here)
  refine ⟨fun here => ?_, fun id cycle => ?_⟩
  · simpa [interned] using Nat.lt_succ_of_lt (low here)
  · obtain ⟨_, _, last⟩ := TransGen.tail'_iff.mp cycle
    exact grounded.acyclic id (older (Nat.ne_of_lt (low last)) cycle)

end Interned

theorem grounded_added {table changed : TypeTable} (orderly : table.Orderly) (grounded : table.Grounded)
    (added : Added table changed) : changed.Grounded := by
  induction added with
  | refl => exact grounded
  | tail before addition ih =>
      cases addition with
      | type live missing =>
          exact grounded_interned (fun reference member =>
            (orderly_added before orderly).inside reference (live reference member)) ih
      | pragmas sized => exact grounded_of_same (by simp [modifyPragmas]) (signature_modify _ _ · _) ih

theorem grounded_deleted {table : TypeTable} (id : TypeId) (signature : Signature) (grounded : table.Grounded) :
    (deleted id signature table).Grounded :=
  @grounded_of_same table _ rfl (fun _ => rfl) grounded

/-! ### Ranks -/

open Classical in
-- How many types a type holds, at any depth.
noncomputable def rank (table : TypeTable) (id : TypeId) : Nat :=
  ((Finset.range table.arena.size).filter (TransGen table.Contains id)).card

theorem rank_le (table : TypeTable) (id : TypeId) : table.rank id ≤ table.arena.size := by
  classical
  have bound := Finset.card_filter_le (Finset.range table.arena.size) (TransGen table.Contains id)
  rw [Finset.card_range] at bound
  exact bound

theorem rank_lt {table : TypeTable} {outer inner : TypeId} (grounded : table.Grounded)
    (contains : table.Contains outer inner) : table.rank inner < table.rank outer := by
  exact Places.reached_lt (Finset.mem_range.mpr (grounded.inside contains)) contains (grounded.acyclic inner)

/-! ### Types for people to read -/

def componentName : Option String → String
  | some name => name ++ ":"
  | none => ""

-- Showing without a bound: a type is shown through its parts.
inductive Shows (table : TypeTable) : Option TypeId → String → Prop
  | nothing : Shows table none ""
  | missing {id : TypeId} (absent : table.get? id = none) : Shows table (some id) s!"<TypeId({id})>"
  | named {id : TypeId} {definition : TypeDef} {name : String} (found : table.get? id = some definition)
      (plain : definition.signature.code.isLink = false) (called : definition.name? = some name) :
      Shows table (some id) name
  | basic {id : TypeId} {definition : TypeDef} {kind : BasicKind} (found : table.get? id = some definition)
      (shape : definition.signature = .basic kind) (unnamed : definition.name? = none) :
      Shows table (some id) s!"Basic({kind.code})"
  | wild {id : TypeId} {definition : TypeDef} (found : table.get? id = some definition)
      (shape : definition.signature = .wild) (unnamed : definition.name? = none) : Shows table (some id) "wild"
  | container {id base : TypeId} {definition : TypeDef} {kind : Container} {text : String}
      (found : table.get? id = some definition) (shape : definition.signature = .container kind base)
      (unnamed : definition.name? = none) (inner : Shows table (some base) text) :
      Shows table (some id) (kind.code.keyword ++ "[" ++ text ++ "]")
  | function {id results : TypeId} {arguments : Option TypeId} {definition : TypeDef} {taken given : String}
      (found : table.get? id = some definition) (shape : definition.signature = .function arguments results)
      (unnamed : definition.name? = none) (first : Shows table arguments taken)
      (second : Shows table (some results) given) :
      Shows table (some id) ("function[" ++ taken ++ " returns " ++ given ++ "]")
  | last {id element : TypeId} {definition : TypeDef} {kind : LinkKind} {text : String}
      (found : table.get? id = some definition) (shape : definition.signature = .link kind element none)
      (first : Shows table (some element) text) : Shows table (some id) (componentName definition.name? ++ text)
  | link {id element rest : TypeId} {definition : TypeDef} {kind : LinkKind} {text tail : String}
      (found : table.get? id = some definition) (shape : definition.signature = .link kind element (some rest))
      (first : Shows table (some element) text) (second : Shows table (some rest) tail) :
      Shows table (some id) (componentName definition.name? ++ text ++ "->" ++ tail)

-- Everything that is shown within this depth fits into it.
def Fits (table : TypeTable) (depth : Nat) (shown : Option TypeId) : Prop :=
  ∀ id ∈ shown, table.rank id < depth

theorem fits_all (table : TypeTable) (shown : Option TypeId) : table.Fits (table.arena.size + 1) shown :=
  fun id _ => Nat.lt_succ_of_le (rank_le table id)

section Display
variable {table : TypeTable} {depth : Nat} {id : TypeId} {definition : TypeDef}

theorem fits_part (grounded : table.Grounded) (fits : table.Fits (depth + 1) (some id))
    (found : table.get? id = some definition) {part : Option TypeId}
    (parts : ∀ inner ∈ part, inner ∈ definition.signature.references) : table.Fits depth part := by
  intro inner member
  have lower := rank_lt grounded (contains_of_get found (parts inner member))
  have here := fits id rfl
  omega

theorem depth_of_fits (fits : table.Fits depth (some id)) : ∃ less, depth = less + 1 := by
  have here := fits id rfl
  exact ⟨depth - 1, by omega⟩

-- A type that is given with its parts shown can be shown.
def Parted (table : TypeTable) (signature : Signature) : Prop :=
  ∀ part ∈ signature.references, ∃ text, table.Shows (some part) text

theorem shows_link {kind : LinkKind} {element : TypeId} {rest : Option TypeId}
    (found : table.get? id = some definition) (shape : definition.signature = .link kind element rest)
    (parted : table.Parted (.link kind element rest)) : ∃ text, table.Shows (some id) text := by
  obtain ⟨text, first⟩ := parted element (by simp [Signature.references, Signature.first?])
  cases rest with
  | none => exact ⟨_, .last found shape first⟩
  | some rest =>
      obtain ⟨tail, second⟩ := parted rest (by simp [Signature.references, Signature.second?])
      exact ⟨_, .link found shape first second⟩

theorem shows_unnamed (found : table.get? id = some definition) (unnamed : definition.name? = none)
    (parted : table.Parted definition.signature) : ∃ text, table.Shows (some id) text := by
  cases shape : definition.signature with
  | basic kind => exact ⟨_, .basic found shape unnamed⟩
  | wild => exact ⟨_, .wild found shape unnamed⟩
  | container kind base =>
      rw [shape] at parted
      obtain ⟨text, inner⟩ := parted base (by simp [Signature.references, Signature.first?])
      exact ⟨_, .container found shape unnamed inner⟩
  | link kind element rest => exact shows_link found shape (shape ▸ parted)
  | function arguments results =>
      rw [shape] at parted
      obtain ⟨given, second⟩ := parted results (by simp [Signature.references, Signature.second?])
      cases arguments with
      | none => exact ⟨_, .function found shape unnamed .nothing second⟩
      | some arguments =>
          obtain ⟨taken, first⟩ := parted arguments (by simp [Signature.references, Signature.first?])
          exact ⟨_, .function found shape unnamed first second⟩

theorem shows_known (found : table.get? id = some definition) (parted : table.Parted definition.signature) :
    ∃ text, table.Shows (some id) text := by
  cases called : definition.name? with
  | none => exact shows_unnamed found called parted
  | some name =>
      cases shape : definition.signature with
      | link kind element rest => exact shows_link found shape (shape ▸ parted)
      | container kind base => exact ⟨_, .named found (by rw [shape]; cases kind <;> rfl) called⟩
      | _ => exact ⟨_, .named found (by rw [shape]; rfl) called⟩

theorem shows_exists (grounded : table.Grounded) {shown : Option TypeId} (fits : table.Fits depth shown) :
    ∃ text, table.Shows shown text := by
  induction depth generalizing shown with
  | zero =>
      cases shown with
      | none => exact ⟨_, .nothing⟩
      | some id => exact absurd (fits id rfl) (Nat.not_lt_zero _)
  | succ depth ih =>
      cases shown with
      | none => exact ⟨_, .nothing⟩
      | some id =>
          cases found : table.get? id with
          | none => exact ⟨_, .missing found⟩
          | some definition =>
              refine shows_known found fun part member => ih (fits_part grounded fits found fun inner same => ?_)
              cases same
              exact member

theorem display_of_shows (grounded : table.Grounded) {shown : Option TypeId} {text : String}
    (shows_ : table.Shows shown text) (fits : table.Fits depth shown) : table.displayWithin depth shown = text := by
  induction shows_ generalizing depth with
  | nothing => cases depth <;> rfl
  | missing absent =>
      obtain ⟨depth, rfl⟩ := depth_of_fits fits
      simp [displayWithin, absent]
  | named found plain called =>
      obtain ⟨depth, rfl⟩ := depth_of_fits fits
      rename_i definition name
      cases shape : definition.signature with
      | link kind element rest =>
          rw [shape] at plain
          cases kind <;> cases plain
      | _ => simp [displayWithin, found, shape, called]
  | basic found shape unnamed | wild found shape unnamed =>
      obtain ⟨depth, rfl⟩ := depth_of_fits fits
      simp [displayWithin, found, shape, unnamed]
  | container found shape unnamed inner ih =>
      obtain ⟨depth, rfl⟩ := depth_of_fits fits
      have here := ih (fits_part grounded fits found (by simp [shape, Signature.references, Signature.first?]))
      simp [displayWithin, found, shape, unnamed, here]
  | function found shape unnamed first second ihFirst ihSecond =>
      obtain ⟨depth, rfl⟩ := depth_of_fits fits
      have here := ihFirst (fits_part grounded fits found (by
        simp [shape, Signature.references, Signature.first?]
        tauto))
      have there := ihSecond (fits_part grounded fits found (by simp [shape, Signature.references, Signature.second?]))
      simp [displayWithin, found, shape, unnamed, here, there]
  | last found shape first ih =>
      rename_i definition _ _
      obtain ⟨depth, rfl⟩ := depth_of_fits fits
      have here := ih (fits_part grounded fits found (by simp [shape, Signature.references, Signature.first?]))
      cases called : definition.name? <;> simp [displayWithin, found, shape, here, componentName, called]
  | link found shape first second ihFirst ihSecond =>
      rename_i definition _ _ _
      obtain ⟨depth, rfl⟩ := depth_of_fits fits
      have here := ihFirst (fits_part grounded fits found (by simp [shape, Signature.references, Signature.first?]))
      have there := ihSecond (fits_part grounded fits found (by simp [shape, Signature.references, Signature.second?]))
      cases called : definition.name? <;>
        simp [displayWithin, found, shape, here, there, componentName, called, String.append_assoc]

theorem shows_iff_display (grounded : table.Grounded) (text : String) :
    table.Shows (some id) text ↔ text = table.display id := by
  have fits := fits_all table (some id)
  constructor
  · intro shows_
    exact (display_of_shows grounded shows_ fits).symm
  · rintro rfl
    obtain ⟨text, shows_⟩ := shows_exists grounded fits
    rw [display, display_of_shows grounded shows_ fits]
    exact shows_

end Display

/-! ### Walks along chains -/

-- Where a walk begins, if the type holds a chain.
def chainStart? (head : TypeId) : Signature → Option TypeId
  | .link _ _ _ => some head
  | .container .record base | .container .union base => some base
  | _ => none

-- The types that a walk comes to. Whatever has a second parameter leads on.
inductive Linked (table : TypeTable) (head : TypeId) : TypeId → Prop
  | start {definition : TypeDef} {first : TypeId} (found : table.get? head = some definition)
      (begins : chainStart? head definition.signature = some first) : Linked table head first
  | next {link rest : TypeId} {definition : TypeDef} (earlier : Linked table head link)
      (found : table.get? link = some definition) (later : definition.signature.second? = some rest) :
      Linked table head rest

-- Why the elements of a chain cannot be told.
inductive Blocked (table : TypeTable) (head : TypeId) : Error → Prop
  | unknown (absent : table.get? head = none) : Blocked table head (.typeNotFound head)
  | kind {definition : TypeDef} (found : table.get? head = some definition)
      (other : definition.signature.code ∉ [.tuple, .field, .tag, .record, .union]) :
      Blocked table head (.invalidChain head)
  | lost {link : TypeId} (linked : table.Linked head link) (absent : table.get? link = none) :
      Blocked table head (.typeNotFound link)

section Walk
variable {table : TypeTable} {head : TypeId} {definition : TypeDef}

theorem chain_start_none_iff {signature : Signature} :
    chainStart? head signature = none ↔ signature.code ∉ [.tuple, .field, .tag, .record, .union] := by
  cases signature with
  | container kind base => cases kind <;> simp [chainStart?, Signature.code, Container.code]
  | link kind element rest => cases kind <;> simp [chainStart?, Signature.code, LinkKind.code]
  | _ => simp [chainStart?, Signature.code]

theorem links_of_get (found : table.get? head = some definition) :
    table.links head = match chainStart? head definition.signature with
      | some first => table.walk head (table.arena.size + 1) (some first)
      | none => .error (.invalidChain head) := by
  unfold links
  rw [Outcome.bind_of_ok (find_ok_iff.mpr found)]
  cases shape : definition.signature with
  | container kind base => cases kind <;> rfl
  | _ => rfl

theorem walk_missing {steps : Nat} {link : TypeId} (absent : table.get? link = none) :
    table.walk head (steps + 1) (some link) = .error (.typeNotFound link) := by
  unfold walk find
  rw [absent]
  rfl

theorem walk_found {steps : Nat} {link : TypeId} (found : table.get? link = some definition) :
    table.walk head (steps + 1) (some link) =
      (table.walk head steps definition.signature.second?).map (link :: ·) := by
  rw [walk, Outcome.bind_of_ok (find_ok_iff.mpr found)]
  cases table.walk head steps definition.signature.second? <;> rfl

theorem fits_rest (grounded : table.Grounded) {steps : Nat} {link : TypeId} (fits : table.Fits (steps + 1) (some link))
    (found : table.get? link = some definition) : table.Fits steps definition.signature.second? :=
  fits_part grounded fits found fun inner second => by simp [Signature.references, Option.mem_def.mp second]

-- With enough steps it is only a missing type that ends a walk.
theorem walk_fails (grounded : table.Grounded) {steps : Nat} {link : Option TypeId} {error : Error}
    (fits : table.Fits steps link) (failed : table.walk head steps link = .error error) :
    ∃ lost, error = .typeNotFound lost ∧ table.get? lost = none ∧
      ((∀ first ∈ link, table.Linked head first) → table.Linked head lost) := by
  induction steps generalizing link with
  | zero =>
      cases link with
      | none => cases failed
      | some link => exact absurd (fits link rfl) (Nat.not_lt_zero _)
  | succ steps ih =>
      cases link with
      | none => cases failed
      | some link =>
          cases found : table.get? link with
          | none =>
              rw [walk_missing found] at failed
              cases failed
              exact ⟨link, rfl, found, fun linked => linked link rfl⟩
          | some definition =>
              rw [walk_found found] at failed
              cases inner : table.walk head steps definition.signature.second? with
              | ok links =>
                  rw [inner] at failed
                  cases failed
              | error other =>
                  rw [inner] at failed
                  cases failed
                  obtain ⟨lost, same, absent, linked⟩ := ih (fits_rest grounded fits found) inner
                  exact ⟨lost, same, absent, fun first => linked fun rest later => .next (first link rfl) found later⟩

theorem walk_steps (grounded : table.Grounded) {steps more : Nat} {link : Option TypeId} (fits : table.Fits steps link)
    (fitsToo : table.Fits more link) : table.walk head steps link = table.walk head more link := by
  induction steps generalizing more link with
  | zero =>
      cases link with
      | none => cases more <;> rfl
      | some link => exact absurd (fits link rfl) (Nat.not_lt_zero _)
  | succ steps ih =>
      cases link with
      | none => cases more <;> rfl
      | some link =>
          obtain ⟨more, rfl⟩ := depth_of_fits fitsToo
          cases found : table.get? link with
          | none => rw [walk_missing found, walk_missing found]
          | some definition =>
              rw [walk_found found, walk_found found,
                ih (fits_rest grounded fits found) (fits_rest grounded fitsToo found)]

-- What stops a walk on the way stops it as a whole.
theorem links_stopped (grounded : table.Grounded) {link : TypeId} {error : Error} (linked : table.Linked head link)
    (failed : table.walk head (table.arena.size + 1) (some link) = .error error) : table.links head = .error error := by
  induction linked with
  | start found begins =>
      rw [links_of_get found, begins]
      exact failed
  | next earlier found later ih =>
      refine ih ?_
      rename_i before rest definition
      have fits := fits_rest grounded (fits_all table (some before)) found
      rw [walk_found found, walk_steps grounded fits (fits_all table _), later, failed]
      rfl

theorem links_error_iff (grounded : table.Grounded) {error : Error} :
    table.links head = .error error ↔ table.Blocked head error := by
  constructor
  · intro failed
    cases found : table.get? head with
    | none =>
        unfold links find at failed
        rw [found] at failed
        cases failed
        exact .unknown found
    | some definition =>
        rw [links_of_get found] at failed
        cases begins : chainStart? head definition.signature with
        | none =>
            rw [begins] at failed
            cases failed
            exact .kind found (chain_start_none_iff.mp begins)
        | some first =>
            rw [begins] at failed
            obtain ⟨lost, rfl, absent, linked⟩ := walk_fails grounded (fits_all table (some first)) failed
            refine .lost (linked fun other same => ?_) absent
            cases same
            exact .start found begins
  · intro blocked
    cases blocked with
    | unknown absent =>
        unfold links find
        rw [absent]
        rfl
    | kind found other => rw [links_of_get found, chain_start_none_iff.mpr other]
    | lost linked absent => exact links_stopped grounded linked (walk_missing absent)

theorem chain_error_iff (grounded : table.Grounded) {error : Error} :
    table.chain head = .error error ↔ table.Blocked head error :=
  Outcome.bind_pure_error_iff.trans (links_error_iff grounded)

theorem chain_names_error_iff (grounded : table.Grounded) {error : Error} :
    table.chainNames head = .error error ↔ table.Blocked head error :=
  Outcome.bind_pure_error_iff.trans (links_error_iff grounded)

theorem walk_never_long (grounded : table.Grounded) (start : Option TypeId) :
    table.walk head (table.arena.size + 1) start ≠ .error (.invalidChain head) := by
  intro failed
  obtain ⟨_, same, _⟩ := walk_fails grounded (fits_all table start) failed
  cases same

end Walk

end Dataflow.TypeTable
