import Dataflow.Proofs.Module.Readable
import Dataflow.Proofs.Module.Stable
import Dataflow.Proofs.Module.Writable
set_option autoImplicit false

-- Round trips through text. Asking for the types of the functions only adds to a module, so what can
-- be read back before can be read back after.
namespace Dataflow.Module
open TypeTable
open Text (wordBound)

section Typed
variable {m changed : Module} {asked : Pragmas → Prop}

theorem printable_typed (empty : asked .empty) (printable : m.Printable asked) (typed : Typed m changed) :
    changed.Printable asked := by
  refine ⟨fun role => ?_, fun id => ?_, fun found => ?_, fun {outlet output} found => ?_, fun bound => ?_⟩
  · rw [typed.shape.role] at role
    rw [typed.nodePragmas]
    exact printable.named role
  · rw [typed.nodePragmas]
    exact printable.own id
  · rw [typed.input] at found
    exact printable.input found
  · rcases typed.output outlet with same | ⟨_, _, _, wild, _, given⟩
    · rw [same] at found
      exact printable.output found
    · rw [given] at found
      cases found
      cases before : m.output? outlet with
      | none => exact empty
      | some output => exact (show asked output.pragmas from printable.output before)
  · rw [binding_eq_of_input (typed.input _)] at bound
    rw [typed.input]
    exact printable.literal bound

-- A port that is added for a gap is below a port that there was.
theorem counted_typed (counted : m.Counted) (typed : Typed m changed) : changed.Counted := by
  refine ⟨fun held => ?_, fun {outlet} held => ?_, fun id => ?_⟩
  · rw [typed.input] at held
    exact counted.inlets held
  · rcases typed.output outlet with same | ⟨_, _, ⟨top, above, below⟩, _⟩
    · rw [same] at held
      exact counted.outlets held
    · exact Nat.lt_trans below (counted.outlets (held_of_type above))
  · rw [typed.shape.nodes]
    exact counted.nodes id

theorem positive_typed {id : NodeId} (positive : m.PositiveAt id) (typed : Typed m changed) :
    changed.PositiveAt id := by
  rintro port (held | held)
  · rw [typed.input] at held
    exact positive port (.inl held)
  · rcases typed.output ⟨id, port⟩ with same | ⟨_, low, _⟩
    · rw [same] at held
      exact positive port (.inr held)
    · exact low

theorem types_typed (empty : asked .empty) (typed : Typed m changed)
    (types : ∀ {type definition}, m.types.get? type = some definition → asked definition.pragmas)
    {type : TypeId} {definition : TypeDef} (found : changed.types.get? type = some definition) :
    asked definition.pragmas := by
  obtain ⟨member, here⟩ := get_eq_some_iff.mp found
  by_cases old : type < m.types.arena.size
  · obtain ⟨added, order, new⟩ := typed.grows.order
    rw [order] at member
    rcases List.mem_append.mp member with before | after
    · rw [typed.grows.arena type old] at here
      exact types (get_eq_some_iff.mpr ⟨before, here⟩)
    · exact absurd old (Nat.not_lt_of_le (new type after))
  · rw [typed.grows.plain (Nat.le_of_not_lt old) here]
    exact empty

theorem fitting_typed (empty : asked .empty) (fitting : m.Fitting asked) (typed : Typed m changed) :
    changed.Fitting asked := by
  refine ⟨printable_typed empty fitting.toPrintable typed, types_typed empty typed fitting.types, ?_⟩
  rw [typed.pragmas]
  exact fitting.pragmas

end Typed

-- Every argument up to the highest one with a type is a link of the type of the function.
theorem argument_lt {m settled : Module} {text : String} (regular : m.types.Regular) (wired : m.Wired)
    (done : toText m = .ok text settled) {id : NodeId} (member : id ∈ m.functions) (positive : m.PositiveAt id)
    (results : m.resultsOf id ≠ []) {port : Nat} (known : (m.outputType? ⟨id, port⟩).isSome) :
    port < settled.types.order.length := by
  obtain ⟨typed, types, each, _⟩ := to_text_ok regular wired done
  have still : settled.resultsOf id ≠ [] :=
    results_kept (fun port => typed.input ⟨id, port⟩) (fun _ _ => typed.type_kept) results
  obtain ⟨type, known⟩ := Option.isSome_iff_exists.mp known
  rw [← typed.shape.functions] at member
  obtain ⟨position, inside, rfl⟩ := List.getElem_of_mem member
  have here := each.get inside (by rw [← each.length_eq]; exact inside)
  generalize types.get _ = asked at here
  simp only [List.get_eq_getElem] at here
  have low : 1 ≤ port := positive port (.inr (held_of_type (by rw [known]; rfl)))
  cases here with
  | untyped _ bare => exact absurd bare still
  | typed _ _ whole signed _ =>
      have there := argument_of_port (positive_typed positive typed) whole (port - 1)
      rw [Nat.sub_add_cancel low, typed.type_kept known] at there
      obtain ⟨below, _⟩ := List.getElem?_eq_some_iff.mp there
      have links := arguments_lt typed.regular signed
      omega

/-! ### Texts that are accepted -/

-- What writing a module that was read leaves behind. All of it fits but the number of the types.
structure Rewritten (m settled : Module) (written : String) : Prop where
  done : toText m = .ok written settled
  typed : Typed m settled
  owned : settled.Owned
  wired : settled.Wired
  homogeneous : settled.types.Homogeneous
  fitting : settled.Fitting Pragmas.Plain
  counted : settled.Counted
  children : ∀ id, (settled.childrenOf id).length < wordBound
  positive : settled.Positive
  each : ∃ types, List.Forall₂ (Settled settled) settled.functions types ∧ settled.textWith types = .ok written

theorem rewritten_of_read {text : String} {m : Module} (read : ofText text = .ok m) :
    ∃ written settled, Rewritten m settled written := by
  have accepted := Read.accepted read
  have sane := accepted.sane
  have live : m.Live := ⟨sane.regular, sane.closed, accepted.readable.declared, accepted.readable.literals⟩
  obtain ⟨written, settled, done⟩ := to_text_exists live accepted.owned accepted.wired
  obtain ⟨typed, each⟩ := to_text_ok sane.regular accepted.wired done
  have fitting : m.Fitting Pragmas.Plain := ⟨accepted.readable.toPrintable, sane.plain, accepted.readable.header⟩
  refine ⟨written, settled, done, typed, accepted.owned.of_same_shape typed.shape, wired_to_text accepted.wired done,
    typed.grows.homogeneous sane.homogeneous, fitting_typed Pragmas.plain_empty fitting typed,
    counted_typed accepted.readable.toCounted typed, fun id => ?_,
    fun id => positive_typed (accepted.positive id) typed, each⟩
  rw [typed.shape.children]
  exact accepted.children id

namespace Rewritten
variable {m settled : Module} {written : String}

theorem again (rewritten : Rewritten m settled written) (few : settled.types.order.length < wordBound) :
    ∃ second, ofText written = .ok second ∧ toText second = .ok written second := by
  obtain ⟨types, each, body⟩ := rewritten.each
  have legible : settled.Legible :=
    ⟨rewritten.fitting, ⟨rewritten.counted, rewritten.children, few⟩, rewritten.positive⟩
  obtain ⟨second, _, again, _, _, stable⟩ := reread rewritten.typed.regular rewritten.owned rewritten.wired
    rewritten.homogeneous legible each body
  exact ⟨second, again, stable⟩

theorem few (rewritten : Rewritten m settled written) {second : Module} (read : ofText written = .ok second) :
    settled.types.order.length < wordBound := by
  obtain ⟨types, each, body⟩ := rewritten.each
  exact few_of_accepted rewritten.typed.regular (rewritten.fitting.mono fun plain => plain.toWordy) each body read

end Rewritten

-- Writing what was read always succeeds, and the text that is written is read and written as itself.
-- Labels of types are words, so there is nothing to read back when there are more types than words.
theorem written_text_is_fixed {text : String} {m : Module} (read : ofText text = .ok m) :
    ∃ written settled, toText.result m = .ok (written, settled) ∧
      ((∃ second, ofText written = .ok second) ↔ settled.types.order.length < wordBound) ∧
      ∀ second, ofText written = .ok second → toText.result second = .ok (written, second) := by
  obtain ⟨written, settled, rewritten⟩ := rewritten_of_read read
  refine ⟨written, settled, Edit.result_eq_ok.mpr rewritten.done, ⟨fun ⟨_, again⟩ => rewritten.few again, fun few => ?_⟩,
    fun second again => ?_⟩
  · obtain ⟨second, again, _⟩ := rewritten.again few
    exact ⟨second, again⟩
  · obtain ⟨other, same, stable⟩ := rewritten.again (rewritten.few again)
    cases again.symm.trans same
    exact Edit.result_eq_ok.mpr stable

theorem untidy_text_is_fixed : ∃ m written settled second,
    ofText "T 9 8 4 0\nT 2 1 3\nX 0 \"main\"\nE 1 1 0 1 2\nN 1 139\nL 1 1 2 \"42\"" = .ok m ∧
      toText.result m = .ok (written, settled) ∧ ofText written = .ok second ∧
        toText.result second = .ok (written, second) := by
  have small : ((ofText "T 9 8 4 0\nT 2 1 3\nX 0 \"main\"\nE 1 1 0 1 2\nN 1 139\nL 1 1 2 \"42\"").toOption.bind
      fun m => (toText.result m).toOption).any (fun done => done.2.types.order.length < wordBound) = true := by
    decide +kernel
  cases read : ofText "T 9 8 4 0\nT 2 1 3\nX 0 \"main\"\nE 1 1 0 1 2\nN 1 139\nL 1 1 2 \"42\"" with
  | error error =>
      rw [read] at small
      cases small
  | ok m =>
      obtain ⟨written, settled, done, accepted, same⟩ := written_text_is_fixed read
      have few : settled.types.order.length < wordBound := by
        simpa [read, Except.toOption, done] using small
      obtain ⟨second, again⟩ := accepted.mpr few
      exact ⟨m, written, settled, second, rfl, done, again, same second again⟩

-- All arguments below the highest one become wild, so the type of the function is a chain of as many links as there
-- are words but one.
theorem widest_function_is_not_reread : ∃ m written settled,
    ofText "T 1 1 3\nX 0 \"f\"\nE 0 4294967295 0 1 1" = .ok m ∧ toText.result m = .ok (written, settled) ∧
      ∀ second, ofText written ≠ .ok second := by
  have shown : (ofText "T 1 1 3\nX 0 \"f\"\nE 0 4294967295 0 1 1").toOption.any (fun m =>
      m.functions = [0] ∧ m.resultsOf 0 ≠ [] ∧ (m.outputType? ⟨0, 4294967295⟩).isSome) = true := by
    decide +kernel
  cases read : ofText "T 1 1 3\nX 0 \"f\"\nE 0 4294967295 0 1 1" with
  | error error =>
      rw [read] at shown
      cases shown
  | ok m =>
      obtain ⟨functions, results, known⟩ : m.functions = [0] ∧ m.resultsOf 0 ≠ [] ∧
          (m.outputType? ⟨0, 4294967295⟩).isSome := by
        simpa [read, Except.toOption] using shown
      have accepted := Read.accepted read
      obtain ⟨written, settled, rewritten⟩ := rewritten_of_read read
      refine ⟨m, written, settled, rfl, Edit.result_eq_ok.mpr rewritten.done, fun second again => ?_⟩
      have many := argument_lt accepted.sane.regular accepted.wired rewritten.done (by rw [functions]; exact .head _)
        (accepted.positive 0) results known
      have few : settled.types.order.length < 4294967296 := rewritten.few again
      omega

end Dataflow.Module
