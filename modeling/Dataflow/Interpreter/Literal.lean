import Dataflow.Decimal.Read
import Dataflow.Literal.Escape
import Dataflow.Module
import Dataflow.RunError
import Dataflow.Value
set_option autoImplicit false

namespace Dataflow.Interpreter

inductive LiteralShape where
  | basic (kind : BasicKind)
  | string
  | function
deriving DecidableEq

def shapeOfType? (types : TypeTable) (type : TypeId) : Option LiteralShape := do
  let definition ← types.get? type
  match definition.signature with
  | .basic kind => some (.basic kind)
  | .function _ _ => some .function
  | .container .array base =>
      let element ← types.get? base
      if element.signature = .basic .character then some .string else none
  | _ => none

def shapeOfText (text : String) : LiteralShape :=
  match Literal.kind? text.toList with
  | some kind =>
      match kind.basic? with
      | some basic => .basic basic
      | none => .string
  | none => .function

def unquote? (quote : Char) (text : List Char) : Option (List Char) :=
  match text with
  | opening :: rest =>
      match rest.reverse with
      | closing :: body => if opening = quote ∧ closing = quote then some body.reverse else none
      | [] => none
  | [] => none

/-- The decimal that a literal of a real or of a double stands for: every exponent mark is `e`,
and marks without an exponent are dropped. -/
def decimalText (text : List Char) : List Char :=
  let marked := text.map fun c => if c = 'd' ∨ c = 'D' then 'e' else c
  (marked.reverse.dropWhile fun c => c = 'e' ∨ c = 'E').reverse

abbrev Reading (α : Type) := Except LiteralFault α

def require {α : Type} (fault : LiteralFault) : Option α → Reading α
  | some value => .ok value
  | none => .error fault

def readCharacter (text : List Char) : Reading Char := do
  let body ← require .notACharacter (unquote? '\'' text)
  match Literal.unescape body with
  | [c] => pure c
  | _ => throw .notOneCharacter

def readBasic (kind : BasicKind) (text : List Char) : Reading Value :=
  match kind with
  | .boolean => .ok (.bool (text.head? = some 't' ∨ text.head? = some 'T'))
  | .character => (readCharacter text).map .char
  | .integer => (require .notAnInteger (Text.integer? text)).map .int
  | .real => (require .notAReal (Decimal.single? (decimalText text))).map .real
  | .doubleReal => (require .notADouble (Decimal.double? (decimalText text))).map .double
  | .null => .ok .null
  | .wildBasic => .error .wildBasic

def readString (text : List Char) : Reading Value := do
  let body ← require .notAString (unquote? '"' text)
  pure (.ofString (Literal.unescape body))

def literalValue (m : Module) (inlet : Inlet) (literal : Literal) : Except RunError Value :=
  let read (reading : Reading Value) : Except RunError Value :=
    match reading with
    | .ok value => .ok value
    | .error fault => .error (.invalidLiteral inlet literal.text fault)
  let shape := match literal.type with
    | some type => shapeOfType? m.types type
    | none => some (shapeOfText literal.text)
  match shape with
  | none => read (.error .notALiteralType)
  | some (.basic kind) => read (readBasic kind literal.text.toList)
  | some .string => read (readString literal.text.toList)
  | some .function =>
      match m.function? literal.text with
      | some id => .ok (.function id)
      | none => .error (.functionNotFound literal.text)

end Dataflow.Interpreter
