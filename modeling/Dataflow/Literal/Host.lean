import Dataflow.Literal.Kind
import Dataflow.Decimal.Layout
import Dataflow.Text.Numeral
set_option autoImplicit false

namespace Dataflow

inductive HostValue where
  | bool (value : Bool)
  | int (value : Int64)
  | float (value : Float)
  | text (value : String)
  | function (id : NodeId)

namespace Literal

def double (value : Float) : Except Error String :=
  match Decimal.literal? (Binary.ofDouble value) with
  | some text => .ok (String.ofList text)
  | none => .error (.literalFormat (Decimal.plainDouble value))

end Literal

inductive HostLiteral where
  | text (text : String) (kind : LiteralKind)
  | function (id : NodeId)

def HostValue.literal : HostValue → Except Error HostLiteral
  | .bool value => .ok (.text (if value then "true" else "false") .boolean)
  | .int value => .ok (.text (Text.showInteger value) .integer)
  | .float value => (Literal.double value).map (.text · .doubleReal)
  | .text value => (Literal.classify value).map (.text value ·)
  | .function id => .ok (.function id)

end Dataflow
