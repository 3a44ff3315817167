import Dataflow.Decimal.Layout
import Dataflow.Port
import Dataflow.Text.Numeral
import Dataflow.Text.Quoted
import Dataflow.Type.Code
set_option autoImplicit false

namespace Dataflow

inductive Value where
  | bool (value : Bool)
  | char (value : Char)
  | int (value : Int64)
  | real (value : Float32)
  | double (value : Float)
  | null
  | array (items : List Value)
  | function (id : NodeId)

namespace Value

instance : Inhabited Value := ⟨null⟩

def ofString (text : List Char) : Value :=
  array (text.map char)

def char? : Value → Option Char
  | char value => some value
  | _ => none

def string? : Value → Option (List Char)
  | array items => items.mapM char?
  | _ => none

/-- Zero, the null character, null and the empty array are false. -/
def isTrue : Value → Bool
  | bool value => value
  | char value => value != '\x00'
  | int value => value != 0
  | real value => value != 0
  | double value => value != 0
  | null => false
  | array items => !items.isEmpty
  | function _ => true

def isBool : Value → Bool
  | bool _ => true
  | _ => false

def basic? : Value → Option BasicKind
  | bool _ => some .boolean
  | char _ => some .character
  | int _ => some .integer
  | real _ => some .real
  | double _ => some .doubleReal
  | null => some .null
  | array _ | function _ => none

def typeName : Value → String
  | array _ => "array"
  | function _ => "function"
  | bool _ => BasicKind.boolean.typeName
  | char _ => BasicKind.character.typeName
  | int _ => BasicKind.integer.typeName
  | real _ => BasicKind.real.typeName
  | double _ => BasicKind.doubleReal.typeName
  | null => BasicKind.null.typeName

mutual
def render : Value → String
  | bool value => if value then "true" else "false"
  | char value => Text.quoteChar value
  | int value => Text.showInteger value
  | real value => Decimal.plainSingle value
  | double value => Decimal.plainDouble value
  | null => "null"
  | array items =>
      match items.mapM char? with
      | some text => Text.quoteString text
      | none => "[" ++ ", ".intercalate (renderAll items) ++ "]"
  | function id => s!"function {id}"

def renderAll : List Value → List String
  | [] => []
  | item :: items => render item :: renderAll items
end

end Value

end Dataflow
