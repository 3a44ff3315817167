import Dataflow.Decimal.Layout
import Dataflow.Decimal.Read
import Dataflow.SortedMap
import Dataflow.Text.Numeral
set_option autoImplicit false

/- JSON values, and how data is kept in them. A record is an object, and is read from an array of its
fields as well; a choice without data is its name, and one with data an object with a single name.
The record of a choice is read from an object only. -/
namespace Dataflow

inductive Json where
  | null
  | bool (value : Bool)
  | int (value : Int)
  | number (negative : Bool) (magnitude : Decimal)
  | string (value : String)
  | array (items : List Json)
  | object (members : List (String × Json))

instance : Inhabited Json := ⟨.null⟩

class JsonForm (α : Type) where
  encode : α → Json
  decode? : Json → Option α

namespace Json
open JsonForm

abbrev Members := List (String × Json)

def members? (fields : List String) : Json → Option Members
  | object members => some members
  | array items => if items.length = fields.length then some (fields.zip items) else none
  | _ => none

def required {α : Type} [JsonForm α] (members : Members) (field : String) : Option α :=
  (members.lookup field).bind decode?

def optional {α : Type} [JsonForm α] (members : Members) (field : String) : Option (Option α) :=
  match members.lookup field with
  | none | some null => some none
  | some value => (decode? value).map some

def plainName? : Json → Option String
  | string name => some name
  | object [(name, null)] => some name
  | _ => none

def choose? {α : Type} (all : List α) (name : α → String) (json : Json) : Option α := do
  let chosen ← json.plainName?
  all.find? fun value => name value = chosen

def encodeOption {α : Type} [JsonForm α] : Option α → Json
  | some value => encode value
  | none => null

instance : JsonForm Nat where
  encode value := int value
  decode?
    | int (.ofNat value) => if value < Text.wordBound then some value else none
    | _ => none

instance : JsonForm Int64 where
  encode value := int value.toInt
  decode?
    | int value => Text.int64? value
    | _ => none

instance : JsonForm Bool where
  encode := bool
  decode?
    | bool value => some value
    | _ => none

instance : JsonForm String where
  encode := string
  decode?
    | string value => some value
    | _ => none

instance : JsonForm Char where
  encode value := string value.toString
  decode?
    | string value =>
        match value.toList with
        | [c] => some c
        | _ => none
    | _ => none

def ofBinary (format : Binary.Format) (number : Binary.Number) : Json :=
  match number.magnitude with
  | .finite 0 _ => .number number.negative ⟨0, 0⟩
  | .finite significand exponent =>
      .number number.negative (Decimal.shortest format significand exponent)
  | _ => null

def binary? (format : Binary.Format) : Json → Option Nat
  | int value =>
      let magnitude := Decimal.Reading.finite value.natAbs 0
      some ((if value < 0 then format.signBit else 0) + magnitude.magnitudeBits format)
  | number negative ⟨significand, exponent⟩ =>
      let magnitude := Decimal.Reading.finite significand exponent
      some ((if negative then format.signBit else 0) + magnitude.magnitudeBits format)
  | _ => none

instance : JsonForm Float where
  encode value := ofBinary Binary.double (Binary.ofDouble value)
  decode? json := (binary? Binary.double json).map fun bits => Float.ofBits (UInt64.ofNat bits)

/-- Integers of 64 bits with or without a sign; any other number is a double first. -/
def isWide (value : Int) : Bool :=
  -Int.pow 2 63 ≤ value && value < Int.pow 2 64

instance : JsonForm Float32 where
  encode value := encode value.toFloat
  decode? json :=
    let viaDouble := (decode? json : Option Float).map Float.toFloat32
    match json with
    | int value =>
        if isWide value then
          (binary? Binary.single json).map fun bits => Float32.ofBits (UInt32.ofNat bits)
        else viaDouble
    | _ => viaDouble

instance {α : Type} [JsonForm α] : JsonForm (List α) where
  encode values := array (values.map encode)
  decode?
    | array items => items.mapM decode?
    | _ => none

instance {α : Type} [JsonForm α] : JsonForm (SortedMap String α) where
  encode map := object (map.entries.map fun (key, value) => (key, encode value))
  decode?
    | object members => do
        let entries ← members.mapM fun member => (decode? member.2).map (member.1, ·)
        pure (SortedMap.ofList entries)
    | _ => none

def numeral? (text : String) : Option Nat := do
  let value ← Text.word? text.toList
  if toString value = text then some value else none

instance {α : Type} [JsonForm α] : JsonForm (SortedMap Nat α) where
  encode map := object (map.entries.map fun (key, value) => (toString key, encode value))
  decode?
    | object members => do
        let entries ← members.mapM fun member => do
          pure (← numeral? member.1, ← decode? member.2)
        pure (SortedMap.ofList entries)
    | _ => none

end Json

end Dataflow
