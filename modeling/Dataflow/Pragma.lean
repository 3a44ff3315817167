import Dataflow.Error
import Dataflow.SortedMap
import Dataflow.Text.Numeral
set_option autoImplicit false

namespace Dataflow

inductive PragmaValue where
  | int (value : Int64)
  | text (value : String)
deriving DecidableEq

namespace PragmaValue

/-- Text that reads as a 64-bit integer is one. -/
def ofText (text : String) : PragmaValue :=
  match Text.integer? text.toList with
  | some value => .int value
  | none => .text text

def render : PragmaValue → String
  | .int value => Text.showInteger value
  | .text value => value

def text? : PragmaValue → Option String
  | .int _ => none
  | .text value => some value

end PragmaValue

structure Pragmas where
  entries : SortedMap String PragmaValue
deriving DecidableEq

namespace Pragmas

def empty : Pragmas := ⟨.empty⟩

instance : EmptyCollection Pragmas := ⟨empty⟩
instance : Inhabited Pragmas := ⟨empty⟩

def nameKey : String := "na"

def checkKey (key : String) : Except Error Unit :=
  if key.length = 2 then pure () else throw (.invalidPragmaKey key)

def isEmpty (pragmas : Pragmas) : Bool :=
  pragmas.entries.isEmpty

def get? (pragmas : Pragmas) (key : String) : Option PragmaValue :=
  pragmas.entries.get? key

def contains (pragmas : Pragmas) (key : String) : Bool :=
  pragmas.entries.contains key

def set (pragmas : Pragmas) (key : String) (value : PragmaValue) : Except Error Pragmas := do
  checkKey key
  pure ⟨pragmas.entries.insert key value⟩

def remove (pragmas : Pragmas) (key : String) : Except Error (Option PragmaValue × Pragmas) := do
  checkKey key
  pure (pragmas.get? key, ⟨pragmas.entries.erase key⟩)

/-- A name is text; an integer under the key of names is none. -/
def name? (pragmas : Pragmas) : Option String :=
  (pragmas.get? nameKey).bind PragmaValue.text?

def setName (pragmas : Pragmas) : Option String → Pragmas
  | some name => ⟨pragmas.entries.insert nameKey (.text name)⟩
  | none => ⟨pragmas.entries.erase nameKey⟩

/-- The pragmas of a wire. The consumer's value wins, except that the producer names it. -/
def merge (producer consumer : Pragmas) : Pragmas :=
  ⟨consumer.entries.entries.foldl (fun merged (key, value) =>
    if key = nameKey ∧ producer.contains nameKey then merged else merged.insert key value)
    producer.entries⟩

def renderEntry (entry : String × PragmaValue) : String :=
  " %" ++ entry.1 ++ "=" ++ entry.2.render

def render (pragmas : Pragmas) : String :=
  String.join (pragmas.entries.entries.map renderEntry)

end Pragmas

inductive PragmaChange where
  | set (key : String) (value : PragmaValue)
  | remove (key : String)
  | rename (name : Option String)

def PragmaChange.apply : PragmaChange → Pragmas → Except Error Pragmas
  | .set key value, pragmas => pragmas.set key value
  | .remove key, pragmas => (pragmas.remove key).map (·.2)
  | .rename name, pragmas => .ok (pragmas.setName name)

end Dataflow
