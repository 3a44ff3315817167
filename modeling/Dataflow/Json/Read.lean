import Dataflow.Json
set_option autoImplicit false

namespace Dataflow.Json

abbrev Reader (α : Type) := List Char → Option (α × List Char)

def skipSpace (text : List Char) : List Char :=
  text.dropWhile fun c => c = ' ' || c = '\t' || c = '\n' || c = '\r'

def hexDigit? (c : Char) : Option Nat :=
  if c.isDigit then some (c.toNat - '0'.toNat)
  else if 'a' ≤ c ∧ c ≤ 'f' then some (c.toNat - 'a'.toNat + 10)
  else if 'A' ≤ c ∧ c ≤ 'F' then some (c.toNat - 'A'.toNat + 10)
  else none

def codeUnit : Reader Nat
  | a :: b :: c :: d :: rest => do
      let unit ← [a, b, c, d].foldlM (fun value c => (hexDigit? c).map (value * 16 + ·)) 0
      pure (unit, rest)
  | _ => none

def numbered : Reader Char := fun text => do
  let (unit, rest) ← codeUnit text
  if unit < 0xD800 ∨ 0xE000 ≤ unit then pure (Char.ofNat unit, rest)
  else
    match rest with
    | '\\' :: 'u' :: rest => do
        let (low, rest) ← codeUnit rest
        if unit < 0xDC00 ∧ 0xDC00 ≤ low ∧ low < 0xE000 then
          pure (Char.ofNat (0x10000 + (unit - 0xD800) * 0x400 + (low - 0xDC00)), rest)
        else none
    | _ => none

def escaped : Reader Char
  | 'u' :: rest => numbered rest
  | 'b' :: rest => some ('\x08', rest)
  | 'f' :: rest => some ('\x0c', rest)
  | 'n' :: rest => some ('\n', rest)
  | 'r' :: rest => some ('\r', rest)
  | 't' :: rest => some ('\t', rest)
  | c :: rest => if c = '"' ∨ c = '\\' ∨ c = '/' then some (c, rest) else none
  | [] => none

/-- The rest of a string after at most `steps` characters; those before it are `read` backwards. -/
def readString : Nat → List Char → Reader String
  | 0, _, _ => none
  | _ + 1, _, [] => none
  | steps + 1, read, c :: rest =>
      if c = '"' then some (String.ofList read.reverse, rest)
      else if c = '\\' then do
        let (c, rest) ← escaped rest
        readString steps (c :: read) rest
      else if c.toNat < 0x20 then none
      else readString steps (c :: read) rest

def fractionStarts : List Char → Bool
  | '.' :: c :: _ => c.isDigit
  | ['.'] => false
  | _ => true

def ofNumeral? (numeral : List Char) : Option Json :=
  let (negative, body) := match numeral with
    | '-' :: rest => (true, rest)
    | _ => (false, numeral)
  let whole := body.takeWhile Char.isDigit
  let rest := body.dropWhile Char.isDigit
  if whole.length ≠ 1 ∧ whole.head? = some '0' ∨ !fractionStarts rest then none
  else if rest.isEmpty then
    (Text.natural? whole).map fun value =>
      if negative ∧ value = 0 then number true ⟨0, 0⟩
      else int (if negative then -(value : Int) else value)
  else
    match whole, Decimal.finite? body with
    | _ :: _, some (.finite significand exponent) => some (number negative ⟨significand, exponent⟩)
    | _, _ => none

def isNumeral (c : Char) : Bool :=
  c.isDigit || c = '-' || c = '+' || c = '.' || c = 'e' || c = 'E'

def readNumber : Reader Json := fun text =>
  (ofNumeral? (text.takeWhile isNumeral)).map fun value => (value, text.dropWhile isNumeral)

def setMember (name : String) (value : Json) (members : Members) : Members :=
  (name, value) :: members.filter (·.1 ≠ name)

mutual
def readValue : Nat → Reader Json
  | 0, _ => none
  | steps + 1, text =>
      match skipSpace text with
      | 'n' :: 'u' :: 'l' :: 'l' :: rest => some (null, rest)
      | 't' :: 'r' :: 'u' :: 'e' :: rest => some (bool true, rest)
      | 'f' :: 'a' :: 'l' :: 's' :: 'e' :: rest => some (bool false, rest)
      | '"' :: rest => do
          let (value, rest) ← readString (rest.length + 1) [] rest
          pure (string value, rest)
      | '[' :: rest =>
          match skipSpace rest with
          | ']' :: rest => some (array [], rest)
          | _ => readItems steps [] rest
      | '\x7b' :: rest =>
          match skipSpace rest with
          | '\x7d' :: rest => some (object [], rest)
          | _ => readMembers steps [] rest
      | text => readNumber text

def readItems : Nat → List Json → Reader Json
  | 0, _, _ => none
  | steps + 1, read, text => do
      let (item, rest) ← readValue steps text
      match skipSpace rest with
      | ',' :: rest => readItems steps (item :: read) rest
      | ']' :: rest => some (array (item :: read).reverse, rest)
      | _ => none

def readMembers : Nat → Members → Reader Json
  | 0, _, _ => none
  | steps + 1, read, text =>
      match skipSpace text with
      | '"' :: rest => do
          let (name, rest) ← readString (rest.length + 1) [] rest
          match skipSpace rest with
          | ':' :: rest => do
              let (value, rest) ← readValue steps rest
              let read := setMember name value read
              match skipSpace rest with
              | ',' :: rest => readMembers steps read rest
              | '\x7d' :: rest => some (object read.reverse, rest)
              | _ => none
          | _ => none
      | _ => none
end

/-- The value that a text is. No two steps read less than a character. -/
def ofText? (text : String) : Option Json := do
  let text := text.toList
  let (value, rest) ← readValue (2 * text.length + 2) text
  if (skipSpace rest).isEmpty then pure value else none

end Dataflow.Json
