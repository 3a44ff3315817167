import Dataflow.Literal.Kind
import Dataflow.Text.Utf8
set_option autoImplicit false

/- String literals. Quoting works on the UTF-8 bytes of a text and keeps to printable ASCII; every
other byte is written by three octal digits. -/
namespace Dataflow.Literal

def octalDigit (value : UInt8) : Char :=
  Char.ofNat ('0'.toNat + (value % 8).toNat)

def octal (byte : UInt8) : List Char :=
  [octalDigit (byte / 64), octalDigit (byte / 8), octalDigit byte]

def escapeByte (byte : UInt8) : List Char :=
  let c := Char.ofNat byte.toNat
  if c = '"' ∨ c = '\\' then ['\\', c]
  else if isPrintable c then [c]
  else '\\' :: octal byte

def quoteChars (text : List Char) : List Char :=
  '"' :: ((Text.Utf8.encode text).flatMap escapeByte ++ ['"'])

def quote (text : String) : String :=
  String.ofList (quoteChars text.toList)

def backslash : UInt8 := 0x5C

def octalValue? (byte : UInt8) : Option UInt8 :=
  if 0x30 ≤ byte ∧ byte ≤ 0x37 then some (byte - 0x30) else none

def control (byte : UInt8) : UInt8 :=
  if byte = 0x6E then 0x0A
  else if byte = 0x74 then 0x09
  else if byte = 0x72 then 0x0D
  else if byte = 0x62 then 0x08
  else if byte = 0x66 then 0x0C
  else byte

/-- Reads at most `count` more octal digits. Only the low eight bits of their value are kept. -/
def octalRun : Nat → UInt8 → List UInt8 → UInt8 × List UInt8
  | 0, value, bytes => (value, bytes)
  | _ + 1, value, [] => (value, [])
  | count + 1, value, byte :: rest =>
      match octalValue? byte with
      | some digit => octalRun count (value * 8 + digit) rest
      | none => (value, byte :: rest)

theorem octalRun_length (count : Nat) (value : UInt8) (bytes : List UInt8) :
    (octalRun count value bytes).2.length ≤ bytes.length := by
  induction count generalizing value bytes with
  | zero => simp [octalRun]
  | succ count ih =>
      cases bytes with
      | nil => simp [octalRun]
      | cons byte rest =>
          simp only [octalRun]
          split
          · exact Nat.le_succ_of_le (ih _ rest)
          · simp

def unescapeByte (byte : UInt8) (rest : List UInt8) : UInt8 × List UInt8 :=
  match octalValue? byte with
  | some digit => octalRun 2 digit rest
  | none => (control byte, rest)

theorem unescapeByte_length (byte : UInt8) (rest : List UInt8) :
    (unescapeByte byte rest).2.length ≤ rest.length := by
  unfold unescapeByte
  split
  · exact octalRun_length _ _ _
  · simp

/-- Resolves escapes; a backslash at the very end stands for itself. -/
def unescapeBytes : List UInt8 → List UInt8
  | [] => []
  | [byte] => [byte]
  | first :: second :: rest =>
      if first = backslash then
        (unescapeByte second rest).1 :: unescapeBytes (unescapeByte second rest).2
      else first :: unescapeBytes (second :: rest)
termination_by bytes => bytes.length
decreasing_by
  · have := unescapeByte_length second rest
    simp only [List.length_cons]
    omega
  · simp

def unescape (body : List Char) : List Char :=
  Text.Utf8.decode (unescapeBytes (Text.Utf8.encode body))

end Dataflow.Literal
