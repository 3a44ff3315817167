set_option autoImplicit false

/- Text as UTF-8 bytes. Decoding never fails: every longest piece of the input that cannot be
continued to a well-formed sequence becomes one replacement character. -/
namespace Dataflow.Text.Utf8

def encode (text : List Char) : List UInt8 :=
  text.flatMap String.utf8EncodeChar

def replacement : Char := '\uFFFD'

structure Range where
  low : UInt8
  high : UInt8

def Range.contains (range : Range) (byte : UInt8) : Bool :=
  range.low ≤ byte && byte ≤ range.high

def anyTail : Range := ⟨0x80, 0xBF⟩

/-- For a byte that can start a sequence: the bits that it carries and the ranges of the bytes
that have to follow. -/
def lead? (byte : UInt8) : Option (Nat × List Range) :=
  if byte ≤ 0x7F then some (byte.toNat, [])
  else if byte < 0xC2 then none
  else if byte ≤ 0xDF then some (byte.toNat - 0xC0, [anyTail])
  else if byte == 0xE0 then some (0, [⟨0xA0, 0xBF⟩, anyTail])
  else if byte == 0xED then some (0xD, [⟨0x80, 0x9F⟩, anyTail])
  else if byte ≤ 0xEF then some (byte.toNat - 0xE0, [anyTail, anyTail])
  else if byte == 0xF0 then some (0, [⟨0x90, 0xBF⟩, anyTail, anyTail])
  else if byte ≤ 0xF3 then some (byte.toNat - 0xF0, [anyTail, anyTail, anyTail])
  else if byte == 0xF4 then some (4, [⟨0x80, 0x8F⟩, anyTail, anyTail])
  else none

def follow (bits : Nat) : List Range → List UInt8 → Char × List UInt8
  | [], rest => (Char.ofNat bits, rest)
  | _ :: _, [] => (replacement, [])
  | range :: ranges, byte :: rest =>
      if range.contains byte then follow (bits * 64 + (byte.toNat - 0x80)) ranges rest
      else (replacement, byte :: rest)

theorem follow_length (bits : Nat) (ranges : List Range) (bytes : List UInt8) :
    (follow bits ranges bytes).2.length ≤ bytes.length := by
  induction ranges generalizing bits bytes with
  | nil => simp [follow]
  | cons range ranges ih =>
      cases bytes with
      | nil => simp [follow]
      | cons byte rest =>
          simp only [follow]
          split
          · exact Nat.le_succ_of_le (ih _ rest)
          · simp

def next (byte : UInt8) (rest : List UInt8) : Char × List UInt8 :=
  match lead? byte with
  | none => (replacement, rest)
  | some (bits, ranges) => follow bits ranges rest

theorem next_length (byte : UInt8) (rest : List UInt8) : (next byte rest).2.length ≤ rest.length := by
  unfold next
  split
  · simp
  · exact follow_length _ _ _

def decode : List UInt8 → List Char
  | [] => []
  | byte :: rest => (next byte rest).1 :: decode (next byte rest).2
termination_by bytes => bytes.length
decreasing_by
  have := next_length byte rest
  simp only [List.length_cons]
  omega

end Dataflow.Text.Utf8
