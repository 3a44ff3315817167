import Dataflow.Json
set_option autoImplicit false

namespace Dataflow.Json

def unicodeEscape (c : Char) : String :=
  let digits := Nat.toDigits 16 c.toNat
  "\\u" ++ String.ofList (List.replicate (4 - digits.length) '0' ++ digits)

def isBreaking (c : Char) : Bool :=
  c.toNat < 0x20 || (0x7f ≤ c.toNat && c.toNat < 0xa0) || c = '\u2028' || c = '\u2029'

def escapeChar (c : Char) : String :=
  if c = '"' then "\\\""
  else if c = '\\' then "\\\\"
  else if isBreaking c then unicodeEscape c
  else c.toString

def quote (text : String) : String :=
  "\"" ++ String.join (text.toList.map escapeChar) ++ "\""

mutual
def render : Json → String
  | null => "null"
  | bool value => if value then "true" else "false"
  | int value => toString value
  | number negative magnitude =>
      (if negative then "-" else "") ++ toString magnitude.significand ++ "e"
        ++ toString magnitude.exponent
  | string value => quote value
  | array items => "[" ++ ",".intercalate (renderItems items) ++ "]"
  | object members => "\x7b" ++ ",".intercalate (renderMembers members) ++ "\x7d"

def renderItems : List Json → List String
  | [] => []
  | item :: items => render item :: renderItems items

def renderMembers : List (String × Json) → List String
  | [] => []
  | (name, value) :: members => (quote name ++ ":" ++ render value) :: renderMembers members
end

end Dataflow.Json
