import Dataflow.Text.Visible
set_option autoImplicit false

namespace Dataflow.Text

def escape (quote c : Char) : String :=
  if c = '\x00' then "\\0"
  else if c = '\t' then "\\t"
  else if c = '\r' then "\\r"
  else if c = '\n' then "\\n"
  else if c = '\\' then "\\\\"
  else if c = quote then "\\" ++ quote.toString
  else if isHidden c then
    "\\u\x7b" ++ String.ofList (Nat.toDigits 16 c.toNat) ++ "\x7d"
  else c.toString

def quoteChar (c : Char) : String :=
  "'" ++ escape '\'' c ++ "'"

def quoteString (text : List Char) : String :=
  "\"" ++ String.join (text.map (escape '"')) ++ "\""

end Dataflow.Text
