set_option autoImplicit false

namespace Dataflow.Text

/-- The characters with the Unicode property `White_Space`. -/
def isBlank (c : Char) : Bool :=
  let code := c.toNat
  (0x9 ≤ code && code ≤ 0xD) || code == 0x20 || code == 0x85 || code == 0xA0 || code == 0x1680
    || (0x2000 ≤ code && code ≤ 0x200A) || code == 0x2028 || code == 0x2029 || code == 0x202F
    || code == 0x205F || code == 0x3000

def trimLeft (text : List Char) : List Char :=
  text.dropWhile isBlank

def trimRight (text : List Char) : List Char :=
  (text.reverse.dropWhile isBlank).reverse

def trim (text : List Char) : List Char :=
  trimRight (trimLeft text)

def extendFirst (c : Char) : List (List Char) → List (List Char)
  | [] => [[c]]
  | piece :: pieces => (c :: piece) :: pieces

def split (separates : Char → Bool) (text : List Char) : List (List Char) :=
  text.foldr (fun c pieces => if separates c then [] :: pieces else extendFirst c pieces) [[]]

def words (text : List Char) : List (List Char) :=
  (split isBlank text).filter (!·.isEmpty)

def lines (text : List Char) : List (List Char) :=
  ((split (· == '\n') text).map trim).filter (!·.isEmpty)

end Dataflow.Text
