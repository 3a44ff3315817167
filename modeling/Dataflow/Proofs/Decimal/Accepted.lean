import Dataflow.Decimal.Read
import Dataflow.Proofs.Literal.Grammar
import Dataflow.Proofs.Text.Numeral
set_option autoImplicit false

-- Which decimals are read in any case: digits, and behind them a point with digits, an exponent or both.
namespace Dataflow.Decimal
open Literal (Digits Numeral Sign)

inductive Scale : List Char → Prop
  | none : Scale []
  | marked {mark : Char} {sign digits : List Char} (letter : mark = 'e' ∨ mark = 'E') (signed : Sign sign)
      (numeral : Numeral digits) : Scale (mark :: (sign ++ digits))

section Digits
variable {digits rest : List Char}

end Digits

/-! ### Exponents -/

section Scale
variable {scale : List Char} (scaled : Scale scale)
include scaled

end Scale

/-! ### Numbers -/

end Dataflow.Decimal
