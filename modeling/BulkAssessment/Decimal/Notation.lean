import BulkAssessment.Decimal.Shortest
import BulkAssessment.Text.Integer

/-!
# Doubles as texts

A double is written with the digits of its shortest decimal and always shows that it
is no integer: positionally with a point while the exponent of the leading digit lies
in a given span, and with a signed exponent otherwise.
-/

namespace BulkAssessment.Decimal

/-- The exponents of the leading digit that are written positionally. -/
structure Notation where
  least : Int
  greatest : Int

/-- Numbers from `0.00001` to below `10 ^ 16` are written positionally. -/
def Notation.plain : Notation := ⟨-5, 15⟩

/-- The text of a shortest decimal. -/
def Scientific.text (n : Notation) (d : Scientific) : String :=
  let ds := Nat.toDigits 10 d.digits
  let top : Int := (ds.length : Int) + d.exponent - 1
  let zeros (k : Int) : List Char := List.replicate k.toNat '0'
  String.ofList <|
    if n.least ≤ top ∧ top ≤ n.greatest then
      if 0 ≤ d.exponent then ds ++ zeros d.exponent ++ ['.', '0']
      else if 0 ≤ top then ds.take (top.toNat + 1) ++ '.' :: ds.drop (top.toNat + 1)
      else '0' :: '.' :: zeros (-top - 1) ++ ds
    else
      let power := 'e' :: (if top < 0 then '-' else '+') :: Nat.toDigits 10 top.natAbs
      match ds with
      | [] => power
      | [c] => c :: power
      | c :: rest => c :: '.' :: rest ++ power

/-- The text of a double. -/
def Binary64.text (x : Binary64) : String :=
  let body := x.shortest.text .plain
  if x.negative then "-" ++ body else body

example : (Binary64.mk true 0 (-1074)).text = "-0.0" := by decide +kernel
example : (Binary64.mk false Binary64.fullMantissa (-51)).text = "2.0" := by decide +kernel

end BulkAssessment.Decimal
