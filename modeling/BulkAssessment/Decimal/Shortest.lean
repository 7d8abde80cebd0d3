import BulkAssessment.Decimal.Binary64

/-!
# The shortest decimal that reads back

Every real number in an interval around a double rounds to that double; the ends of
the interval belong to it when the mantissa is even. Of the decimals in the interval
those with the fewest digits are taken, and of these the one nearest to the double,
a tie going to the even last digit.

A decimal is `digits * 10 ^ exponent`. For one digit, two digits and so on up to
seventeen the two neighbours of the double on that decimal grid are tried.
-/

namespace BulkAssessment.Decimal

/-- The decimal number `digits * 10 ^ exponent`. -/
structure Scientific where
  digits : Nat
  exponent : Int
  deriving DecidableEq, Repr

/-- The magnitude of a double and the interval that rounds to it, in quarters of the
unit `2 ^ exponent`. -/
structure Rounding where
  low : Nat
  value : Nat
  high : Nat
  closed : Bool
  /-- Numerator and denominator of a quarter of the unit. -/
  unit : Nat × Nat

/-- The interval that rounds to a double other than zero. Below a power of two the
doubles lie twice as dense, so the lower half of the interval is shorter there. -/
def Binary64.rounding (x : Binary64) : Rounding where
  low :=
    if x.mantissa = Binary64.fullMantissa ∧ x.exponent > Binary64.leastExponent then 4 * x.mantissa - 1
    else 4 * x.mantissa - 2
  value := 4 * x.mantissa
  high := 4 * x.mantissa + 2
  closed := x.mantissa % 2 == 0
  unit := Binary64.scaled 1 (x.exponent - 2)

/-- `10 ^ e` as numerator and denominator. -/
def powerOfTen (e : Int) : Nat × Nat :=
  if e ≥ 0 then (Nat.pow 10 e.toNat, 1) else (1, Nat.pow 10 (-e).toNat)

namespace Rounding

/-- Numerator and denominator of the double's magnitude on the grid of the multiples
of `10 ^ e`. -/
def onGrid (r : Rounding) (e : Int) : Nat × Nat :=
  let (pn, pd) := powerOfTen e
  (r.unit.1 * pd, r.unit.2 * pn)

/-- Whether `c * 10 ^ e` rounds to the double. -/
def contains (r : Rounding) (e : Int) (c : Nat) : Bool :=
  let (num, den) := r.onGrid e
  if r.closed then decide (r.low * num ≤ c * den) && decide (c * den ≤ r.high * num)
  else decide (r.low * num < c * den) && decide (c * den < r.high * num)

/-- The neighbours of the double on a grid that round to it, the nearer one or, in a
tie, the even one. -/
def pick? (r : Rounding) (e : Int) : Option Nat :=
  let (num, den) := r.onGrid e
  let below := r.value * num / den
  let twice := 2 * (r.value * num % den)
  match r.contains e below, r.contains e (below + 1) with
  | true, true =>
    some (if twice < den then below
      else if twice > den then below + 1
      else if below % 2 = 0 then below else below + 1)
  | true, false => some below
  | false, true => some (below + 1)
  | false, false => none

end Rounding

/-- The decimal exponent `k` with `10 ^ k ≤ num / den < 10 ^ (k + 1)`, searched upward
from a lower bound. -/
def leadingExponent (num den : Nat) : Nat → Int → Int
  | 0, k => k
  | fuel + 1, k =>
    let (pn, pd) := powerOfTen (k + 1)
    if pn * den ≤ num * pd then leadingExponent num den fuel (k + 1) else k

/-- A lower bound of the decimal exponent of `num / den`, from the lengths in bits. -/
def leadingExponentBound (num den : Nat) : Int :=
  ((Nat.log2 num : Int) - (Nat.log2 den : Int) - 1) * 30103 / 100000 - 1

/-- Take zeros off the end of the digits. -/
def Scientific.strip : Nat → Scientific → Scientific
  | 0, d => d
  | fuel + 1, d =>
    if d.digits ≠ 0 ∧ d.digits % 10 = 0 then
      Scientific.strip fuel ⟨d.digits / 10, d.exponent + 1⟩
    else d

/-- The shortest decimal that reads back as the magnitude of a double. -/
def Binary64.shortest (x : Binary64) : Scientific :=
  if x.isZero then ⟨0, 0⟩
  else
    let r := x.rounding
    let num := r.value * r.unit.1
    let top := leadingExponent num r.unit.2 8 (leadingExponentBound num r.unit.2)
    let found := (List.range 17).findSome? fun n : Nat =>
      (r.pick? (top - (n : Int))).map fun c => Scientific.mk c (top - (n : Int))
    (found.getD ⟨0, 0⟩).strip 17

example : (⟨false, 6004799503160661, -54⟩ : Binary64).shortest = ⟨3333333333333333, -16⟩ := by
  decide +kernel

end BulkAssessment.Decimal
