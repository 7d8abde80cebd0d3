import BulkAssessment.Json.Basic
import BulkAssessment.Text.Integer

/-!
# Number literals

A literal is an optional minus sign, an integer part without leading zeros, and
optionally a fraction and an exponent. Without fraction and exponent it is an integer
as long as 64 bits hold it; all else is a double, `-0` among it.

A double is worked out from a significand of at most 64 bits. Digits that do not fit
are dropped, those of the integer part counting in the exponent; then the rounded
significand is multiplied or divided by the rounded power of ten. The result can
differ from the nearest double in its last bit. A literal beyond the greatest double
has no value.
-/

namespace BulkAssessment

open Decimal

/-- The parts of a number literal, digits by their values. -/
structure Literal where
  negative : Bool
  whole : List Nat
  fraction : Option (List Nat)
  exponent : Option Int

namespace Literal

/-- The integer part: a zero alone, or digits that start with another one. -/
def readWhole? (cs : List Char) : Text.Reading (List Nat) :=
  match Text.takeDigits 10 cs with
  | ([], _) => none
  | (0 :: _ :: _, _) => none
  | (ds, rest) => some (ds, rest)

/-- The fraction, if a point follows; none if it has no digits. -/
def readFraction? : List Char → Text.Reading (Option (List Nat))
  | '.' :: cs => match Text.takeDigits 10 cs with
    | ([], _) => none
    | (ds, rest) => some (some ds, rest)
  | cs => some (none, cs)

/-- The digits of an exponent behind its sign. -/
def readPower? (sign : Int) (cs : List Char) : Text.Reading (Option Int) :=
  match Text.takeDigits 10 cs with
  | ([], _) => none
  | (ds, rest) => some (some (sign * (Text.valueIn 10 ds : Int)), rest)

/-- The signed digits of an exponent. -/
def readSignedPower? : List Char → Text.Reading (Option Int)
  | '-' :: cs => readPower? (-1) cs
  | '+' :: cs => readPower? 1 cs
  | cs => readPower? 1 cs

/-- The exponent, if an `e` follows; none if it has no digits. -/
def readExponent? : List Char → Text.Reading (Option Int)
  | 'e' :: cs => readSignedPower? cs
  | 'E' :: cs => readSignedPower? cs
  | cs => some (none, cs)

/-- The minus sign in front of a literal. -/
def readSign : List Char → Bool × List Char
  | '-' :: cs => (true, cs)
  | cs => (false, cs)

/-- The literal in front of a text and what follows it. -/
def read? (cs : List Char) : Option (Literal × List Char) := do
  let (negative, cs) := readSign cs
  let (whole, cs) ← readWhole? cs
  let (fraction, cs) ← readFraction? cs
  let (exponent, cs) ← readExponent? cs
  pure (⟨negative, whole, fraction, exponent⟩, cs)

/-- The greatest significand. -/
def greatestSignificand : Nat := 18446744073709551615

/-- Append digits to a significand as long as it fits; the digits left over. -/
def absorb (significand : Nat) : List Nat → Nat × List Nat
  | [] => (significand, [])
  | d :: ds =>
    if 10 * significand + d ≤ greatestSignificand then absorb (10 * significand + d) ds
    else (significand, d :: ds)

/-- The double nearest to a power of ten. -/
def power? (k : Nat) : Option Binary64 := Binary64.ofNat? (Nat.pow 10 k)

/-- The exponent of the greatest power of ten that is a double. -/
def greatestPower : Nat := 308

/-- Divide a significand by `10 ^ k`, in two steps where the power is no double. Two
full steps leave zero, so further ones change nothing. -/
def scaleDown? (x : Binary64) (k : Nat) : Option Binary64 := do
  let y ← x.div? (← power? (min k greatestPower))
  if k ≤ greatestPower then pure y
  else y.div? (← power? (min (k - greatestPower) greatestPower))

/-- The magnitude of `significand * 10 ^ exponent`; none beyond the greatest double. -/
def magnitude? (significand : Nat) (exponent : Int) : Option Binary64 := do
  let x ← Binary64.ofNat? significand
  if x.isZero then pure Binary64.zero
  else if exponent < 0 then scaleDown? x (-exponent).toNat
  else if exponent > (greatestPower : Int) then none
  else x.mul? (← power? exponent.toNat)

/-- The double of a literal. -/
def double? (l : Literal) : Option Binary64 :=
  let (s, left) := absorb 0 l.whole
  let fraction := l.fraction.getD []
  let (s, cut) := absorb s fraction
  let read : Int := (fraction.length : Int) - (cut.length : Int)
  (magnitude? s ((left.length : Int) - read + l.exponent.getD 0)).map fun x =>
    if l.negative then x.negate else x

/-- The integer of a literal without fraction and exponent, where 64 bits hold it. -/
def int? (l : Literal) : Option Int :=
  match l.fraction, l.exponent with
  | none, none =>
    let n := Text.valueIn 10 l.whole
    if l.negative then
      if 0 < n ∧ Text.InRange64 (-(n : Int)) then some (-(n : Int)) else none
    else if n ≤ greatestSignificand then some n else none
  | _, _ => none

/-- The number that a literal stands for; none beyond the greatest double. -/
def number? (l : Literal) : Option Number :=
  match l.int? with
  | some n => some (.int n)
  | none => l.double?.map .double

end Literal

end BulkAssessment
