/-!
# Finite binary numbers of double precision

A finite double is kept exactly, as a sign, a mantissa below `2 ^ 53` and an exponent
of two that is at least `-1074`. The mantissa has its top bit set unless the exponent
is the least one, so each number other than zero has one form and zero has two, one
for each sign.

`ofRatio?` rounds a quotient of natural numbers to the nearest double, a tie going to
the even mantissa, and gives none beyond the greatest double. Products and quotients
of doubles are the exact results rounded that way.
-/

namespace BulkAssessment.Decimal

/-- The finite double `± mantissa * 2 ^ exponent`. -/
structure Binary64 where
  negative : Bool
  mantissa : Nat
  exponent : Int
  deriving DecidableEq, Repr

namespace Binary64

/-- The least exponent of two. -/
def leastExponent : Int := -1074

/-- The greatest exponent of two. -/
def greatestExponent : Int := 971

/-- The least mantissa with its top bit set. -/
def fullMantissa : Nat := 4503599627370496

/-- Zero without a minus sign. -/
def zero : Binary64 := ⟨false, 0, leastExponent⟩

/-- Either zero. -/
def isZero (x : Binary64) : Bool := x.mantissa == 0

/-- The number with the other sign. -/
def negate (x : Binary64) : Binary64 := { x with negative := !x.negative }

/-- Equal as numbers: the two zeros are the same number. -/
def same (x y : Binary64) : Bool :=
  (x.isZero && y.isZero) || x == y

theorem same_comm (x y : Binary64) : same x y = same y x := by
  unfold same
  rw [Bool.and_comm, Bool.beq_comm]

theorem same_refl (x : Binary64) : same x x = true := by
  simp [same]

theorem same_trans {x y z : Binary64} (h : same x y = true) (k : same y z = true) :
    same x z = true := by
  simp only [same, Bool.or_eq_true, Bool.and_eq_true, beq_iff_eq] at *
  rcases h with ⟨hx, hy⟩ | rfl
  · rcases k with ⟨-, hz⟩ | rfl
    · exact .inl ⟨hx, hz⟩
    · exact .inl ⟨hx, hy⟩
  · exact k

/-- Numerator and denominator of `m * 2 ^ e`. -/
def scaled (m : Nat) (e : Int) : Nat × Nat :=
  if e ≥ 0 then (m * Nat.pow 2 e.toNat, 1) else (m, Nat.pow 2 (-e).toNat)

/-- The quotient rounded to the nearest natural number, a tie to the even one. -/
def roundDiv (num den : Nat) : Nat :=
  let q := num / den
  let r := 2 * (num % den)
  if r < den then q else if r > den then q + 1 else if q % 2 = 0 then q else q + 1

/-- The floor of `num / den / 2 ^ e`. -/
def floorAt (num den : Nat) (e : Int) : Nat :=
  if e ≥ 0 then num / (den * Nat.pow 2 e.toNat) else num * Nat.pow 2 (-e).toNat / den

/-- The exponent that gives `num / den` a mantissa of 53 bits, or the least exponent
for a number too small for that. -/
def exponentFor (num den : Nat) : Int :=
  let e : Int := (Nat.log2 num : Int) - (Nat.log2 den : Int) - 52
  max leastExponent (if floorAt num den e < fullMantissa then e - 1 else e)

/-- The double nearest to `num / den`, for a denominator that is not zero; none if it
would lie beyond the greatest double. -/
def ofRatio? (num den : Nat) : Option Binary64 :=
  if num = 0 then some zero
  else
    let e := exponentFor num den
    let m :=
      if e ≥ 0 then roundDiv num (den * Nat.pow 2 e.toNat)
      else roundDiv (num * Nat.pow 2 (-e).toNat) den
    let (m, e) := if m = 2 * fullMantissa then (fullMantissa, e + 1) else (m, e)
    if e > greatestExponent then none else some ⟨false, m, e⟩

/-- The double nearest to a natural number. -/
def ofNat? (n : Nat) : Option Binary64 := ofRatio? n 1

/-- The rounded product of the magnitudes. -/
def mul? (x y : Binary64) : Option Binary64 :=
  let (num, den) := scaled (x.mantissa * y.mantissa) (x.exponent + y.exponent)
  ofRatio? num den

/-- The rounded quotient of the magnitudes, for a divisor that is not zero. -/
def div? (x y : Binary64) : Option Binary64 :=
  let (xn, xd) := scaled x.mantissa x.exponent
  let (yn, yd) := scaled y.mantissa y.exponent
  ofRatio? (xn * yd) (xd * yn)

example : ofNat? 1 = some ⟨false, fullMantissa, -52⟩ := by decide +kernel
example : ofRatio? 1 3 = some ⟨false, 6004799503160661, -54⟩ := by decide +kernel
example : ofRatio? 1 (Nat.pow 2 1074) = some ⟨false, 1, -1074⟩ := by decide +kernel
example : ofNat? (Nat.pow 2 1024 - Nat.pow 2 970) = none := by decide +kernel

end Binary64

end BulkAssessment.Decimal
