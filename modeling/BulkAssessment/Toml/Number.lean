import BulkAssessment.Date
import BulkAssessment.Decimal.Binary64
import BulkAssessment.Text.Integer

/-!
# TOML numbers and dates

The readers tell what follows a well-formed number or date; its value is not kept.
Integers have 64 bits. A float may be too small to be told from zero but not so great
that it would be infinite, although a negative one may.
-/

namespace BulkAssessment.Toml

open Text

/-- What follows a number or a date. -/
abbrev Skipped := Option (List Char)

/-- The digits of a base with single underscores between them, and what follows. -/
def takeGrouped (base : Nat) : List Char → List Nat × List Char
  | [] => ([], [])
  | '_' :: c :: rest => match digitIn? base c with
    | some d => let (ds, rest) := takeGrouped base rest; (d :: ds, rest)
    | none => ([], '_' :: c :: rest)
  | c :: rest => match digitIn? base c with
    | some d => let (ds, rest) := takeGrouped base rest; (d :: ds, rest)
    | none => ([], c :: rest)

/-- One or more digits with single underscores between them, and what follows. -/
def readGrouped? (base : Nat) : List Char → Reading (List Nat)
  | c :: rest => (digitIn? base c).map fun d =>
    let (ds, rest) := takeGrouped base rest
    (d :: ds, rest)
  | [] => none

/-- The digits of a decimal integer: no zero in front. -/
def readDecimal? : List Char → Reading (List Nat)
  | '0' :: rest => some ([0], rest)
  | cs => readGrouped? 10 cs

/-- A sign, if there is one: whether it is a minus, and what follows. -/
def takeSign : List Char → Bool × List Char
  | '-' :: rest => (true, rest)
  | '+' :: rest => (false, rest)
  | cs => (false, cs)

/-- An integer without sign in a base other than ten. -/
def skipBased? (base : Nat) (cs : List Char) : Skipped := do
  let (ds, rest) ← readGrouped? base cs
  if Text.InRange64 (valueIn base ds) then some rest else none

/-- An integer. -/
def skipInteger? : List Char → Skipped
  | '0' :: 'x' :: rest => skipBased? 16 rest
  | '0' :: 'o' :: rest => skipBased? 8 rest
  | '0' :: 'b' :: rest => skipBased? 2 rest
  | cs => do
    let (negative, rest) := takeSign cs
    let (ds, rest) ← readDecimal? rest
    let n : Int := valueIn 10 ds
    if Text.InRange64 (if negative then -n else n) then some rest else none

/-! ## Floats -/

/-- The fraction behind a point: its digits and what follows. -/
def readFraction? : List Char → Reading (List Nat)
  | '.' :: rest => readGrouped? 10 rest
  | _ => none

/-- The exponent behind its letter: its value and what follows. -/
def readExponent? : List Char → Option (Int × List Char)
  | c :: rest =>
    if c == 'e' || c == 'E' then do
      let (negative, rest) := takeSign rest
      let (ds, rest) ← readGrouped? 10 rest
      let n : Int := valueIn 10 ds
      some (if negative then -n else n, rest)
    else none
  | [] => none

/-- Whether `n * 10 ^ e` is beyond the greatest double. -/
def isInfinite (n : Nat) (e : Int) : Bool :=
  if n = 0 then false
  else if 0 ≤ e then decide (309 < e) || (Decimal.Binary64.ofNat? (n * Nat.pow 10 e.toNat)).isNone
  else if e < -(Nat.log2 n : Int) - 1 then false
  else (Decimal.Binary64.ofRatio? n (Nat.pow 10 (-e).toNat)).isNone

/-- A float in digits: behind the integer part at least a fraction or an exponent. -/
def skipDigitFloat? (cs : List Char) : Skipped := do
  let (negative, rest) := takeSign cs
  let (whole, rest) ← readDecimal? rest
  let fraction := readFraction? rest
  let (ds, rest) := fraction.getD ([], rest)
  let exponent := readExponent? rest
  let (e, rest) := exponent.getD (0, rest)
  if fraction.isNone && exponent.isNone then none
  else if !negative && isInfinite (valueIn 10 (whole ++ ds)) (e - (ds.length : Int)) then none
  else some rest

/-- An infinity, or what is no number. -/
def skipSpecialFloat? (cs : List Char) : Skipped :=
  match (takeSign cs).2 with
  | 'i' :: 'n' :: 'f' :: rest => some rest
  | 'n' :: 'a' :: 'n' :: rest => some rest
  | _ => none

/-! ## Dates and times -/

/-- A number of exactly `width` digits within bounds. -/
def readWidth? (width least greatest : Nat) (cs : List Char) : Reading Nat :=
  let ds := (takeDigits 10 (cs.take width)).1
  let n := valueIn 10 ds
  if ds.length = width ∧ least ≤ n ∧ n ≤ greatest then some (n, cs.drop width) else none

/-- A date in the form `year-month-day`. -/
def skipDay? (cs : List Char) : Skipped := do
  let (year, rest) ← readWidth? 4 0 9999 cs
  let (month, rest) ← readWidth? 2 1 12 (← skip? '-' rest)
  let (day, rest) ← readWidth? 2 1 31 (← skip? '-' rest)
  if day ≤ Date.daysIn year month then some rest else none

/-- The fraction of a second, if there is one. -/
def skipSecondFraction (cs : List Char) : List Char :=
  match cs with
  | '.' :: c :: rest => if c.isDigit then rest.dropWhile Char.isDigit else cs
  | _ => cs

/-- A time in the form `hours:minutes:seconds`. -/
def skipTime? (cs : List Char) : Skipped := do
  let (_, rest) ← readWidth? 2 0 23 cs
  let (_, rest) ← readWidth? 2 0 59 (← skip? ':' rest)
  let (_, rest) ← readWidth? 2 0 60 (← skip? ':' rest)
  some (skipSecondFraction rest)

/-- An offset from universal time, if there is one. -/
def skipOffset (cs : List Char) : List Char :=
  match cs with
  | 'Z' :: rest => rest
  | 'z' :: rest => rest
  | c :: rest =>
    if c == '+' || c == '-' then
      (do
        let (_, rest) ← readWidth? 2 0 23 rest
        let (_, rest) ← readWidth? 2 0 59 (← skip? ':' rest)
        some rest : Skipped).getD cs
    else cs
  | [] => []

/-- The time behind a date, if there is one. -/
def skipTimeOfDay (cs : List Char) : List Char :=
  match cs with
  | c :: rest =>
    if c == 'T' || c == 't' || c == ' ' then ((skipTime? rest).map skipOffset).getD cs else cs
  | [] => []

/-- A date, a time, or both. -/
def skipDate? (cs : List Char) : Skipped :=
  ((skipDay? cs).map skipTimeOfDay) <|> skipTime? cs

end BulkAssessment.Toml
