import BulkAssessment.Text.Blank
import BulkAssessment.Text.Integer

/-!
# Calendar dates

Dates of the proleptic Gregorian calendar, the years numbered with zero and negative
ones. A year is written with at least four digits, and with a sign unless it lies
between 0 and 9999.

Two forms are in use: cells hold `month/day/year` and the store holds
`year-month-day`. A cell is read leniently: blanks may stand in front of each number,
month and day have one or two digits, the year has up to four, or any number of them
behind a sign.
-/

namespace BulkAssessment

/-- A year, a month and a day. -/
structure Date where
  year : Int
  month : Nat
  day : Nat
  deriving DecidableEq, Repr

namespace Date

/-- Whether a year has a 29th of February. -/
def isLeap (year : Int) : Bool :=
  year % 4 == 0 && (year % 100 != 0 || year % 400 == 0)

/-- The number of days of a month. -/
def daysIn (year : Int) (month : Nat) : Nat :=
  if month = 2 then if isLeap year then 29 else 28
  else if month ∈ [4, 6, 9, 11] then 30
  else 31

/-- The years of the calendar. -/
def firstYear : Int := -262143

/-- The last year of the calendar. -/
def lastYear : Int := 262142

/-- A day of the calendar. -/
def IsValid (d : Date) : Prop :=
  firstYear ≤ d.year ∧ d.year ≤ lastYear ∧ 1 ≤ d.month ∧ d.month ≤ 12 ∧
    1 ≤ d.day ∧ d.day ≤ daysIn d.year d.month

instance (d : Date) : Decidable d.IsValid :=
  inferInstanceAs (Decidable (_ ∧ _))

/-! ## Writing -/

/-- A number with zeros in front to make up a width. -/
def padded (width n : Nat) : List Char :=
  let ds := Nat.toDigits 10 n
  List.replicate (width - ds.length) '0' ++ ds

/-- The text of a year. -/
def yearText (year : Int) : List Char :=
  if 0 ≤ year ∧ year ≤ 9999 then padded 4 year.toNat
  else (if year < 0 then '-' else '+') :: padded 4 year.natAbs

/-- The form of a cell, `month/day/year`. -/
def cellText (d : Date) : String :=
  String.ofList (padded 2 d.month ++ '/' :: padded 2 d.day ++ '/' :: yearText d.year)

/-- The form of the store, `year-month-day`. -/
def storedText (d : Date) : String :=
  String.ofList (yearText d.year ++ '-' :: padded 2 d.month ++ '-' :: padded 2 d.day)

/-! ## Reading -/

/-- A number of one to `width` digits, and what follows it. -/
def readDigits? (width : Nat) (cs : List Char) : Text.Reading Nat :=
  match Text.takeDigits 10 (cs.take width) with
  | ([], _) => none
  | (ds, _) => some (Text.valueIn 10 ds, cs.drop ds.length)

/-- A number behind blanks. -/
def readField? (width : Nat) (cs : List Char) : Text.Reading Nat :=
  readDigits? width (Text.trimLeft cs)

/-- A year behind blanks. -/
def readYear? (cs : List Char) : Text.Reading Int :=
  match Text.trimLeft cs with
  | '-' :: rest => (readDigits? rest.length rest).map fun (n, rest) => (-(n : Int), rest)
  | '+' :: rest => (readDigits? rest.length rest).map fun (n, rest) => ((n : Int), rest)
  | rest => (readDigits? 4 rest).map fun (n, rest) => ((n : Int), rest)

/-- The date of a cell in the form `month/day/year`. -/
def ofCell? (s : String) : Option Date := do
  let (month, rest) ← readField? 2 s.toList
  let (day, rest) ← readField? 2 (← Text.skip? '/' rest)
  let (year, rest) ← readYear? (← Text.skip? '/' rest)
  let d : Date := ⟨year, month, day⟩
  if rest = [] ∧ d.IsValid then some d else none

end Date

end BulkAssessment
