import BulkAssessment.Text.Reading

/-!
# Integers as texts

Ids are signed integers of 64 bits. They are written in decimal with a minus sign
for the negative ones; what is read may carry a plus sign and leading zeros, and a
number outside the range is no id.
-/

namespace BulkAssessment.Text

/-- The integers that 64 bits hold. -/
def InRange64 (n : Int) : Prop :=
  -9223372036854775808 ≤ n ∧ n ≤ 9223372036854775807

instance (n : Int) : Decidable (InRange64 n) :=
  inferInstanceAs (Decidable (_ ∧ _))

/-- The number that one or more digits spell, with nothing behind them. -/
def nat? (cs : List Char) : Option Nat :=
  match takeDigits 10 cs with
  | (d :: ds, []) => some (valueIn 10 (d :: ds))
  | _ => none

/-- An optional sign and digits. -/
def signed? : List Char → Option Int
  | '-' :: cs => (nat? cs).map fun n => -(n : Int)
  | '+' :: cs => (nat? cs).map Int.ofNat
  | cs => (nat? cs).map Int.ofNat

/-- The id that a text spells, if it is in the range of 64 bits. -/
def readId? (s : String) : Option Int :=
  (signed? s.toList).filter fun n => decide (InRange64 n)

/-- The decimal digits of a number. -/
def natText (n : Nat) : String :=
  String.ofList (Nat.toDigits 10 n)

/-- The decimal text of an integer. -/
def intText : Int → String
  | .ofNat n => natText n
  | .negSucc n => "-" ++ natText (n + 1)

theorem isDigit_of_mem_toDigits {n : Nat} {c : Char} (h : c ∈ Nat.toDigits 10 n) :
    c.isDigit = true :=
  Nat.isDigit_of_mem_toDigits (by decide) (by decide) h

theorem nat?_toDigits (n : Nat) : nat? (Nat.toDigits 10 n) = some n := by
  have hv := valueIn_toDigits n
  rw [nat?, takeDigits_of_isDigit fun c => isDigit_of_mem_toDigits]
  cases hd : Nat.toDigits 10 n with
  | nil => exact absurd hd Nat.toDigits_ne_nil
  | cons c cs =>
    rw [hd, List.map_cons] at hv
    rw [List.map_cons]
    exact congrArg some hv

theorem signed?_of_isDigit {c : Char} {cs : List Char} (h : c.isDigit = true) :
    signed? (c :: cs) = (nat? (c :: cs)).map Int.ofNat := by
  rw [signed?]
  · rintro rest ⟨⟩
    exact absurd h (by decide)
  · rintro rest ⟨⟩
    exact absurd h (by decide)

theorem signed?_toDigits (n : Nat) : signed? (Nat.toDigits 10 n) = some (n : Int) := by
  have hn := nat?_toDigits n
  cases hd : Nat.toDigits 10 n with
  | nil => exact absurd hd Nat.toDigits_ne_nil
  | cons c cs =>
    have hc : c.isDigit = true := isDigit_of_mem_toDigits (hd ▸ List.mem_cons_self)
    rw [hd] at hn
    rw [signed?_of_isDigit hc, hn]
    rfl

/-- Every integer is spelled by its text. -/
theorem signed?_intText (n : Int) : signed? (intText n).toList = some n := by
  cases n with
  | ofNat k =>
    rw [intText, natText, String.toList_ofList]
    exact signed?_toDigits k
  | negSucc k =>
    have htext : (intText (.negSucc k)).toList = '-' :: Nat.toDigits 10 (k + 1) := by
      simp [intText, natText]
    rw [htext, signed?, nat?_toDigits]
    rfl

theorem intText_inj {m n : Int} (h : intText m = intText n) : m = n := by
  have hspelled := signed?_intText m
  rw [h, signed?_intText n] at hspelled
  exact (Option.some.inj hspelled).symm

/-- An id is read back from its text. -/
theorem readId?_intText {n : Int} (h : InRange64 n) : readId? (intText n) = some n := by
  rw [readId?, signed?_intText, Option.filter_some, if_pos (by simpa using h)]

end BulkAssessment.Text
