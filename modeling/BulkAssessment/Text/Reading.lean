/-!
# Reading from the front of a text

A reader takes characters off the front of a text and gives what it has read with what
follows it, or nothing if the text does not begin as it should. The readers here are
for a single character and for the digits of a base up to sixteen.
-/

namespace BulkAssessment.Text

/-- What a reader gives for a text. -/
abbrev Reading (α : Type) := Option (α × List Char)

/-- What follows a given character. -/
def skip? (c : Char) : List Char → Option (List Char)
  | d :: rest => if d = c then some rest else none
  | [] => none

/-- The value of a digit of a base, letters counting from ten on in either case. -/
def digitIn? (base : Nat) (c : Char) : Option Nat :=
  (if '0' ≤ c ∧ c ≤ '9' then some (c.toNat - '0'.toNat)
    else if 'a' ≤ c ∧ c ≤ 'f' then some (c.toNat - 'a'.toNat + 10)
    else if 'A' ≤ c ∧ c ≤ 'F' then some (c.toNat - 'A'.toNat + 10)
    else none).filter fun d => decide (d < base)

/-- A digit of a base. -/
def isDigitIn (base : Nat) (c : Char) : Bool :=
  (digitIn? base c).isSome

/-- The values of the digits in front of a text, and what follows them. -/
def takeDigits (base : Nat) (cs : List Char) : List Nat × List Char :=
  ((cs.takeWhile (isDigitIn base)).filterMap (digitIn? base), cs.dropWhile (isDigitIn base))

/-- The number that digits spell. -/
def valueIn (base : Nat) (ds : List Nat) : Nat :=
  ds.foldl (fun acc d => base * acc + d) 0

theorem digitIn?_of_isDigit {c : Char} (h : c.isDigit = true) :
    digitIn? 10 c = some (c.toNat - '0'.toNat) := by
  have hc : '0' ≤ c ∧ c ≤ '9' := by
    simp only [Char.isDigit, Bool.and_eq_true, decide_eq_true_eq] at h
    exact h
  have hlt : c.toNat - '0'.toNat < 10 := by
    have hle : c.toNat ≤ 57 := UInt32.le_iff_toNat_le.1 hc.2
    change c.toNat - 48 < 10
    omega
  rw [digitIn?, if_pos hc, Option.filter_some, if_pos (by simpa using hlt)]

theorem takeDigits_of_isDigit {cs : List Char} (h : ∀ c ∈ cs, c.isDigit = true) :
    takeDigits 10 cs = (cs.map fun c => c.toNat - '0'.toNat, []) := by
  induction cs with
  | nil => rfl
  | cons c cs ih =>
    have hc := digitIn?_of_isDigit (h c List.mem_cons_self)
    have hd : isDigitIn 10 c = true := by rw [isDigitIn, hc]; rfl
    have ih := ih fun d m => h d (List.mem_cons_of_mem _ m)
    simp only [takeDigits, Prod.mk.injEq] at ih ⊢
    rw [List.takeWhile_cons_of_pos hd, List.dropWhile_cons_of_pos hd,
      List.filterMap_cons_some hc, List.map_cons, ih.1]
    exact ⟨rfl, ih.2⟩

/-- The digits that core writes for a number spell that number. -/
theorem valueIn_toDigits (n : Nat) :
    valueIn 10 ((Nat.toDigits 10 n).map fun c => c.toNat - '0'.toNat) = n := by
  rw [valueIn, List.foldl_map]
  exact Nat.ofDigitChars_toDigits (by decide) (by decide)

end BulkAssessment.Text
