import BulkAssessment.Date
import Mathlib.Data.List.Basic

/-!
# Dates are read back from their cells

A cell writes a date as `month/day/year`, each number with leading zeros to a fixed width, and
the year with a sign if it needs more digits than that. A reader that takes as many digits as
were written gets the number back and stops behind it (`Date.readDigits?_append`), and no blank
is written, so trimming a cell changes nothing. So every day of the calendar is read back from
its cell (`Date.ofCell?_cellText`).
-/

namespace BulkAssessment

namespace Text

theorem isBlank_of_isDigit {c : Char} (h : c.isDigit = true) : isBlank c = false := by
  have hbounds : 48 ≤ c.toNat ∧ c.toNat ≤ 57 := by
    simp only [Char.isDigit, Bool.and_eq_true, decide_eq_true_eq] at h
    exact ⟨UInt32.le_iff_toNat_le.1 h.1, UInt32.le_iff_toNat_le.1 h.2⟩
  rw [isBlank, List.any_eq_false]
  intro range hrange
  simp only [blankRanges, List.mem_cons, List.not_mem_nil, or_false] at hrange
  rcases hrange with rfl | rfl | rfl | rfl | rfl | rfl | rfl | rfl | rfl | rfl <;> simp <;> omega

/-- A text without blanks is its own trim. -/
theorem trim_eq_self {s : String} (h : ∀ c ∈ s.toList, isBlank c = false) : trim s = s := by
  have htight : Tight s :=
    ⟨fun c hc => h c (List.mem_of_mem_head? hc), fun c hc => h c (List.mem_of_mem_getLast? hc)⟩
  exact htight.trim_eq

end Text

namespace Date

/-! ## Numbers with leading zeros -/

theorem isDigit_of_mem_padded {width n : Nat} {c : Char} (h : c ∈ padded width n) :
    c.isDigit = true := by
  unfold padded at h
  rcases List.mem_append.1 h with hzero | hdigit
  · rw [List.eq_of_mem_replicate hzero]
    rfl
  · exact Text.isDigit_of_mem_toDigits hdigit

theorem padded_ne_nil (width n : Nat) : padded width n ≠ [] := by
  unfold padded
  exact List.append_ne_nil_of_right_ne_nil _ Nat.toDigits_ne_nil

theorem length_padded {width n : Nat} (h : (Nat.toDigits 10 n).length ≤ width) :
    (padded width n).length = width := by
  unfold padded
  rw [List.length_append, List.length_replicate]
  omega

/-- Leading zeros do not change a number. -/
theorem valueIn_padded (width n : Nat) :
    Text.valueIn 10 ((padded width n).map fun c => c.toNat - '0'.toNat) = n := by
  have hzeros (k : Nat) (ds : List Nat) :
      Text.valueIn 10 (List.replicate k 0 ++ ds) = Text.valueIn 10 ds := by
    induction k with
    | zero => rfl
    | succ k ih => exact ih
  unfold padded
  rw [List.map_append, List.map_replicate]
  exact (hzeros _ _).trans (Text.valueIn_toDigits n)

/-- As many digits as were written are read as the number that they spell. -/
theorem readDigits?_append {cs : List Char} (hne : cs ≠ []) (hdigits : ∀ c ∈ cs, c.isDigit = true)
    (rest : List Char) :
    readDigits? cs.length (cs ++ rest) =
      some (Text.valueIn 10 (cs.map fun c => c.toNat - '0'.toNat), rest) := by
  unfold readDigits?
  rw [List.take_left', Text.takeDigits_of_isDigit hdigits]
  · cases cs with
    | nil => exact absurd rfl hne
    | cons c cs =>
      rw [List.map_cons]
      dsimp only
      rw [List.length_cons, List.length_map, ← List.length_cons, List.drop_left']
      rfl
  · rfl

theorem readDigits?_padded (width n : Nat) (rest : List Char) :
    readDigits? (padded width n).length (padded width n ++ rest) = some (n, rest) := by
  rw [readDigits?_append (padded_ne_nil width n) fun c => isDigit_of_mem_padded, valueIn_padded]

/-! ## Fields -/

theorem trimLeft_padded_append (width n : Nat) (rest : List Char) :
    Text.trimLeft (padded width n ++ rest) = padded width n ++ rest := by
  cases hcs : padded width n with
  | nil => exact absurd hcs (padded_ne_nil width n)
  | cons c cs =>
    have hc := Text.isBlank_of_isDigit (isDigit_of_mem_padded (hcs ▸ List.mem_cons_self))
    rw [List.cons_append, Text.trimLeft, List.dropWhile_cons_of_neg (by simp [hc])]

theorem readField?_padded {n : Nat} (h : n < 100) (rest : List Char) :
    readField? 2 (padded 2 n ++ rest) = some (n, rest) := by
  have hlength := (Nat.length_toDigits_le_iff (b := 10) (by decide) (k := 2) (by decide)).2 h
  have hread := readDigits?_padded 2 n rest
  rw [length_padded hlength] at hread
  rw [readField?, trimLeft_padded_append, hread]

/-- A year without a sign has four digits, and one with a sign any number of them. -/
theorem readYear?_yearText (year : Int) : readYear? (yearText year) = some (year, []) := by
  have hread (n : Nat) : readDigits? (padded 4 n).length (padded 4 n) = some (n, []) := by
    simpa using readDigits?_padded 4 n []
  unfold yearText
  by_cases hplain : 0 ≤ year ∧ year ≤ 9999
  · have hbound : year.toNat < 10000 := by omega
    have hlength := length_padded
      ((Nat.length_toDigits_le_iff (b := 10) (by decide) (k := 4) (by decide)).2 hbound)
    have htrim : Text.trimLeft (padded 4 year.toNat) = padded 4 year.toNat := by
      simpa using trimLeft_padded_append 4 year.toNat []
    have hdigits := hread year.toNat
    rw [hlength] at hdigits
    rw [if_pos hplain, readYear?, htrim]
    split
    · rename_i rest hcs
      have hsign : '-' ∈ padded 4 year.toNat := hcs ▸ List.mem_cons_self
      exact absurd (isDigit_of_mem_padded hsign) (by decide)
    · rename_i rest hcs
      have hsign : '+' ∈ padded 4 year.toNat := hcs ▸ List.mem_cons_self
      exact absurd (isDigit_of_mem_padded hsign) (by decide)
    · rw [hdigits, Option.map_some]
      exact congrArg (fun y => some (y, [])) (Int.toNat_of_nonneg hplain.1)
  · rw [if_neg hplain]
    by_cases hnegative : year < 0
    · have htrim : Text.trimLeft ('-' :: padded 4 year.natAbs) = '-' :: padded 4 year.natAbs := rfl
      have hyear : -(year.natAbs : Int) = year := by omega
      rw [if_pos hnegative, readYear?, htrim]
      show (readDigits? (padded 4 year.natAbs).length (padded 4 year.natAbs)).map _ = _
      rw [hread, Option.map_some]
      exact congrArg (fun y => some (y, [])) hyear
    · have htrim : Text.trimLeft ('+' :: padded 4 year.natAbs) = '+' :: padded 4 year.natAbs := rfl
      have hyear : (year.natAbs : Int) = year := by omega
      rw [if_neg hnegative, readYear?, htrim]
      show (readDigits? (padded 4 year.natAbs).length (padded 4 year.natAbs)).map _ = _
      rw [hread, Option.map_some]
      exact congrArg (fun y => some (y, [])) hyear

/-! ## Cells -/

theorem isBlank_of_mem_yearText {year : Int} {c : Char} (h : c ∈ yearText year) :
    Text.isBlank c = false := by
  have hpadded (n : Nat) (hc : c ∈ padded 4 n) : Text.isBlank c = false :=
    Text.isBlank_of_isDigit (isDigit_of_mem_padded hc)
  unfold yearText at h
  split at h
  · exact hpadded _ h
  · rcases List.mem_cons.1 h with rfl | hc
    · split <;> decide
    · exact hpadded _ hc

/-- No blank is written into a cell. -/
theorem trim_cellText (d : Date) : Text.trim d.cellText = d.cellText := by
  refine Text.trim_eq_self fun c hc => ?_
  have hpadded (n : Nat) (hc : c ∈ padded 2 n) : Text.isBlank c = false :=
    Text.isBlank_of_isDigit (isDigit_of_mem_padded hc)
  have hslash : Text.isBlank '/' = false := by decide
  unfold cellText at hc
  rw [String.toList_ofList, List.append_assoc, List.cons_append] at hc
  rcases List.mem_append.1 hc with hmonth | hrest
  · exact hpadded _ hmonth
  · rcases List.mem_cons.1 hrest with rfl | hrest
    · exact hslash
    · rcases List.mem_append.1 hrest with hday | hrest
      · exact hpadded _ hday
      · rcases List.mem_cons.1 hrest with rfl | hyear
        · exact hslash
        · exact isBlank_of_mem_yearText hyear

theorem cellText_isEmpty (d : Date) : d.cellText.isEmpty = false := by
  rw [Bool.eq_false_iff, ne_eq, String.isEmpty_iff, ← String.toList_inj, cellText,
    String.toList_ofList, List.append_assoc]
  exact List.append_ne_nil_of_left_ne_nil (padded_ne_nil 2 d.month) _

/-- Every day of the calendar is read back from its cell. -/
theorem ofCell?_cellText {d : Date} (h : d.IsValid) : ofCell? d.cellText = some d := by
  have hmonth : d.month < 100 := by
    have := h.2.2.2.1
    omega
  have hday : d.day < 100 := by
    have hle := h.2.2.2.2.2
    have hlength : daysIn d.year d.month ≤ 31 := by
      unfold daysIn
      split_ifs <;> omega
    omega
  unfold ofCell? cellText
  rw [String.toList_ofList, List.append_assoc, readField?_padded hmonth]
  simp only [Option.bind_eq_bind, Option.bind_some, List.cons_append, Text.skip?, if_true,
    readField?_padded hday,
    readYear?_yearText, true_and]
  rw [if_pos h]

end Date

end BulkAssessment
