/-!
# Letter case

Case is folded for the ASCII letters only, so `É` and `é` stay different.
-/

namespace BulkAssessment.Text

/-- The text with its ASCII capitals made small. -/
def fold (s : String) : String :=
  String.ofList (s.toList.map Char.toLower)

/-- Equal up to the case of ASCII letters. -/
def sameFolded (a b : String) : Bool :=
  fold a == fold b

theorem sameFolded_iff {a b : String} : sameFolded a b = true ↔ fold a = fold b := by
  simp [sameFolded]

theorem sameFolded_refl (a : String) : sameFolded a a = true := by
  simp [sameFolded]

theorem fold_eq_empty_iff {s : String} : fold s = "" ↔ s = "" := by
  simp [fold]

theorem eq_empty_iff_of_sameFolded {a b : String} (h : sameFolded a b = true) :
    a = "" ↔ b = "" := by
  rw [← fold_eq_empty_iff, sameFolded_iff.1 h, fold_eq_empty_iff]

end BulkAssessment.Text
