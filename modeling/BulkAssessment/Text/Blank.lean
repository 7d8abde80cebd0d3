/-!
# Blank characters and trimming

The blank characters are those with the Unicode property `White_Space`: the ASCII
blanks, the next-line character, the no-break space and the spaces of the general
punctuation block. The zero-width space and the byte order mark are not blank.

Trimming takes blanks off both ends of a text and leaves the inside alone.
-/

namespace BulkAssessment.Text

/-- The code points with the property `White_Space`, as inclusive ranges. -/
def blankRanges : List (Nat × Nat) :=
  [(0x09, 0x0D), (0x20, 0x20), (0x85, 0x85), (0xA0, 0xA0), (0x1680, 0x1680),
   (0x2000, 0x200A), (0x2028, 0x2029), (0x202F, 0x202F), (0x205F, 0x205F),
   (0x3000, 0x3000)]

/-- A character with the Unicode property `White_Space`. -/
def isBlank (c : Char) : Bool :=
  blankRanges.any fun r => decide (r.1 ≤ c.toNat) && decide (c.toNat ≤ r.2)

/-- The characters without the blanks in front. -/
def trimLeft (cs : List Char) : List Char :=
  cs.dropWhile isBlank

/-- The characters without the blanks behind. -/
def trimRight (cs : List Char) : List Char :=
  (trimLeft cs.reverse).reverse

/-- The text without the blanks at its two ends. -/
def trim (s : String) : String :=
  String.ofList (trimRight (trimLeft s.toList))

/-- The text without the run of a character at its end. -/
def trimEndOf (c : Char) (s : String) : String :=
  String.ofList (s.toList.reverse.dropWhile fun d => d == c).reverse

example : (blankRanges.map fun r => r.2 + 1 - r.1).sum = 25 := by decide

/-- Nothing but blanks. -/
def IsBlankText (s : String) : Prop :=
  ∀ c ∈ s.toList, isBlank c = true

theorem trimLeft_eq_nil_iff {cs : List Char} :
    trimLeft cs = [] ↔ ∀ c ∈ cs, isBlank c = true := by
  induction cs with
  | nil => simp [trimLeft]
  | cons c cs ih =>
    rw [trimLeft] at ih ⊢
    by_cases h : isBlank c = true
    · rw [List.dropWhile_cons_of_pos h, ih]
      simp [h]
    · rw [List.dropWhile_cons_of_neg h]
      simp [h]

theorem trimRight_eq_nil_iff {cs : List Char} :
    trimRight cs = [] ↔ ∀ c ∈ cs, isBlank c = true := by
  simp [trimRight, trimLeft_eq_nil_iff]

theorem trim_eq_empty_iff {s : String} : trim s = "" ↔ IsBlankText s := by
  have hnil : trim s = "" ↔ trimRight (trimLeft s.toList) = [] := by
    rw [← String.toList_inj]
    simp [trim]
  rw [hnil, IsBlankText, ← trimLeft_eq_nil_iff]
  refine ⟨fun h => ?_, fun h => by rw [h]; rfl⟩
  by_cases hne : trimLeft s.toList = []
  · exact hne
  · have hblank := trimRight_eq_nil_iff.1 h _ (List.head_mem hne)
    have hhead : isBlank ((trimLeft s.toList).head hne) = false :=
      List.head_dropWhile_not isBlank hne
    rw [hhead] at hblank
    contradiction

/-- A blank in front of a text is as good as none. -/
theorem trim_ofList_cons {c : Char} (h : isBlank c = true) (cs : List Char) :
    trim (String.ofList (c :: cs)) = trim (String.ofList cs) := by
  rw [trim, trim, String.toList_ofList, String.toList_ofList, trimLeft,
    List.dropWhile_cons_of_pos h, ← trimLeft]

theorem trimRight_concat (cs : List Char) (c : Char) :
    trimRight (cs ++ [c]) = if isBlank c then trimRight cs else cs ++ [c] := by
  rw [trimRight, trimLeft, List.reverse_append, List.reverse_singleton, List.singleton_append,
    List.dropWhile_cons]
  split
  · rfl
  · rw [List.reverse_cons, List.reverse_reverse]

/-- So is a blank behind it. -/
theorem trim_ofList_concat {c : Char} (h : isBlank c = true) (cs : List Char) :
    trim (String.ofList (cs ++ [c])) = trim (String.ofList cs) := by
  rw [trim, trim, String.toList_ofList, String.toList_ofList]
  by_cases hcs : trimLeft cs = []
  · -- nothing but blanks on both sides
    have hboth : trimLeft (cs ++ [c]) = [] := by
      rw [trimLeft_eq_nil_iff] at hcs ⊢
      simpa [or_imp, forall_and] using ⟨hcs, h⟩
    rw [hcs, hboth]
  · have hfront : trimLeft (cs ++ [c]) = trimLeft cs ++ [c] := by
      rw [trimLeft, List.dropWhile_append, ← trimLeft, if_neg (by simpa using hcs)]
    rw [hfront, trimRight_concat, if_pos h]

/-! ## Trimmed texts -/

/-- Neither the first nor the last character is blank. -/
structure Tight (s : String) : Prop where
  head : ∀ c ∈ s.toList.head?, isBlank c = false
  last : ∀ c ∈ s.toList.getLast?, isBlank c = false

theorem head?_trimLeft {cs : List Char} {c : Char} (h : c ∈ (trimLeft cs).head?) :
    isBlank c = false := by
  have hnot := List.head?_dropWhile_not isBlank cs
  rw [← trimLeft, Option.mem_def.1 h] at hnot
  exact hnot

theorem trimRight_isPrefix (cs : List Char) : trimRight cs <+: cs := by
  have hsuffix : trimLeft cs.reverse <:+ cs.reverse := List.dropWhile_suffix isBlank
  simpa [trimRight] using List.reverse_prefix.2 hsuffix

/-- Nothing is left to trim of a trimmed text. -/
theorem tight_trim (s : String) : Tight (trim s) := by
  constructor
  · intro c hc
    obtain ⟨rest, hrest⟩ := trimRight_isPrefix (trimLeft s.toList)
    rw [trim, String.toList_ofList] at hc
    have hfirst : c ∈ (trimLeft s.toList).head? := by
      rw [← hrest, List.head?_append]
      simp [Option.mem_def.1 hc]
    exact head?_trimLeft hfirst
  · intro c hc
    rw [trim, String.toList_ofList, trimRight, List.getLast?_reverse] at hc
    exact head?_trimLeft hc

theorem trimLeft_eq_self_of_head {cs : List Char} (h : ∀ c ∈ cs.head?, isBlank c = false) :
    trimLeft cs = cs := by
  cases cs with
  | nil => rfl
  | cons c cs =>
    have hc := h c rfl
    rw [trimLeft, List.dropWhile_cons_of_neg (by simp [hc])]

theorem Tight.trim_eq {s : String} (h : Tight s) : trim s = s := by
  have hright : trimRight s.toList = s.toList := by
    rw [trimRight, trimLeft_eq_self_of_head, List.reverse_reverse]
    simpa using h.last
  rw [trim, trimLeft_eq_self_of_head h.head, hright, String.ofList_toList]

theorem trim_trim (s : String) : trim (trim s) = trim s :=
  (tight_trim s).trim_eq

theorem Tight.append {s t : String} (hs : Tight s) (ht : Tight t) : Tight (s ++ t) := by
  constructor
  · intro c hc
    rw [String.toList_append, List.head?_append] at hc
    rcases Option.or_eq_some_iff.1 hc with hfirst | ⟨-, hsecond⟩
    · exact hs.head c hfirst
    · exact ht.head c hsecond
  · intro c hc
    rw [String.toList_append, List.getLast?_append] at hc
    rcases Option.or_eq_some_iff.1 hc with hsecond | ⟨-, hfirst⟩
    · exact ht.last c hsecond
    · exact hs.last c hfirst

end BulkAssessment.Text
