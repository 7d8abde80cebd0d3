/-!
# Sets of texts

A set of texts is kept as its strictly increasing list, in the order of code points,
so two sets with the same members are the same value (`TextSet.ext_mem`).
-/

namespace BulkAssessment

/-- Put a text into an increasing list, unless it is there. -/
def insertText (x : String) : List String → List String
  | [] => [x]
  | y :: ys => if x < y then x :: y :: ys else if x = y then y :: ys else y :: insertText x ys

theorem mem_insertText {x z : String} {ys : List String} :
    z ∈ insertText x ys ↔ z = x ∨ z ∈ ys := by
  induction ys with
  | nil => simp [insertText]
  | cons y ys ih =>
    rw [insertText]
    split
    · simp
    · split
      · rename_i _ h
        simp [h]
      · simp only [List.mem_cons, ih]
        exact or_left_comm

theorem pairwise_insertText {x : String} {ys : List String} (h : ys.Pairwise (· < ·)) :
    (insertText x ys).Pairwise (· < ·) := by
  induction ys with
  | nil => simp [insertText]
  | cons y ys ih =>
    have ⟨hy, hys⟩ := List.pairwise_cons.1 h
    rw [insertText]
    split
    · rename_i hxy
      refine List.pairwise_cons.2 ⟨fun z hz => ?_, h⟩
      rcases List.mem_cons.1 hz with rfl | hz
      · exact hxy
      · exact String.lt_trans hxy (hy z hz)
    · split
      · exact h
      · rename_i hxy hne
        refine List.pairwise_cons.2 ⟨fun z hz => ?_, ih hys⟩
        rcases mem_insertText.1 hz with rfl | hz
        · exact Std.lt_of_le_of_ne (String.not_lt.1 hxy) (Ne.symm hne)
        · exact hy z hz

/-- A finite set of texts, listed in increasing order. -/
structure TextSet where
  toList : List String
  increasing : toList.Pairwise (· < ·)
  deriving DecidableEq, Repr

namespace TextSet

/-- The set without members. -/
def empty : TextSet := ⟨[], List.Pairwise.nil⟩

instance : EmptyCollection TextSet := ⟨empty⟩
instance : Inhabited TextSet := ⟨empty⟩

instance : Membership String TextSet := ⟨fun s x => x ∈ s.toList⟩

instance (x : String) (s : TextSet) : Decidable (x ∈ s) :=
  inferInstanceAs (Decidable (x ∈ s.toList))

/-- The set with one more member. -/
def insert (s : TextSet) (x : String) : TextSet :=
  ⟨insertText x s.toList, pairwise_insertText s.increasing⟩

/-- The members of either set. -/
def union (s t : TextSet) : TextSet :=
  t.toList.foldl insert s

/-- The members of the first set that are not in the second. -/
def diff (s t : TextSet) : TextSet :=
  ⟨s.toList.filter fun x => decide (x ∉ t), s.increasing.filter _⟩

/-- The set of the members of a list. -/
def ofList (xs : List String) : TextSet :=
  xs.foldl insert empty

@[simp] theorem not_mem_empty (x : String) : x ∉ (∅ : TextSet) := List.not_mem_nil

@[simp] theorem mem_insert {s : TextSet} {x y : String} : y ∈ s.insert x ↔ y = x ∨ y ∈ s :=
  mem_insertText

theorem mem_foldl_insert {xs : List String} {s : TextSet} {x : String} :
    x ∈ xs.foldl insert s ↔ x ∈ xs ∨ x ∈ s := by
  induction xs generalizing s with
  | nil => simp
  | cons y ys ih => simp [ih, or_left_comm, or_assoc]

@[simp] theorem mem_union {s t : TextSet} {x : String} : x ∈ s.union t ↔ x ∈ s ∨ x ∈ t :=
  mem_foldl_insert.trans or_comm

@[simp] theorem mem_diff {s t : TextSet} {x : String} : x ∈ s.diff t ↔ x ∈ s ∧ x ∉ t := by
  change x ∈ s.toList.filter _ ↔ x ∈ s.toList ∧ _
  simp

@[simp] theorem mem_ofList {xs : List String} {x : String} : x ∈ ofList xs ↔ x ∈ xs :=
  mem_foldl_insert.trans (or_iff_left (not_mem_empty x))

theorem eq_of_mem_iff {xs ys : List String} (hx : xs.Pairwise (· < ·)) (hy : ys.Pairwise (· < ·))
    (h : ∀ z, z ∈ xs ↔ z ∈ ys) : xs = ys := by
  induction xs generalizing ys with
  | nil =>
    cases ys with
    | nil => rfl
    | cons y ys => exact absurd ((h y).2 List.mem_cons_self) List.not_mem_nil
  | cons x xs ih =>
    cases ys with
    | nil => exact absurd ((h x).1 List.mem_cons_self) List.not_mem_nil
    | cons y ys =>
      have ⟨hx₁, hx₂⟩ := List.pairwise_cons.1 hx
      have ⟨hy₁, hy₂⟩ := List.pairwise_cons.1 hy
      have hxy : x = y := by
        rcases List.mem_cons.1 ((h x).1 List.mem_cons_self) with e | m
        · exact e
        · rcases List.mem_cons.1 ((h y).2 List.mem_cons_self) with e | n
          · exact e.symm
          · exact absurd (String.lt_trans (hy₁ x m) (hx₁ y n)) (String.lt_irrefl y)
      subst hxy
      congr 1
      refine ih hx₂ hy₂ fun z => ⟨fun m => ?_, fun m => ?_⟩
      · rcases List.mem_cons.1 ((h z).1 (List.mem_cons_of_mem _ m)) with rfl | n
        · exact absurd (hx₁ z m) (String.lt_irrefl z)
        · exact n
      · rcases List.mem_cons.1 ((h z).2 (List.mem_cons_of_mem _ m)) with rfl | n
        · exact absurd (hy₁ z m) (String.lt_irrefl z)
        · exact n

/-- Two sets with the same members are equal. -/
theorem ext_mem {s t : TextSet} (h : ∀ x, x ∈ s ↔ x ∈ t) : s = t := by
  have e : s.toList = t.toList := eq_of_mem_iff s.increasing t.increasing h
  cases s; cases t; cases e; rfl

end TextSet

end BulkAssessment
