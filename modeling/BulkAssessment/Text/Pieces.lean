import BulkAssessment.Text.Blank

/-!
# Cutting texts apart and joining them

`pieces sep s` cuts a text at every occurrence of a character, so `n` occurrences
make `n + 1` pieces and the empty text is one empty piece. `join` puts a text
between the members of a list. Cutting what was joined gives the members back as
long as none of them holds the character, and otherwise what cutting each of them gives.

`filledPieces sep s` leaves the blank pieces out and takes the blanks off the others. So it
does not matter for it whether blanks are taken off the whole text first.
-/

namespace BulkAssessment.Text

/-- The runs of characters between the occurrences of `sep`. -/
def cut (sep : Char) : List Char → List (List Char)
  | [] => [[]]
  | c :: cs =>
    if c = sep then [] :: cut sep cs
    else match cut sep cs with
      | [] => [[c]]
      | run :: runs => (c :: run) :: runs

/-- The pieces of a text between the occurrences of `sep`. -/
def pieces (sep : Char) (s : String) : List String :=
  (cut sep s.toList).map String.ofList

/-- The members of a list with `sep` between neighbours. -/
def join (sep : String) : List String → String
  | [] => ""
  | [s] => s
  | s :: rest => s ++ sep ++ join sep rest

/-- As many question marks as a query has parameters, with commas between them. -/
def placeholders (count : Nat) : String :=
  join ", " (List.replicate count "?")

/-- The trimmed pieces that are not empty. -/
def filledPieces (sep : Char) (s : String) : List String :=
  ((pieces sep s).map trim).filter fun piece => !piece.isEmpty

theorem cut_ne_nil (sep : Char) (cs : List Char) : cut sep cs ≠ [] := by
  cases cs with
  | nil => simp [cut]
  | cons c cs =>
    rw [cut]
    split
    · simp
    · split <;> simp

theorem cut_eq_singleton {sep : Char} {cs : List Char} (h : sep ∉ cs) : cut sep cs = [cs] := by
  induction cs with
  | nil => rfl
  | cons c cs ih =>
    have hc : c ≠ sep := fun e => h (e ▸ List.mem_cons_self)
    rw [cut, if_neg hc, ih fun m => h (List.mem_cons_of_mem _ m)]

theorem cut_append (sep : Char) (cs rest : List Char) :
    cut sep (cs ++ sep :: rest) = cut sep cs ++ cut sep rest := by
  induction cs with
  | nil => simp [cut]
  | cons c cs ih =>
    rw [List.cons_append, cut, cut, ih]
    split
    · rfl
    · cases hcs : cut sep cs with
      | nil => exact absurd hcs (cut_ne_nil sep cs)
      | cons run runs => rfl

/-- Any other character goes to the last run. -/
theorem cut_concat {sep c : Char} (hc : c ≠ sep) (cs : List Char) :
    ∃ runs run, cut sep cs = runs ++ [run] ∧ cut sep (cs ++ [c]) = runs ++ [run ++ [c]] := by
  induction cs with
  | nil => exact ⟨[], [], rfl, by simp [cut, hc]⟩
  | cons d cs ih =>
    obtain ⟨runs, run, hcs, hcsc⟩ := ih
    rw [List.cons_append, cut, cut, hcs, hcsc]
    split
    · exact ⟨[] :: runs, run, rfl, rfl⟩
    · cases runs with
      | nil => exact ⟨[], d :: run, rfl, rfl⟩
      | cons first runs => exact ⟨(d :: first) :: runs, run, rfl, rfl⟩

/-- No run holds what is cut at. -/
theorem not_mem_of_mem_cut {sep : Char} {cs run : List Char} (h : run ∈ cut sep cs) :
    sep ∉ run := by
  induction cs generalizing run with
  | nil =>
    obtain rfl := List.mem_singleton.1 h
    exact List.not_mem_nil
  | cons c cs ih =>
    rw [cut] at h
    split at h
    · rcases List.mem_cons.1 h with rfl | h
      · exact List.not_mem_nil
      · exact ih h
    · rename_i hc
      cases hcs : cut sep cs with
      | nil => exact absurd hcs (cut_ne_nil sep cs)
      | cons first runs =>
        rw [hcs] at h ih
        rcases List.mem_cons.1 h with rfl | h
        · exact List.not_mem_cons_of_ne_of_not_mem (Ne.symm hc) (ih List.mem_cons_self)
        · exact ih (List.mem_cons_of_mem _ h)

theorem not_mem_of_mem_pieces {sep : Char} {s piece : String} (h : piece ∈ pieces sep s) :
    sep ∉ piece.toList := by
  obtain ⟨run, hrun, rfl⟩ := List.mem_map.1 h
  rw [String.toList_ofList]
  exact not_mem_of_mem_cut hrun

/-! ## Cutting what was joined -/

theorem pieces_eq_singleton {sep : Char} {s : String} (h : sep ∉ s.toList) :
    pieces sep s = [s] := by
  rw [pieces, cut_eq_singleton h, List.map_singleton, String.ofList_toList]

/-- What was joined is cut where it was joined and where its members are. -/
theorem pieces_join_eq_flatMap {sep : Char} {xs : List String} (hne : xs ≠ []) :
    pieces sep (join (String.singleton sep) xs) = xs.flatMap (pieces sep) := by
  induction xs with
  | nil => exact absurd rfl hne
  | cons x xs ih =>
    cases xs with
    | nil => rw [join, List.flatMap_singleton]
    | cons y ys =>
      have hjoin : (join (String.singleton sep) (x :: y :: ys)).toList =
          x.toList ++ sep :: (join (String.singleton sep) (y :: ys)).toList := by
        simp [join]
      rw [List.flatMap_cons, ← ih (List.cons_ne_nil _ _), pieces, hjoin, cut_append,
        List.map_append, ← pieces, ← pieces]

/-- Members that give themselves alone. -/
theorem flatMap_eq_self {f : String → List String} {xs : List String} (h : ∀ x ∈ xs, f x = [x]) :
    xs.flatMap f = xs := by
  rw [List.flatMap_def, List.map_congr_left h, ← List.flatMap_def]
  exact List.flatMap_singleton' xs

theorem pieces_join {sep : Char} {xs : List String} (hne : xs ≠ [])
    (h : ∀ x ∈ xs, sep ∉ x.toList) : pieces sep (join (String.singleton sep) xs) = xs := by
  rw [pieces_join_eq_flatMap hne, flatMap_eq_self fun x hx => pieces_eq_singleton (h x hx)]

/-! ## Filled pieces -/

/-- The texts of runs that are not blank, without the blanks around them. -/
def filledRuns (runs : List (List Char)) : List String :=
  ((runs.map String.ofList).map trim).filter fun piece => !piece.isEmpty

theorem filledRuns_append (runs more : List (List Char)) :
    filledRuns (runs ++ more) = filledRuns runs ++ filledRuns more := by
  simp [filledRuns]

/-- Only the trimmed texts of the runs count. -/
theorem filledRuns_singleton (run : List Char) :
    filledRuns [run] = [trim (String.ofList run)].filter fun piece => !piece.isEmpty := rfl

theorem filledRuns_cons (run : List Char) (runs : List (List Char)) :
    filledRuns (run :: runs) = filledRuns [run] ++ filledRuns runs :=
  filledRuns_append [run] runs

theorem filledPieces_eq (sep : Char) (s : String) :
    filledPieces sep s = filledRuns (cut sep s.toList) := rfl

theorem filledRuns_cut_cons {c : Char} (h : isBlank c = true) (sep : Char) (cs : List Char) :
    filledRuns (cut sep (c :: cs)) = filledRuns (cut sep cs) := by
  rw [cut]
  split
  · rfl
  · cases hcs : cut sep cs with
    | nil => exact absurd hcs (cut_ne_nil sep cs)
    | cons run runs =>
      rw [filledRuns_cons, filledRuns_cons run, filledRuns_singleton, filledRuns_singleton,
        trim_ofList_cons h]

theorem filledRuns_cut_concat {c : Char} (h : isBlank c = true) (sep : Char) (cs : List Char) :
    filledRuns (cut sep (cs ++ [c])) = filledRuns (cut sep cs) := by
  by_cases hc : c = sep
  · rw [hc, cut_append, filledRuns_append]
    exact List.append_nil _
  · obtain ⟨runs, run, hcs, hcsc⟩ := cut_concat hc cs
    rw [hcs, hcsc, filledRuns_append, filledRuns_append, filledRuns_singleton,
      filledRuns_singleton, trim_ofList_concat h]

/-- Blanks around a text are no part of its filled pieces. -/
theorem filledPieces_trim (sep : Char) (s : String) :
    filledPieces sep (trim s) = filledPieces sep s := by
  have hleft (cs : List Char) :
      filledRuns (cut sep (trimLeft cs)) = filledRuns (cut sep cs) := by
    induction cs with
    | nil => rfl
    | cons c cs ih =>
      rw [trimLeft, List.dropWhile_cons]
      split
      · rename_i hc
        rw [filledRuns_cut_cons hc, ← ih, trimLeft]
      · rfl
  have hright (cs : List Char) :
      filledRuns (cut sep (trimLeft cs).reverse) = filledRuns (cut sep cs.reverse) := by
    induction cs with
    | nil => rfl
    | cons c cs ih =>
      rw [trimLeft, List.dropWhile_cons]
      split
      · rename_i hc
        rw [List.reverse_cons, filledRuns_cut_concat hc, ← ih, trimLeft]
      · rfl
  rw [filledPieces_eq, filledPieces_eq, trim, String.toList_ofList, trimRight, hright,
    List.reverse_reverse, hleft]

theorem ne_empty_of_mem_filledPieces {sep : Char} {s piece : String}
    (h : piece ∈ filledPieces sep s) : piece ≠ "" := by
  simpa using (List.mem_filter.1 h).2

/-- A text that is one filled piece. -/
theorem filledPieces_eq_singleton {sep : Char} {s : String} (hsep : sep ∉ s.toList)
    (htrim : trim s = s) (hne : s ≠ "") : filledPieces sep s = [s] := by
  rw [filledPieces, pieces_eq_singleton hsep, List.map_singleton, htrim]
  exact List.filter_cons_of_pos (by simpa using hne)

/-- The filled pieces of what was joined are those of its members. -/
theorem filledPieces_join (sep : Char) (xs : List String) :
    filledPieces sep (join (String.singleton sep) xs) = xs.flatMap (filledPieces sep) := by
  by_cases hne : xs = []
  · rw [hne]
    rfl
  · unfold filledPieces
    rw [pieces_join_eq_flatMap hne, List.map_flatMap, List.filter_flatMap]

end BulkAssessment.Text
