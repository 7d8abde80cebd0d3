import BulkAssessment.Proofs.ReadBack
import Mathlib.Data.List.DropRight
import Mathlib.Data.List.Induction

/-!
# Blocks as one list of rows

Blocks that are written as one list of rows are cut out of it again if and only if none of them
has a marker among its data rows (`Block.split_flatten_iff`). A header may be a marker: the row
after a marker is taken for its header whatever it holds. No block that is built from stubs has
such a row, since its rows have a cell for each of several columns (`Block.Built`).

The other way round, rows that are cut into blocks are written again from the first marker on, but
for a marker at the end that is left without a header (`Block.flatten_split`).
-/

namespace BulkAssessment

namespace Block

variable {row : Row} {rows : List Row} {b : Block} {blocks : List Block}

/-! ## Markers -/

/-- The last row is a marker that is still without a header. The row after a marker is its
header, so that it is no marker in its turn, whatever it holds. -/
def awaitsHeader (rows : List Row) : Bool :=
  rows.foldl (fun awaits row => !awaits && !isData row) false

/-- The rows from the first marker on, without one that is left without a header at the end. -/
def framed (rows : List Row) : List Row :=
  if awaitsHeader rows then (rows.dropWhile isData).dropLast else rows.dropWhile isData

/-- The number of markers that rows end with. -/
def markersAtEnd (rows : List Row) : Nat :=
  (rows.rtakeWhile fun row => !isData row).length

@[simp] theorem isData_marker : isData marker = false := by decide

theorem isData_eq_true_iff : isData row = true ↔ row ≠ marker := by
  simp [isData]

theorem eq_marker_of_not_isData (h : ¬isData row = true) : row = marker := by
  simpa [isData] using h

theorem marker_not_mem_iff : marker ∉ rows ↔ ∀ row ∈ rows, isData row = true := by
  simp only [isData_eq_true_iff]
  exact ⟨fun h row hrow heq => h (heq ▸ hrow), fun h hmem => h marker hmem rfl⟩

theorem split_marker_cons (header : Row) (data : List Row) :
    split (marker :: header :: data) =
      ⟨header, data.takeWhile isData⟩ :: split (data.dropWhile isData) := by
  rw [split, isData_marker]
  rfl

/-! ## Cutting out what was written -/

theorem takeWhile_flatten (blocks : List Block) : (flatten blocks).takeWhile isData = [] := by
  cases blocks with
  | nil => rfl
  | cons b bs => rfl

theorem dropWhile_flatten (blocks : List Block) :
    (flatten blocks).dropWhile isData = flatten blocks := by
  cases blocks with
  | nil => rfl
  | cons b bs => rfl

theorem split_flatten (h : ∀ b ∈ blocks, marker ∉ b.rows) : split (flatten blocks) = blocks := by
  induction blocks with
  | nil => rw [flatten, List.flatMap_nil, split]
  | cons b bs ih =>
    obtain ⟨hb, hbs⟩ := List.forall_mem_cons.1 h
    have hdata : ∀ row ∈ b.rows, isData row = true := marker_not_mem_iff.1 hb
    have hrows : flatten (b :: bs) = marker :: b.header :: (b.rows ++ flatten bs) := rfl
    rw [hrows, split_marker_cons, List.takeWhile_append_of_pos hdata,
      List.dropWhile_append_of_pos hdata, takeWhile_flatten, dropWhile_flatten, List.append_nil,
      ih hbs]

/-- The rows of a block that is cut out end before the next marker. -/
theorem marker_not_mem_of_mem_split (h : b ∈ split rows) : marker ∉ b.rows := by
  fun_induction split rows with
  | case1 => cases h
  | case2 row rest hrow ih => exact ih h
  | case3 row hrow => cases h
  | case4 row hrow header data ih =>
    rcases List.mem_cons.1 h with rfl | hlater
    · exact marker_not_mem_iff.2 fun row hrow => List.mem_takeWhile_imp hrow
    · exact ih hlater

theorem split_flatten_iff : split (flatten blocks) = blocks ↔ ∀ b ∈ blocks, marker ∉ b.rows := by
  refine ⟨fun h b hb => ?_, split_flatten⟩
  rw [← h] at hb
  exact marker_not_mem_of_mem_split hb

/-! ## Writing what was cut out -/

theorem awaitsHeader_data_cons (h : isData row = true) :
    awaitsHeader (row :: rows) = awaitsHeader rows := by
  simp [awaitsHeader, h]

theorem awaitsHeader_marker_cons (header : Row) (data : List Row) :
    awaitsHeader (marker :: header :: data) = awaitsHeader data := by
  simp [awaitsHeader]

theorem awaitsHeader_dropWhile (rows : List Row) :
    awaitsHeader (rows.dropWhile isData) = awaitsHeader rows := by
  induction rows with
  | nil => rfl
  | cons row rows ih =>
    by_cases h : isData row = true
    · rw [List.dropWhile_cons_of_pos h, ih, awaitsHeader_data_cons h]
    · rw [List.dropWhile_cons_of_neg h]

theorem framed_data_cons (h : isData row = true) : framed (row :: rows) = framed rows := by
  rw [framed, framed, awaitsHeader_data_cons h, List.dropWhile_cons_of_pos h]

theorem framed_marker_cons (header : Row) (data : List Row) :
    framed (marker :: header :: data) =
      marker :: header :: (data.takeWhile isData ++ framed (data.dropWhile isData)) := by
  have hdata : data.takeWhile isData ++ data.dropWhile isData = data :=
    List.takeWhile_append_dropWhile
  rw [framed, framed, List.dropWhile_cons_of_neg (by simp), awaitsHeader_marker_cons,
    awaitsHeader_dropWhile, List.dropWhile_idempotent]
  by_cases hawaits : awaitsHeader data = true
  · -- a marker waits, so that the last row is not one of the rows under this header
    have hrest : data.dropWhile isData ≠ [] := by
      intro hnil
      rw [← awaitsHeader_dropWhile, hnil] at hawaits
      cases hawaits
    have hne : data ≠ [] := by
      rintro rfl
      exact hrest rfl
    rw [if_pos hawaits, if_pos hawaits, ← List.dropLast_append_of_ne_nil hrest, hdata,
      List.dropLast_cons_of_ne_nil (List.cons_ne_nil _ _), List.dropLast_cons_of_ne_nil hne]
  · rw [if_neg hawaits, if_neg hawaits, hdata]

theorem flatten_split (rows : List Row) : flatten (split rows) = framed rows := by
  fun_induction split rows with
  | case1 => rfl
  | case2 row rest hrow ih => rw [ih, framed_data_cons hrow]
  | case3 row hrow =>
    obtain rfl := eq_marker_of_not_isData hrow
    rfl
  | case4 row hrow header data ih =>
    obtain rfl := eq_marker_of_not_isData hrow
    rw [framed_marker_cons, ← ih]
    rfl

theorem awaitsHeader_concat (rows : List Row) (row : Row) :
    awaitsHeader (rows ++ [row]) = (!awaitsHeader rows && !isData row) := by
  rw [awaitsHeader, List.foldl_append]
  rfl

/-- Of the markers at the end every second one is a header. -/
theorem awaitsHeader_iff_odd (rows : List Row) :
    awaitsHeader rows = true ↔ markersAtEnd rows % 2 = 1 := by
  induction rows using List.reverseRecOn with
  | nil => decide
  | append_singleton rows row ih =>
    rw [awaitsHeader_concat]
    by_cases h : isData row = true
    · rw [markersAtEnd, List.rtakeWhile_concat_neg _ _ _ (by simpa using h)]
      simp [h]
    · rw [markersAtEnd, List.rtakeWhile_concat_pos _ _ _ (by simpa using h), List.length_append,
        ← markersAtEnd, List.length_singleton]
      cases hawaits : awaitsHeader rows with
      | true =>
        have hodd := ih.1 hawaits
        simp only [Bool.not_true, Bool.false_and, Bool.false_eq_true, false_iff]
        omega
      | false =>
        have heven : ¬markersAtEnd rows % 2 = 1 := fun hodd => by simp [ih.2 hodd] at hawaits
        simp only [h, Bool.not_false, Bool.and_true, true_iff]
        omega

/-! ## Blocks that are built -/

/-- A block that is built from stubs. -/
inductive Built : Block → Prop where
  | attributes {a : Assembly} {b : Block} (h : a.attributesBlock? = some b) : Built b
  | comments {a : Assembly} {b : Block} (h : a.commentsBlock? = some b) : Built b
  | verification {r : Registry} {date : Date} {b : Block}
      (h : r.verificationBlock? date = some b) : Built b
  | completion {r : Registry} {requested : List Int} {excluded : TextSet} {b : Block}
      (h : r.completionBlock? requested excluded = some b) : Built b

theorem built_of_mem_updateBlocks {a : Assembly} (h : b ∈ a.updateBlocks) : b.Built := by
  rcases List.mem_append.1 h with hattributes | hcomments
  · exact .attributes (Option.mem_toList.1 hattributes)
  · exact .comments (Option.mem_toList.1 hcomments)

/-- A row with several cells is no marker. -/
theorem marker_not_mem_map {α : Type} {xs : List α} {f : α → Row} (h : ∀ x, (f x).length ≠ 1) :
    marker ∉ xs.map f := by
  intro hmem
  obtain ⟨x, -, hx⟩ := List.mem_map.1 hmem
  exact h x (by rw [hx]; rfl)

theorem Built.marker_not_mem (h : b.Built) : marker ∉ b.rows := by
  cases h with
  | attributes h =>
    obtain rfl := of_ofRows?_eq_some h
    exact marker_not_mem_map fun stub => by simp [Assembly.attributesRow]
  | comments h =>
    obtain rfl := of_ofRows?_eq_some h
    exact marker_not_mem_map fun c => by simp [Assembly.commentRow]
  | verification h =>
    obtain rfl := of_ofRows?_eq_some h
    exact marker_not_mem_map fun stub => by simp
  | completion h =>
    obtain rfl := of_ofRows?_eq_some h
    exact marker_not_mem_map fun stub => by simp

/-- Writing blocks as rows and cutting rows into blocks undo each other: the one for blocks without
a marker among their data rows, as all that are built are; the other for rows that start with a
marker and do not end with one that has no header. -/
theorem split_flatten_inverse :
    (∀ blocks, split (flatten blocks) = blocks ↔ ∀ b ∈ blocks, marker ∉ b.rows) ∧
      (∀ blocks, (∀ b ∈ blocks, b.Built) → split (flatten blocks) = blocks) ∧
      ∀ rows, flatten (split rows) = framed rows ∧
        (awaitsHeader rows = true ↔ markersAtEnd rows % 2 = 1) ∧
        (∀ b ∈ split rows, marker ∉ b.rows) ∧
        split (flatten (split rows)) = split rows := by
  refine ⟨fun _ => split_flatten_iff, fun blocks hbuilt => ?_, fun rows => ?_⟩
  · exact split_flatten fun b hb => (hbuilt b hb).marker_not_mem
  · have hdata : ∀ b ∈ split rows, marker ∉ b.rows := fun b hb => marker_not_mem_of_mem_split hb
    exact ⟨flatten_split rows, awaitsHeader_iff_odd rows, hdata, split_flatten hdata⟩

/-- The blocks of a request, and rows with a marker for a header, an empty block and a marker
behind the last row. -/
theorem split_flatten_inverse_ragged :
    (∀ b ∈ (Assembly.ofRequest ⟨[]⟩ raggedRequest).updateBlocks, b.Built) ∧
      (Assembly.ofRequest ⟨[]⟩ raggedRequest).updateBlocks.length = 2 ∧
      split (flatten (Assembly.ofRequest ⟨[]⟩ raggedRequest).updateBlocks) =
        (Assembly.ofRequest ⟨[]⟩ raggedRequest).updateBlocks ∧
      flatten (split [["lost"], marker, marker, [], marker, ["Code"], marker]) =
        [marker, marker, [], marker, ["Code"]] := by
  obtain ⟨-, hbuilt, hrows⟩ := split_flatten_inverse
  exact ⟨fun b hb => built_of_mem_updateBlocks hb, by decide,
    hbuilt _ fun b hb => built_of_mem_updateBlocks hb, (hrows _).1.trans (by decide)⟩

end Block

end BulkAssessment
