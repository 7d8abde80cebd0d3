import BulkAssessment.Matrix
import BulkAssessment.Proofs.KeyedLists

/-!
# The matrix of any rows

What `Matrix.aggregate` makes of rows is put in closed form, whatever the rows are and in whatever
order they come: its columns are the distinct keys of the rows with a definition, the entries of a
column belong to the distinct assessments of the rows with its key, and each of them is from the
last such row (`Matrix.columns_aggregate`, `MatrixColumn.get?_ofEntries`). The summaries are those
of the requested assessments and then of the others that have rows, each from the first row of the
assessment (`Matrix.summaries_aggregate`).

`Matrix.Aggregates` says the same of the rows alone, without the maps that the rows are entered
into.
-/

namespace BulkAssessment

/-! ## What rows are entered as -/

/-- Put an entry into a column, in the place of one about the same assessment. -/
def MatrixColumn.enter (column : MatrixColumn) (e : MatrixEntry) : MatrixColumn :=
  Keyed.alter e.ownerId (fun _ => e) column

/-- The column that entries make up. -/
def MatrixColumn.ofEntries (entries : List MatrixEntry) : MatrixColumn :=
  entries.foldl enter []

/-- What a row with a definition is entered as. -/
def JoinRow.posting? (r : JoinRow) : Option (ColumnKey × MatrixEntry) :=
  r.definitionId.map fun id => (r.columnKey, r.entry id)

/-- Put an entry into the column with a key. -/
def Matrix.post (columns : List (ColumnKey × MatrixColumn)) (p : ColumnKey × MatrixEntry) :
    List (ColumnKey × MatrixColumn) :=
  Keyed.alter p.1 (fun column => MatrixColumn.enter (column.getD []) p.2) columns

/-- The entries of the rows with a key. -/
def Matrix.entriesUnder (rows : List JoinRow) (key : ColumnKey) : List MatrixEntry :=
  ((rows.filterMap JoinRow.posting?).filter fun p => p.1 = key).map Prod.snd

namespace MatrixColumn

theorem keys_ofEntries (entries : List MatrixEntry) :
    Keyed.keys (ofEntries entries) = Keyed.firsts (entries.map MatrixEntry.ownerId) :=
  Keyed.keys_foldl (fun _ _ => rfl) entries []

/-- The entry of an assessment is the last one about it. -/
theorem get?_ofEntries (id : Int) (entries : List MatrixEntry) :
    Keyed.get? id (ofEntries entries) = (entries.filter fun e => e.ownerId = id).getLast? := by
  rw [ofEntries, Keyed.get?_foldl_set (g := enter) (fun _ _ => rfl), Keyed.get?_nil,
    Option.or_none]
  exact Option.map_id'

end MatrixColumn

namespace Matrix

variable {rows : List JoinRow} {ids : List Int} {key : ColumnKey}

theorem foldl_addEntry (rows : List JoinRow) (columns : List (ColumnKey × MatrixColumn)) :
    rows.foldl addEntry columns = (rows.filterMap JoinRow.posting?).foldl post columns := by
  rw [List.foldl_filterMap]
  congr 1
  funext cs r
  unfold addEntry JoinRow.posting?
  cases r.definitionId <;> rfl

theorem columns_eq_foldl (rows : List JoinRow) (ids : List Int) :
    (aggregate rows ids).columns = rows.foldl addEntry [] :=
  (List.foldl_hom Matrix.columns fun _ _ => rfl).symm

theorem summaries_eq_foldl (rows : List JoinRow) (ids : List Int) :
    (aggregate rows ids).summaries =
      rows.foldl addSummary ((Keyed.firsts ids).map fun id => (id, none)) :=
  (List.foldl_hom Matrix.summaries fun _ _ => rfl).symm

theorem keys_columns (rows : List JoinRow) (ids : List Int) :
    Keyed.keys (aggregate rows ids).columns =
      Keyed.firsts ((rows.filterMap JoinRow.posting?).map Prod.fst) := by
  rw [columns_eq_foldl, foldl_addEntry]
  exact Keyed.keys_foldl (fun _ _ => rfl) _ []

/-- The column of a key has the entries of the rows with that key. -/
theorem getD_get?_columns (rows : List JoinRow) (ids : List Int) (key : ColumnKey) :
    (Keyed.get? key (aggregate rows ids).columns).getD [] =
      MatrixColumn.ofEntries (entriesUnder rows key) := by
  rw [columns_eq_foldl, foldl_addEntry, Keyed.get?_foldl (g := post) (fun _ _ => rfl), entriesUnder,
    MatrixColumn.ofEntries, List.foldl_map]
  exact (List.foldl_hom (fun column : Option MatrixColumn => column.getD []) fun _ _ => rfl).symm

/-- The columns are the distinct keys of the rows with a definition, each with the entries of the
rows that have it. -/
theorem columns_aggregate (rows : List JoinRow) (ids : List Int) :
    (aggregate rows ids).columns =
      (Keyed.firsts ((rows.filterMap JoinRow.posting?).map Prod.fst)).map fun key =>
        (key, MatrixColumn.ofEntries (entriesUnder rows key)) := by
  have hnodup : (Keyed.keys (aggregate rows ids).columns).Nodup := by
    rw [keys_columns]
    exact Keyed.nodup_firsts _
  rw [Keyed.eq_map_get? hnodup [], keys_columns]
  simp only [getD_get?_columns]

/-- What is known about an assessment in the end is what was known before or what its first row
says. -/
theorem join_get?_foldl_addSummary (rows : List JoinRow) (known : List (Int × Option Summary))
    (id : Int) :
    (Keyed.get? id (rows.foldl addSummary known)).join =
      (Keyed.get? id known).join.or ((rows.find? fun r => r.assessmentId == id).map
        JoinRow.summary) := by
  induction rows generalizing known with
  | nil => exact Option.or_none.symm
  | cons r rows ih =>
    rw [List.foldl_cons, ih, addSummary]
    by_cases hid : r.assessmentId = id
    · rw [List.find?_cons_of_pos (by simpa using hid), hid, Keyed.get?_alter_self]
      cases (Keyed.get? id known).join <;> rfl
    · rw [List.find?_cons_of_neg (by simpa using hid), Keyed.get?_alter_of_ne (Ne.symm hid)]

theorem keys_summaries (rows : List JoinRow) (ids : List Int) :
    Keyed.keys (aggregate rows ids).summaries =
      Keyed.firsts (ids ++ rows.map JoinRow.assessmentId) := by
  have hids : Keyed.keys ((Keyed.firsts ids).map fun id => (id, (none : Option Summary))) =
      Keyed.firsts ids := by
    rw [Keyed.keys, List.map_map]
    exact List.map_id _
  have hkeys := Keyed.keys_foldl (g := addSummary) (fun _ _ => rfl) rows
    ((Keyed.firsts ids).map fun id => (id, none))
  rw [summaries_eq_foldl, hkeys, hids, Keyed.firsts, Keyed.firsts, List.foldl_append]

/-- The assessments are those with the given ids and then those of the other rows, each with
what its first row says. -/
theorem summaries_aggregate (rows : List JoinRow) (ids : List Int) :
    (aggregate rows ids).summaries =
      (Keyed.firsts (ids ++ rows.map JoinRow.assessmentId)).map fun id =>
        (id, (rows.find? fun r => r.assessmentId == id).map JoinRow.summary) := by
  have hnodup : (Keyed.keys (aggregate rows ids).summaries).Nodup := by
    rw [keys_summaries]
    exact Keyed.nodup_firsts _
  have hblank (id : Int) : (Keyed.get? id ((Keyed.firsts ids).map fun id =>
      (id, (none : Option Summary)))).join = none := by
    induction Keyed.firsts ids with
    | nil => rfl
    | cons i is ih =>
      rw [List.map_cons, Keyed.get?]
      split
      · rfl
      · exact ih
  rw [Keyed.eq_map_get? hnodup none, keys_summaries]
  refine List.map_congr_left fun id _ => ?_
  have hjoin := join_get?_foldl_addSummary rows ((Keyed.firsts ids).map fun id => (id, none)) id
  rw [← summaries_eq_foldl, hblank, Option.none_or] at hjoin
  rw [← hjoin]
  cases Keyed.get? id (aggregate rows ids).summaries <;> rfl

end Matrix

/-! ## Columns and summaries by their rows -/

/-- A row has a definition with a key. -/
def JoinRow.Under (r : JoinRow) (key : ColumnKey) : Prop :=
  r.definitionId.isSome = true ∧ r.columnKey = key

instance (r : JoinRow) (key : ColumnKey) : Decidable (r.Under key) :=
  inferInstanceAs (Decidable (_ ∧ _))

/-- An entry is what a row shows. The row may have fields of a value without having a value, and
these do not count. -/
structure MatrixEntry.Shows (e : MatrixEntry) (r : JoinRow) : Prop where
  owner : e.ownerId = r.assessmentId
  definition : r.definitionId = some e.definitionId
  options : e.options = r.options
  optionsMandatory : e.optionsMandatory = r.optionsMandatory
  stored : r.valueId ≠ none → e.value = r.value ∧ e.personId = r.personId ∧
    e.preconditionsFailed = r.preconditionsFailed
  missing : r.valueId = none → e.value = none ∧ e.personId = none ∧ e.preconditionsFailed = none

/-- A summary says what a row has about its assessment. -/
structure Summary.Shows (x : Summary) (r : JoinRow) : Prop where
  assessmentType : x.assessmentType = r.assessmentType
  id : x.id = r.assessmentId
  slug : x.slug = r.slug
  title : x.title = r.title
  status : x.status = r.status
  urlsCount : x.urlsCount = r.urlsCount
  filesCount : x.filesCount = r.filesCount

/-- A matrix has the columns of some rows, and the summaries of some assessments and of those that
the rows are about. -/
structure Matrix.Aggregates (m : Matrix) (rows : List JoinRow) (ids : List Int) : Prop where
  /-- There is a column for each key of a row with a definition. -/
  columnKeys : m.columns.map Prod.fst =
    ((rows.filter fun r => r.definitionId.isSome).map JoinRow.columnKey).eraseDups
  /-- A column has an entry for each assessment with a row under its key. -/
  entryKeys : ∀ column ∈ m.columns, column.2.map Prod.fst =
    ((rows.filter fun r => r.Under column.1).map JoinRow.assessmentId).eraseDups
  /-- The entry is from the last such row. -/
  entry : ∀ column ∈ m.columns, ∀ id e, (id, e) ∈ column.2 → ∃ r,
    (rows.filter fun r => r.Under column.1 ∧ r.assessmentId = id).getLast? = some r ∧
      e.Shows r
  /-- The requested assessments come first, then the others that have rows. -/
  assessments : m.summaries.map Prod.fst = ids.eraseDups ++
    ((rows.map JoinRow.assessmentId).filter fun id => id ∉ ids).eraseDups
  /-- The summary is from the first row of the assessment. -/
  summary : ∀ id x, (id, some x) ∈ m.summaries → ∃ r,
    rows.find? (fun r => r.assessmentId = id) = some r ∧ x.Shows r
  /-- There is none if and only if the assessment has no row. -/
  unknown : ∀ id known, (id, known) ∈ m.summaries →
    (known = none ↔ ∀ r ∈ rows, r.assessmentId ≠ id)

namespace JoinRow

/-- What a row is entered as if it has a definition. -/
def shown (r : JoinRow) : MatrixEntry := r.entry (r.definitionId.getD 0)

theorem shows_shown {r : JoinRow} (h : r.definitionId.isSome = true) : r.shown.Shows r where
  owner := rfl
  definition := by
    obtain ⟨id, hid⟩ := Option.isSome_iff_exists.1 h
    simp [shown, entry, hid]
  options := rfl
  optionsMandatory := rfl
  stored hvalue := by
    obtain ⟨id, hid⟩ := Option.ne_none_iff_exists'.1 hvalue
    simp [shown, entry, hid]
  missing hvalue := by simp [shown, entry, hvalue]

theorem summary_shows (r : JoinRow) : r.summary.Shows r := ⟨rfl, rfl, rfl, rfl, rfl, rfl, rfl⟩

/-- Rows share a column if their definitions have the same shape. Without a title or a type the
text is empty, and without an obligation there is none, but no default and no options are not the
same as empty ones. -/
theorem columnKey_eq_iff {r q : JoinRow} : r.columnKey = q.columnKey ↔
    r.definitionTitle.getD "" = q.definitionTitle.getD "" ∧
      r.typeName.getD "" = q.typeName.getD "" ∧
      r.mandatory.getD false = q.mandatory.getD false ∧
      r.defaultValue = q.defaultValue ∧ r.options = q.options ∧
      r.optionsMandatory = q.optionsMandatory := by
  rw [columnKey, columnKey, ColumnKey.mk.injEq]

end JoinRow

namespace Matrix

theorem postings_eq_map (rows : List JoinRow) :
    rows.filterMap JoinRow.posting? =
      (rows.filter fun r => r.definitionId.isSome).map fun r => (r.columnKey, r.shown) := by
  induction rows with
  | nil => rfl
  | cons r rows ih =>
    cases hid : r.definitionId with
    | none => rw [List.filterMap_cons_none (by rw [JoinRow.posting?, hid]; rfl),
        List.filter_cons_of_neg (by simp [hid]), ih]
    | some id =>
      have hposting : r.posting? = some (r.columnKey, r.shown) := by
        rw [JoinRow.posting?, JoinRow.shown, hid]
        rfl
      rw [List.filterMap_cons_some hposting, List.filter_cons_of_pos (by simp [hid]), ih,
        List.map_cons]

theorem entriesUnder_eq_map (rows : List JoinRow) (key : ColumnKey) :
    entriesUnder rows key = (rows.filter fun r => r.Under key).map JoinRow.shown := by
  rw [entriesUnder, postings_eq_map, List.filter_map, List.map_map, List.filter_filter]
  refine congrArg (List.map JoinRow.shown) (List.filter_congr fun r _ => ?_)
  show (decide (r.columnKey = key) && r.definitionId.isSome) =
    decide (r.definitionId.isSome = true ∧ r.columnKey = key)
  rw [Bool.decide_and, Bool.decide_eq_true, Bool.and_comm]

variable {column : ColumnKey × MatrixColumn}

theorem eq_ofEntries_of_mem (h : column ∈ (aggregate rows ids).columns) :
    column.2 = MatrixColumn.ofEntries
      ((rows.filter fun r => r.Under column.1).map JoinRow.shown) := by
  rw [columns_aggregate] at h
  obtain ⟨key, -, rfl⟩ := List.mem_map.1 h
  rw [entriesUnder_eq_map]

theorem keys_of_mem (h : column ∈ (aggregate rows ids).columns) :
    Keyed.keys column.2 =
      Keyed.firsts ((rows.filter fun r => r.Under column.1).map JoinRow.assessmentId) := by
  rw [eq_ofEntries_of_mem h, MatrixColumn.keys_ofEntries, List.map_map]
  rfl

theorem nodup_keys_of_mem (h : column ∈ (aggregate rows ids).columns) :
    (Keyed.keys column.2).Nodup := by
  rw [keys_of_mem h]
  exact Keyed.nodup_firsts _

theorem get?_of_mem (h : column ∈ (aggregate rows ids).columns) (id : Int) :
    Keyed.get? id column.2 =
      (rows.filter fun r => r.Under column.1 ∧ r.assessmentId = id).getLast?.map
        JoinRow.shown := by
  rw [eq_ofEntries_of_mem h, MatrixColumn.get?_ofEntries, List.filter_map, List.getLast?_map,
    List.filter_filter]
  refine congrArg (fun rs => (List.getLast? rs).map JoinRow.shown) (List.filter_congr fun r _ => ?_)
  show (decide (r.assessmentId = id) && decide (r.Under column.1)) = _
  rw [Bool.decide_and, Bool.and_comm]

theorem summary_of_mem {id : Int} {known : Option Summary}
    (h : (id, known) ∈ (aggregate rows ids).summaries) :
    known = (rows.find? fun r => r.assessmentId == id).map JoinRow.summary := by
  rw [summaries_aggregate, Keyed.mem_map_graph] at h
  exact h.2

theorem aggregates_aggregate (rows : List JoinRow) (ids : List Int) :
    (aggregate rows ids).Aggregates rows ids where
  columnKeys := by
    refine (keys_columns rows ids).trans ?_
    rw [Keyed.firsts_eq_eraseDups, postings_eq_map, List.map_map]
    rfl
  entryKeys column hcolumn := (keys_of_mem hcolumn).trans (Keyed.firsts_eq_eraseDups _)
  entry column hcolumn id e he := by
    rw [Keyed.mem_iff_get? (nodup_keys_of_mem hcolumn), get?_of_mem hcolumn,
      Option.map_eq_some_iff] at he
    obtain ⟨r, hr, rfl⟩ := he
    have hunder : r.Under column.1 ∧ r.assessmentId = id :=
      of_decide_eq_true (List.mem_filter.1 (List.mem_of_getLast? hr)).2
    exact ⟨r, hr, JoinRow.shows_shown hunder.1.1⟩
  assessments := by
    refine (keys_summaries rows ids).trans ?_
    rw [Keyed.firsts_eq_eraseDups, List.eraseDups_append, List.removeAll]
    simp
  summary id x h := by
    obtain ⟨r, hr, hx⟩ := Option.map_eq_some_iff.1 (summary_of_mem h).symm
    exact ⟨r, hr, hx ▸ r.summary_shows⟩
  unknown id known h := by
    rw [summary_of_mem h, Option.map_eq_none_iff, List.find?_eq_none]
    simp

/-- What rows are aggregated to, whatever rows they are and in whatever order they come, and which
of them share a column. -/
theorem aggregate_of_rows (rows : List JoinRow) (ids : List Int) :
    (aggregate rows ids).Aggregates rows ids ∧
      ∀ r q : JoinRow, r.columnKey = q.columnKey ↔
        r.definitionTitle.getD "" = q.definitionTitle.getD "" ∧
          r.typeName.getD "" = q.typeName.getD "" ∧
          r.mandatory.getD false = q.mandatory.getD false ∧
          r.defaultValue = q.defaultValue ∧ r.options = q.options ∧
          r.optionsMandatory = q.optionsMandatory :=
  ⟨aggregates_aggregate rows ids, fun _ _ => JoinRow.columnKey_eq_iff⟩

/-- Two rows of an assessment under one key. The second is of another definition and has what
belongs to a value, but no value. -/
def repeatedRows : List JoinRow :=
  [⟨1, "Control", "A-1", "One", "In Progress", 2, 1, some 10, some "Note", some "Text", none, none,
      some "a,b", none, some 20, some "old", none, none⟩,
    ⟨1, "Control", "A-2", "Two", "Completed", 9, 9, some 12, some "Note", some "Text", some false,
      none, some "a,b", none, none, some "new", some 3, some true⟩]

/-- The second row takes the place of the first in the column and leaves the summary. -/
theorem aggregate_of_rows_repeated :
    (aggregate repeatedRows [2, 2]).Aggregates repeatedRows [2, 2] ∧
      aggregate repeatedRows [2, 2] =
        ⟨[(⟨"Note", "Text", false, none, some "a,b", none⟩,
            [(1, ⟨none, none, none, 1, 12, some "a,b", none⟩)])],
          [(2, none), (1, some ⟨"Control", 1, "A-1", "One", "In Progress", 2, 1⟩)]⟩ :=
  ⟨(aggregate_of_rows repeatedRows [2, 2]).1, by decide⟩

end Matrix

end BulkAssessment
