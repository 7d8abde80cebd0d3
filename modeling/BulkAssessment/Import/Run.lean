import BulkAssessment.Import.Row

/-!
# Import runs

A run applies the rows of its blocks one after the other. A rejected row leaves the
store as it was and its key goes into the errors of the report; the key of a row that
left cells out goes into the warnings. Blocks that are not recognized are skipped.
-/

namespace BulkAssessment

/-- The keys of the rows that were rejected, and of those applied in part. -/
structure Report where
  errors : TextSet
  warnings : TextSet
  deriving DecidableEq, Repr

namespace Report

/-- Nothing to report. -/
def empty : Report := ⟨∅, ∅⟩

/-- The keys of two reports. -/
def merge (r t : Report) : Report :=
  ⟨r.errors.union t.errors, r.warnings.union t.warnings⟩

/-- The keys of rows that were applied in part and never rejected. -/
def partials (r : Report) : TextSet :=
  r.warnings.diff r.errors

end Report

/-- The store and the report after some rows. -/
structure Run where
  store : Store
  report : Report
  deriving DecidableEq, Repr

namespace Run

/-- Before the first row. -/
def start (s : Store) : Run := ⟨s, Report.empty⟩

/-- Apply a row and report on it. -/
def step (today : Date) (layout : BlockLayout) (r : Run) (row : Row) : Run :=
  match r.store.applyRow today row layout with
  | .ok (s, false) => ⟨s, r.report⟩
  | .ok (s, true) => ⟨s, { r.report with warnings := r.report.warnings.insert (layout.key row) }⟩
  | .error _ => ⟨r.store, { r.report with errors := r.report.errors.insert (layout.key row) }⟩

/-- Apply the rows of a block. -/
def block (today : Date) (r : Run) (b : Block) : Run :=
  match b.layout? with
  | none => r
  | some layout => b.rows.foldl (step today layout) r

end Run

/-- Import blocks into a store. -/
def Store.importBlocks (s : Store) (today : Date) (blocks : List Block) : Run :=
  blocks.foldl (Run.block today) (Run.start s)

/-- Whether an import has any row to apply. -/
def Block.hasWork (blocks : List Block) : Bool :=
  blocks.any fun b => b.layout?.isSome && !b.rows.isEmpty

end BulkAssessment
