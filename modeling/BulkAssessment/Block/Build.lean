import BulkAssessment.Block.Basic
import BulkAssessment.Date
import BulkAssessment.Status
import BulkAssessment.Stub
import BulkAssessment.Text.Pieces
import BulkAssessment.TextSet

/-!
# Blocks from stubs

The blocks that carry a request into the import: one that verifies, one with values
and evidence, one with comments and one that completes. A block without rows is not
made. Every row has a cell for each column of its header; the first cell, under the
name of the object, is empty.
-/

namespace BulkAssessment

namespace Block

/-- The block with the given rows, if there are any. -/
def ofRows? (header : Row) (rows : List Row) : Option Block :=
  if rows.isEmpty then none else some ⟨header, rows⟩

/-- The columns that an attributes block starts with. -/
def fixedColumns : List String :=
  [Column.assessment, Column.code, Column.evidenceUrl, Column.evidenceFile]

end Block

/-- The state that completion takes an assessment to. -/
def Stub.finishedState (s : Stub) : State :=
  if s.needsVerification then .inReview else .completed

namespace Registry

/-- Completes, as verified on a date, every assessment that waits for verification. -/
def verificationBlock? (r : Registry) (date : Date) : Option Block :=
  Block.ofRows? [Column.assessment, Column.code, Column.state, Column.verifiedDate] <|
    (r.toList.filter Stub.needsVerification).map fun s =>
      ["", s.slug, State.completed.name, date.cellText]

/-- Completes the requested assessments, or sends them to review if they are to be
verified. Assessments without a slug or with an excluded one are left out. -/
def completionBlock? (r : Registry) (requested : List Int) (excluded : TextSet) :
    Option Block :=
  Block.ofRows? [Column.assessment, Column.code, Column.state] <|
    (((Keyed.firsts requested).filterMap r.get?).filter fun s =>
      !s.slug.isEmpty && !decide (s.slug ∈ excluded)).map fun s =>
        ["", s.slug, s.finishedState.name]

end Registry

namespace Assembly

/-- The row of a stub in the attributes block. -/
def attributesRow (a : Assembly) (s : Stub) : Row :=
  ["", s.slug, Text.join "\n" s.urls, Text.join "\n" s.files] ++
    a.titles.map fun title => (s.value? title).getD ""

/-- The values and the evidence of the assessments for which a value was submitted. -/
def attributesBlock? (a : Assembly) : Option Block :=
  Block.ofRows? (Block.fixedColumns ++ a.titles) <|
    (a.registry.toList.filter fun s => !s.values.isEmpty).map a.attributesRow

/-- The row of a comment. -/
def commentRow (c : CommentRecord) : Row :=
  ["", c.description, Text.intText c.definitionId]

/-- The comments of all assessments. -/
def commentsBlock? (a : Assembly) : Option Block :=
  Block.ofRows? [Column.comment, Column.description, Column.definition] <|
    (a.registry.toList.flatMap Stub.comments).map commentRow

/-- The blocks that store values, evidence and comments. -/
def updateBlocks (a : Assembly) : List Block :=
  a.attributesBlock?.toList ++ a.commentsBlock?.toList

end Assembly

end BulkAssessment
