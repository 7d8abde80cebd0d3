/-!
# Import blocks

A block is a header and data rows, all of them lists of cells. Blocks travel as one
flat list of rows in which a marker row, the single cell `Object type`, stands in front
of each header. `split` cuts such a list into blocks again: what comes before the first
marker is dropped, and the row after a marker is a header whatever it holds.
-/

namespace BulkAssessment

/-- A row of cells. -/
abbrev Row := List String

/-- A header with the rows below it. -/
structure Block where
  header : Row
  rows : List Row
  deriving DecidableEq, Repr

/-! ## Column names -/

namespace Column

def objectType : String := "Object type"
def assessment : String := "Assessment"
def code : String := "Code"
def state : String := "State"
def verifiedDate : String := "Verified Date"
def evidenceUrl : String := "Evidence URL"
def evidenceFile : String := "Evidence File"
def comment : String := "LCA Comment"
def description : String := "description"
def definition : String := "custom_attribute_definition"

end Column

namespace Block

/-- The row in front of a header. -/
def marker : Row := [Column.objectType]

/-- The kind of objects that a block is about, named by its first column. -/
def objectType (b : Block) : String :=
  b.header.head?.getD ""

/-- The position of the first column with a name. -/
def column? (b : Block) (name : String) : Option Nat :=
  b.header.findIdx? fun h => h == name

/-- The marker, the header and the data rows. -/
def toRows (b : Block) : List Row :=
  marker :: b.header :: b.rows

/-- The rows of all blocks. -/
def flatten (blocks : List Block) : List Row :=
  blocks.flatMap toRows

/-- Whether a row is no marker. -/
def isData (row : Row) : Bool :=
  row != marker

/-- The blocks in a list of rows. -/
def split : List Row → List Block
  | [] => []
  | row :: rest =>
    if isData row then split rest
    else match rest with
      | [] => []
      | header :: data =>
        ⟨header, data.takeWhile isData⟩ :: split (data.dropWhile isData)
termination_by rows => rows.length
decreasing_by
  all_goals simp_wf
  have := (List.dropWhile_suffix isData (l := data)).length_le
  omega

end Block

end BulkAssessment
