import BulkAssessment.Block.Build

/-!
# Recognizing blocks

What a block does is told from its header alone. A block about assessments needs a
column with their codes; with a state column it changes states, without one it sets
attributes, every column that has no fixed meaning being an attribute of that title. A
comment block needs its two columns. Any other block is skipped.

Columns are found by the first header cell with their name, and every cell is read
without the blanks around it; a cell that a row does not have is empty.
-/

namespace BulkAssessment

/-- Where an attributes block has its cells. -/
structure AttributesLayout where
  code : Nat
  urls : Option Nat
  files : Option Nat
  /-- The attribute columns with their titles, in the order of the header. -/
  attributes : List (Nat × String)
  deriving DecidableEq, Repr

/-- Where a state block has its cells. -/
structure StateLayout where
  code : Nat
  state : Nat
  verifiedDate : Option Nat
  deriving DecidableEq, Repr

/-- Where a comment block has its cells. -/
structure CommentLayout where
  description : Nat
  definition : Nat
  deriving DecidableEq, Repr

/-- What a block does. -/
inductive BlockLayout where
  | attributes (layout : AttributesLayout)
  | state (layout : StateLayout)
  | comment (layout : CommentLayout)
  deriving DecidableEq, Repr

namespace Block

/-- The columns that hold attributes, counted from `start`. -/
def attributeColumns (start : Nat) : Row → List (Nat × String)
  | [] => []
  | title :: rest =>
    if title ∈ fixedColumns then attributeColumns (start + 1) rest
    else (start, title) :: attributeColumns (start + 1) rest

/-- What a block about assessments does. -/
def assessmentLayout? (b : Block) : Option BlockLayout :=
  (b.column? Column.code).map fun code =>
    match b.column? Column.state with
    | some state => .state ⟨code, state, b.column? Column.verifiedDate⟩
    | none =>
      .attributes ⟨code, b.column? Column.evidenceUrl, b.column? Column.evidenceFile,
        attributeColumns 0 b.header⟩

/-- What a block of comments does. -/
def commentLayout? (b : Block) : Option BlockLayout := do
  pure (.comment ⟨← b.column? Column.description, ← b.column? Column.definition⟩)

/-- What a block does, if its header tells. -/
def layout? (b : Block) : Option BlockLayout :=
  if b.objectType = Column.assessment then b.assessmentLayout?
  else if b.objectType = Column.comment then b.commentLayout?
  else none

end Block

/-- The trimmed cell of a column. -/
def cell (row : Row) (column : Nat) : String :=
  Text.trim ((row[column]?).getD "")

/-- The trimmed cell of a column that the block may lack. -/
def cellOf (row : Row) (column : Option Nat) : String :=
  (column.map (cell row)).getD ""

/-- The name under which a row is reported: the code of its assessment, or the
definition of its comment. -/
def BlockLayout.key (row : Row) : BlockLayout → String
  | .attributes l => cell row l.code
  | .state l => cell row l.code
  | .comment l => "cad:" ++ cell row l.definition

end BulkAssessment
