import BulkAssessment.Keyed
import BulkAssessment.Store.Query

/-!
# The attribute matrix

The edit grid shows assessments against attributes. Definitions of the same shape,
that is of the same title, type, obligation, default and options, share a column
although each belongs to one assessment.

The matrix is folded from the rows of a join of assessments, definitions and values,
which may come in any order and repeat. Of the rows of one assessment the first gives
its summary, and of the rows for one entry of a column the last gives the entry.
-/

namespace BulkAssessment

/-- A row of the join: an assessment, one of its definitions if it has any, and the
value of that if there is one. -/
structure JoinRow where
  assessmentId : Int
  assessmentType : String
  slug : String
  title : String
  status : String
  urlsCount : Int
  filesCount : Int
  definitionId : Option Int
  definitionTitle : Option String
  typeName : Option String
  mandatory : Option Bool
  defaultValue : Option String
  options : Option String
  optionsMandatory : Option String
  valueId : Option Int
  value : Option String
  personId : Option Int
  preconditionsFailed : Option Bool
  deriving DecidableEq, Repr

/-- What the definitions in a column have in common. -/
structure ColumnKey where
  title : String
  typeName : String
  mandatory : Bool
  defaultValue : Option String
  options : Option String
  optionsMandatory : Option String
  deriving DecidableEq, Repr

/-- The entry of an assessment in a column. -/
structure MatrixEntry where
  value : Option String
  personId : Option Int
  preconditionsFailed : Option Bool
  /-- The assessment that owns the definition. -/
  ownerId : Int
  definitionId : Int
  options : Option String
  optionsMandatory : Option String
  deriving DecidableEq, Repr

/-- The entries of a column by assessment. -/
abbrev MatrixColumn := List (Int × MatrixEntry)

/-- What the grid shows about an assessment. -/
structure Summary where
  assessmentType : String
  id : Int
  slug : String
  title : String
  status : String
  urlsCount : Int
  filesCount : Int
  deriving DecidableEq, Repr

namespace JoinRow

/-- The column of a row with a definition. -/
def columnKey (r : JoinRow) : ColumnKey :=
  ⟨r.definitionTitle.getD "", r.typeName.getD "", r.mandatory.getD false, r.defaultValue,
    r.options, r.optionsMandatory⟩

/-- The entry of a row with a definition. Without a value all that belongs to one is
left out, whatever the row says. -/
def entry (r : JoinRow) (definitionId : Int) : MatrixEntry :=
  ⟨r.valueId.bind fun _ => r.value, r.valueId.bind fun _ => r.personId,
    r.valueId.bind fun _ => r.preconditionsFailed, r.assessmentId, definitionId, r.options,
    r.optionsMandatory⟩

/-- The summary of the assessment of a row. -/
def summary (r : JoinRow) : Summary :=
  ⟨r.assessmentType, r.assessmentId, r.slug, r.title, r.status, r.urlsCount, r.filesCount⟩

end JoinRow

/-- Columns and assessments while they are being collected. -/
structure Matrix where
  columns : List (ColumnKey × MatrixColumn)
  summaries : List (Int × Option Summary)
  deriving DecidableEq, Repr

namespace Matrix

/-- No columns, and nothing known yet about the given assessments. -/
def ofIds (ids : List Int) : Matrix :=
  ⟨[], (Keyed.firsts ids).map fun id => (id, none)⟩

/-- Enter the definition of a row into its column. -/
def addEntry (columns : List (ColumnKey × MatrixColumn)) (r : JoinRow) :
    List (ColumnKey × MatrixColumn) :=
  match r.definitionId with
  | none => columns
  | some id =>
    Keyed.alter r.columnKey
      (fun column => Keyed.alter r.assessmentId (fun _ => r.entry id) (column.getD [])) columns

/-- Enter the summary of a row, unless there is one. -/
def addSummary (summaries : List (Int × Option Summary)) (r : JoinRow) :
    List (Int × Option Summary) :=
  Keyed.alter r.assessmentId (fun known => some (known.join.getD r.summary)) summaries

/-- Enter a row. -/
def addRow (m : Matrix) (r : JoinRow) : Matrix :=
  ⟨addEntry m.columns r, addSummary m.summaries r⟩

/-- The matrix of the given rows, the assessments with the given ids first. -/
def aggregate (rows : List JoinRow) (ids : List Int) : Matrix :=
  rows.foldl addRow (ofIds ids)

end Matrix

namespace Store

/-- The row of an assessment and one of its definitions, if there is one. -/
def joinRow (s : Store) (a : Assessment) (d : Option Definition) : JoinRow :=
  let v := d.bind fun d => s.value? d.id a.id
  { assessmentId := a.id
    assessmentType := a.assessmentType
    slug := a.slug
    title := a.title
    status := a.status
    urlsCount := s.countEvidence a.id .url
    filesCount := s.countEvidence a.id .file
    definitionId := d.map Definition.id
    definitionTitle := d.map Definition.title
    typeName := d.map Definition.typeName
    mandatory := d.map Definition.mandatory
    defaultValue := d.bind Definition.defaultValue
    options := d.bind Definition.options
    optionsMandatory := d.bind Definition.optionsMandatory
    valueId := v.map StoredValue.id
    value := v.bind StoredValue.value
    personId := v.bind StoredValue.personId
    preconditionsFailed := v.bind StoredValue.preconditionsFailed }

/-- The rows of an assessment: one for each definition, or one without. -/
def joinRowsOf (s : Store) (a : Assessment) : List JoinRow :=
  match s.definitionsOf a.id with
  | [] => [s.joinRow a none]
  | ds => ds.map fun d => s.joinRow a (some d)

/-- The rows of the assessments with the given ids, by assessment and definition. -/
def joinRows (s : Store) (ids : List Int) : List JoinRow :=
  (s.assessmentsByIds ids).flatMap s.joinRowsOf

/-- The matrix of the assessments with the given ids. -/
def search (s : Store) (ids : List Int) : Matrix :=
  Matrix.aggregate (s.joinRows ids) ids

end Store

end BulkAssessment
