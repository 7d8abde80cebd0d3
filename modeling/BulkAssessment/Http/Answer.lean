import BulkAssessment.Json.Basic
import BulkAssessment.Matrix
import BulkAssessment.Notification

/-!
# Answers as JSON

The bodies of successful answers: the outcome of an operation, and the matrix with the
entries of a column under the ids of their assessments.
-/

namespace BulkAssessment

/-- A text, or `null`. -/
def Json.ofText? (s : Option String) : Json := (s.map Json.string).getD .null

/-- An integer, or `null`. -/
def Json.ofInt? (n : Option Int) : Json := (n.map Json.int).getD .null

/-- A truth value, or `null`. -/
def Json.ofBool? (b : Option Bool) : Json := (b.map Json.bool).getD .null

/-- A link to an assessment. -/
def Mention.json (m : Mention) : Json :=
  Json.ofMembers [("title", .string m.title), ("url", .string m.url)]

/-- An outcome. -/
def Outcome.json (o : Outcome) : Json :=
  Json.ofMembers [
    ("update_errors", .array (o.updateErrors.map Mention.json)),
    ("partial_errors", .array (o.partialErrors.map Mention.json)),
    ("succeeded", .array (o.succeeded.map Mention.json)),
    ("deleted", .array (o.deleted.map fun id => Json.ofMembers [("id", Json.int id)]))]

/-- An entry of a column. -/
def MatrixEntry.json (e : MatrixEntry) : Json :=
  Json.ofMembers [
    ("value", Json.ofText? e.value),
    ("attribute_person_id", Json.ofInt? e.personId),
    ("preconditions_failed", Json.ofBool? e.preconditionsFailed),
    ("definition_id", Json.int e.ownerId),
    ("attribute_definition_id", Json.int e.definitionId),
    ("multi_choice_options", Json.ofText? e.options),
    ("multi_choice_mandatory", Json.ofText? e.optionsMandatory)]

/-- A column, its entries written by the given function. -/
def ColumnKey.json (entries : MatrixColumn → Json) (key : ColumnKey) (column : MatrixColumn) :
    Json :=
  Json.ofMembers [
    ("title", .string key.title),
    ("mandatory", .bool key.mandatory),
    ("attribute_type", .string key.typeName),
    ("default_value", Json.ofText? key.defaultValue),
    ("values", entries column)]

/-- A summary. -/
def Summary.json (s : Summary) : Json :=
  Json.ofMembers [
    ("assessment_type", .string s.assessmentType),
    ("id", Json.int s.id),
    ("slug", .string s.slug),
    ("title", .string s.title),
    ("status", .string s.status),
    ("urls_count", Json.int s.urlsCount),
    ("files_count", Json.int s.filesCount)]

/-- A matrix, the entries of its columns written by the given function. -/
def Matrix.jsonWith (entries : MatrixColumn → Json) (m : Matrix) : Json :=
  Json.ofMembers [
    ("attributes", .array (m.columns.map fun (key, column) => key.json entries column)),
    ("assessments", .array (m.summaries.map fun (_, s) => (s.map Summary.json).getD .null))]

/-- The entries of a column under the ids of their assessments. -/
def MatrixColumn.json (column : MatrixColumn) : Json :=
  Json.ofMembers (column.map fun (id, e) => (Text.intText id, e.json))

/-- A matrix. -/
def Matrix.json (m : Matrix) : Json :=
  m.jsonWith MatrixColumn.json

end BulkAssessment
