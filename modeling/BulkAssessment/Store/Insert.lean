import BulkAssessment.Store.Basic

/-!
# Inserting rows

A row is inserted only if the constraints of its table hold: columns that must not be
null are given, ids and keys are new, evidence is a link or a file, and what a row
refers to exists. The constraints are checked in that order and the first one that
fails is reported; the store then stays as it was.

A row without an id gets the one after the greatest id of the table. A column that has a
default gets it only where the row leaves the column out; to say that it is null is to
break the constraint.
-/

namespace BulkAssessment

/-- A constraint that a row would break. -/
inductive Violation where
  /-- A column that must not be null is. -/
  | notNull (table column : String)
  /-- The kind of evidence is unknown. -/
  | evidenceKind
  /-- The primary key is taken. -/
  | primaryKey (table : String) (columns : List String)
  /-- A unique key is taken. -/
  | unique (table : String) (columns : List String)
  /-- A row that is referred to does not exist. -/
  | foreignKey
  deriving DecidableEq, Repr

namespace Violation

/-- The columns of a key with the name of their table. -/
def keyText (table : String) (columns : List String) : String :=
  String.intercalate ", " (columns.map fun c => table ++ "." ++ c)

/-- The code of a violation. -/
def code : Violation → String
  | notNull .. => "1299"
  | evidenceKind => "275"
  | primaryKey .. => "1555"
  | unique .. => "2067"
  | foreignKey => "787"

/-- What a violation says. -/
def reason : Violation → String
  | notNull table column => "NOT NULL constraint failed: " ++ keyText table [column]
  | evidenceKind => "CHECK constraint failed: kind IN ('URL', 'FILE')"
  | primaryKey table columns => "UNIQUE constraint failed: " ++ keyText table columns
  | unique table columns => "UNIQUE constraint failed: " ++ keyText table columns
  | foreignKey => "FOREIGN KEY constraint failed"

/-- The full text of a violation. -/
def message (v : Violation) : String :=
  "error returned from database: (code: " ++ v.code ++ ") " ++ v.reason

end Violation

/-- Fail with a violation unless a condition holds. -/
def require (holds : Bool) (v : Violation) : Except Violation Unit :=
  if holds then .ok () else .error v

/-- The value of a column that must not be null. -/
def present {α : Type} (table column : String) : Option α → Except Violation α
  | some x => .ok x
  | none => .error (.notNull table column)

/-- What a new row says about a column that has a default. -/
inductive Given (α : Type) where
  /-- The row leaves the column out. -/
  | omitted
  /-- The row says that the column is null. -/
  | null
  /-- The row gives the value. -/
  | value (x : α)
  deriving DecidableEq, Repr

/-- The value of a column that must not be null and has a default. -/
def Given.orDefault {α : Type} (table column : String) (default : α) :
    Given α → Except Violation α
  | omitted => .ok default
  | null => .error (.notNull table column)
  | value x => .ok x

/-- The greatest id. -/
def greatestId : Int := 9223372036854775807

/-- The least positive number that is none of the given ids. -/
def vacantId (ids : List Int) : Int :=
  (((List.range (ids.length + 1)).map fun n : Nat => (n : Int) + 1).find? fun n =>
    !ids.contains n).getD 1

/-- The id for a row that brings none: one more than the greatest, as long as there is
such an id. -/
def freshId (ids : List Int) : Int :=
  match ids.max? with
  | none => 1
  | some m => if m < greatestId then m + 1 else vacantId ids

/-- Put a row behind those with smaller ids. -/
def insertById {α : Type} (id : α → Int) (x : α) : List α → List α
  | [] => [x]
  | y :: ys => if id x < id y then x :: y :: ys else y :: insertById id x ys

/-! ## Rows to be inserted

A column without a default is `none` where the row leaves it out or says that it is
null. -/

/-- A person to be. -/
structure NewPerson where
  id : Option Int
  email : Option String

/-- An assessment to be. -/
structure NewAssessment where
  id : Option Int
  slug : Option String
  title : Option String
  status : Given String
  assessmentType : Given String
  verifiedDate : Option String
  finishedDate : Option String

/-- A role to be. -/
structure NewRole where
  assessmentId : Option Int
  personId : Option Int
  name : Option String

/-- A definition to be. -/
structure NewDefinition where
  id : Option Int
  ownerType : Option String
  ownerId : Option Int
  title : Option String
  typeName : Option String
  mandatory : Given Bool
  defaultValue : Option String
  options : Option String
  optionsMandatory : Option String

/-- A value to be. -/
structure NewValue where
  definitionId : Option Int
  objectId : Option Int
  value : Option String
  personId : Option Int
  preconditionsFailed : Option Bool

/-- Evidence to be. -/
structure NewEvidence where
  assessmentId : Option Int
  kind : Option String
  link : Option String
  fileId : Option String

/-- A comment to be. -/
structure NewComment where
  assessmentId : Option Int
  definitionId : Option Int
  description : Option String

namespace Store

/-- Whether an assessment exists. -/
def hasAssessment (s : Store) (id : Int) : Bool := s.assessments.any fun a => a.id == id

/-- Whether a person exists. -/
def hasPerson (s : Store) (id : Int) : Bool := s.people.any fun p => p.id == id

/-- Whether a definition exists. -/
def hasDefinition (s : Store) (id : Int) : Bool := s.definitions.any fun d => d.id == id

/-- Insert a person. -/
def insertPerson (s : Store) (p : NewPerson) : Except Violation Store := do
  let email ← present "people" "email" p.email
  let id := p.id.getD (freshId (s.people.map Person.id))
  require (!s.hasPerson id) (.primaryKey "people" ["id"])
  require (!s.people.any fun q => q.email == email) (.unique "people" ["email"])
  pure { s with people := insertById Person.id ⟨id, email⟩ s.people }

/-- Insert an assessment. -/
def insertAssessment (s : Store) (a : NewAssessment) : Except Violation Store := do
  let table := "assessments"
  let slug ← present table "slug" a.slug
  let title ← present table "title" a.title
  let status ← a.status.orDefault table "status" "Not Started"
  let assessmentType ← a.assessmentType.orDefault table "assessment_type" "Control"
  let id := a.id.getD (freshId (s.assessments.map Assessment.id))
  require (!s.hasAssessment id) (.primaryKey table ["id"])
  require (!s.assessments.any fun b => b.slug == slug) (.unique table ["slug"])
  let row : Assessment :=
    ⟨id, slug, title, status, assessmentType, a.verifiedDate, a.finishedDate⟩
  pure { s with assessments := insertById Assessment.id row s.assessments }

/-- Insert a role. -/
def insertRole (s : Store) (r : NewRole) : Except Violation Store := do
  let table := "access_control_people"
  let assessmentId ← present table "assessment_id" r.assessmentId
  let personId ← present table "person_id" r.personId
  let name ← present table "role_name" r.name
  let row : Role := ⟨assessmentId, personId, name⟩
  require (!s.roles.contains row)
    (.primaryKey table ["assessment_id", "person_id", "role_name"])
  require (s.hasAssessment assessmentId && s.hasPerson personId) .foreignKey
  pure { s with roles := s.roles ++ [row] }

/-- Insert a definition. -/
def insertDefinition (s : Store) (d : NewDefinition) : Except Violation Store := do
  let table := "custom_attribute_definitions"
  let ownerType ← present table "definition_type" d.ownerType
  let title ← present table "title" d.title
  let typeName ← present table "attribute_type" d.typeName
  let mandatory ← d.mandatory.orDefault table "mandatory" false
  let id := d.id.getD (freshId (s.definitions.map Definition.id))
  require (!s.hasDefinition id) (.primaryKey table ["id"])
  let row : Definition :=
    ⟨id, ownerType, d.ownerId, title, typeName, mandatory, d.defaultValue, d.options,
      d.optionsMandatory⟩
  pure { s with definitions := insertById Definition.id row s.definitions }

/-- Insert a value. -/
def insertValue (s : Store) (v : NewValue) : Except Violation Store := do
  let table := "custom_attribute_values"
  let definitionId ← present table "custom_attribute_id" v.definitionId
  let objectId ← present table "attributable_id" v.objectId
  require (!s.values.any fun w => w.definitionId == definitionId && w.objectId == objectId)
    (.unique table ["custom_attribute_id", "attributable_id"])
  require (s.hasDefinition definitionId) .foreignKey
  let row : StoredValue :=
    ⟨freshId (s.values.map StoredValue.id), definitionId, objectId, v.value, v.personId,
      v.preconditionsFailed⟩
  pure { s with values := insertById StoredValue.id row s.values }

/-- The names of the kinds of evidence. -/
def evidenceKinds : List String := [EvidenceKind.url.name, EvidenceKind.file.name]

/-- Insert evidence, and tell its id. -/
def insertEvidence (s : Store) (e : NewEvidence) : Except Violation (Store × Int) := do
  let assessmentId ← present "evidence" "assessment_id" e.assessmentId
  let kind ← present "evidence" "kind" e.kind
  let link ← present "evidence" "link" e.link
  require (evidenceKinds.contains kind) .evidenceKind
  require (s.hasAssessment assessmentId) .foreignKey
  let id := freshId (s.evidence.map Evidence.id)
  let row : Evidence := ⟨id, assessmentId, kind, link, e.fileId⟩
  pure ({ s with evidence := s.evidence ++ [row] }, id)

/-- Insert a comment, and tell its id. -/
def insertComment (s : Store) (c : NewComment) : Except Violation (Store × Int) := do
  let assessmentId ← present "comments" "assessment_id" c.assessmentId
  let description ← present "comments" "description" c.description
  require (s.hasAssessment assessmentId && c.definitionId.all s.hasDefinition) .foreignKey
  let id := freshId (s.comments.map Comment.id)
  let row : Comment := ⟨id, assessmentId, c.definitionId, description⟩
  pure ({ s with comments := s.comments ++ [row] }, id)

/-! ## Rows for several tables -/

/-- Rows to be inserted table by table. -/
structure Batch where
  people : List NewPerson
  assessments : List NewAssessment
  roles : List NewRole
  definitions : List NewDefinition
  values : List NewValue
  evidence : List NewEvidence
  comments : List NewComment

/-- Whether there is no row in a batch. -/
def Batch.isEmpty (b : Batch) : Bool :=
  b.people.isEmpty && b.assessments.isEmpty && b.roles.isEmpty && b.definitions.isEmpty &&
    b.values.isEmpty && b.evidence.isEmpty && b.comments.isEmpty

/-- Insert rows one after the other up to the first that is refused. -/
def insertAll {α : Type} (insert : Store → α → Except Violation Store) :
    Store → List α → Store × Option Violation
  | s, [] => (s, none)
  | s, x :: xs => match insert s x with
    | .ok s => insertAll insert s xs
    | .error v => (s, some v)

/-- Go on after a part of a batch unless a row was refused. -/
def andThen (r : Store × Option Violation) (next : Store → Store × Option Violation) :
    Store × Option Violation :=
  match r with
  | (s, none) => next s
  | (s, some v) => (s, some v)

/-- Insert a batch up to the first row that is refused; earlier rows stay. -/
def insertBatch (s : Store) (b : Batch) : Store × Option Violation :=
  andThen (insertAll insertPerson s b.people) fun s =>
  andThen (insertAll insertAssessment s b.assessments) fun s =>
  andThen (insertAll insertRole s b.roles) fun s =>
  andThen (insertAll insertDefinition s b.definitions) fun s =>
  andThen (insertAll insertValue s b.values) fun s =>
  andThen (insertAll (fun s e => (s.insertEvidence e).map Prod.fst) s b.evidence) fun s =>
  insertAll (fun s c => (s.insertComment c).map Prod.fst) s b.comments

end Store

end BulkAssessment
