/-!
# The store

Seven tables, each a list of rows. Rows with an id are listed in the order of their
ids, so the newest evidence, comments and values come last; roles are listed in the
order of their insertion.

The declarations here are the rows alone; `Store.Insert` says which rows the tables
admit, and `Store.Query` and `Store.Update` what can be asked of them and done to them.
-/

namespace BulkAssessment

/-- A person, known by an email. -/
structure Person where
  id : Int
  email : String
  deriving DecidableEq, Repr

/-- An assessment, known by its slug. -/
structure Assessment where
  id : Int
  slug : String
  title : String
  status : String
  assessmentType : String
  verifiedDate : Option String
  finishedDate : Option String
  deriving DecidableEq, Repr

/-- A person in a role on an assessment. -/
structure Role where
  assessmentId : Int
  personId : Int
  name : String
  deriving DecidableEq, Repr

/-- The definition of a custom attribute. -/
structure Definition where
  id : Int
  /-- What the attribute belongs to. -/
  ownerType : String
  ownerId : Option Int
  title : String
  typeName : String
  mandatory : Bool
  defaultValue : Option String
  /-- The options of a dropdown, separated by commas. -/
  options : Option String
  optionsMandatory : Option String
  deriving DecidableEq, Repr

/-- The value of a custom attribute on an object. -/
structure StoredValue where
  id : Int
  definitionId : Int
  objectId : Int
  value : Option String
  /-- The person that the value refers to. -/
  personId : Option Int
  preconditionsFailed : Option Bool
  deriving DecidableEq, Repr

/-- What a piece of evidence is. -/
inductive EvidenceKind where
  | url
  | file
  deriving DecidableEq, Repr

/-- The name of a kind of evidence. -/
def EvidenceKind.name : EvidenceKind → String
  | url => "URL"
  | file => "FILE"

/-- A link or a file attached to an assessment. -/
structure Evidence where
  id : Int
  assessmentId : Int
  kind : String
  link : String
  fileId : Option String
  deriving DecidableEq, Repr

/-- A comment on an assessment, perhaps about one of its attributes. -/
structure Comment where
  id : Int
  assessmentId : Int
  definitionId : Option Int
  description : String
  deriving DecidableEq, Repr

/-- The tables. -/
structure Store where
  people : List Person
  assessments : List Assessment
  roles : List Role
  definitions : List Definition
  values : List StoredValue
  evidence : List Evidence
  comments : List Comment
  deriving DecidableEq, Repr

/-- A store without rows. -/
def Store.empty : Store := ⟨[], [], [], [], [], [], []⟩

/-- The owner type of definitions that belong to a single assessment. -/
def Definition.localType : String := "assessment"

/-- The role whose members verify an assessment. -/
def Role.verifier : String := "Verifiers"

end BulkAssessment
