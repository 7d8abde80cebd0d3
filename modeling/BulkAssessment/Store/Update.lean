import BulkAssessment.Store.Insert
import BulkAssessment.Store.Query

/-!
# Changing the store

A transition gives an assessment a status and, where it brings them, new dates; a date
that it does not bring stays. Setting a value keeps the id of the row and the flag of
its preconditions. Deleting a row deletes what refers to it, but comments outlive the
definition that they are about.
-/

namespace BulkAssessment

/-- A status, and the dates to set with it. -/
structure Transition where
  status : String
  finishedDate : Option String
  verifiedDate : Option String
  deriving DecidableEq, Repr

/-- The assessment after a transition. -/
def Assessment.after (a : Assessment) (t : Transition) : Assessment :=
  { a with
    status := t.status
    finishedDate := t.finishedDate <|> a.finishedDate
    verifiedDate := t.verifiedDate <|> a.verifiedDate }

namespace Store

/-- Take an assessment through a transition. -/
def transit (s : Store) (id : Int) (t : Transition) : Store :=
  { s with assessments := s.assessments.map fun a => if a.id == id then a.after t else a }

/-- Set the value of a definition on an object. -/
def setValue (s : Store) (definitionId objectId : Int) (value : Option String)
    (personId : Option Int) : Except Violation Store :=
  if (s.value? definitionId objectId).isSome then
    .ok { s with
      values := s.values.map fun v =>
        if v.isOf definitionId objectId then { v with value := value, personId := personId }
        else v }
  else
    s.insertValue ⟨some definitionId, some objectId, value, personId, none⟩

/-- Remove the value of a definition on an object. -/
def removeValue (s : Store) (definitionId objectId : Int) : Store :=
  { s with values := s.values.filter fun v => !v.isOf definitionId objectId }

/-- Attach evidence to an assessment, and tell its id. The id of a file is both its
link and its source. -/
def attach (s : Store) (assessmentId : Int) (kind : EvidenceKind) (link : String) :
    Except Violation (Store × Int) :=
  s.insertEvidence ⟨some assessmentId, some kind.name, some link,
    match kind with
    | .file => some link
    | .url => none⟩

/-- Comment on an assessment, and tell the id of the comment. -/
def comment (s : Store) (assessmentId : Int) (definitionId : Option Int)
    (description : String) : Except Violation (Store × Int) :=
  s.insertComment ⟨some assessmentId, definitionId, some description⟩

/-! ## Deleting -/

/-- A table with rows that can be deleted by id. -/
inductive Table where
  | assessments
  | people
  | definitions
  deriving DecidableEq, Repr

/-- Delete an assessment with its roles, evidence and comments. -/
def deleteAssessment (s : Store) (id : Int) : Store :=
  { s with
    assessments := s.assessments.filter fun a => a.id != id
    roles := s.roles.filter fun r => r.assessmentId != id
    evidence := s.evidence.filter fun e => e.assessmentId != id
    comments := s.comments.filter fun c => c.assessmentId != id }

/-- Delete a person with their roles. -/
def deletePerson (s : Store) (id : Int) : Store :=
  { s with
    people := s.people.filter fun p => p.id != id
    roles := s.roles.filter fun r => r.personId != id }

/-- Delete a definition with its values; its comments lose their reference. -/
def deleteDefinition (s : Store) (id : Int) : Store :=
  { s with
    definitions := s.definitions.filter fun d => d.id != id
    values := s.values.filter fun v => v.definitionId != id
    comments := s.comments.map fun c =>
      if c.definitionId = some id then { c with definitionId := none } else c }

/-- Delete a row and tell how many there were. -/
def delete (s : Store) (table : Table) (id : Int) : Store × Nat :=
  match table with
  | .assessments => (s.deleteAssessment id, s.assessments.countP fun a => a.id == id)
  | .people => (s.deletePerson id, s.people.countP fun p => p.id == id)
  | .definitions => (s.deleteDefinition id, s.definitions.countP fun d => d.id == id)

end Store

end BulkAssessment
