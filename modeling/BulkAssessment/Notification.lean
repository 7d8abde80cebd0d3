import BulkAssessment.Keyed
import BulkAssessment.Store.Query
import BulkAssessment.Text.Integer
import BulkAssessment.TextSet

/-!
# Notifications

The outcome of a bulk operation sorts the requested assessments into those that could
not be updated, those updated in part, those that succeeded, and the ids that are not
in the store any more. Every requested id is in exactly one of the four lists, once.
-/

namespace BulkAssessment

/-- The operations that report their outcome. -/
inductive Operation where
  | complete
  | verify
  | save
  deriving DecidableEq, Repr

namespace Operation

/-- All operations. -/
def all : List Operation := [complete, verify, save]

/-- The name of an operation. -/
def name : Operation → String
  | complete => "complete"
  | verify => "verify"
  | save => "save"

/-- The subject of the notification. -/
def title : Operation → String
  | complete => "Completing certifications in bulk is finished"
  | verify => "Bulk update of Assessments is finished"
  | save => "Saving certifications in bulk is finished"

end Operation

/-- A link to an assessment. -/
structure Mention where
  title : String
  url : String
  deriving DecidableEq, Repr

/-- The outcome of a bulk operation. -/
structure Outcome where
  updateErrors : List Mention
  partialErrors : List Mention
  succeeded : List Mention
  /-- Ids without an assessment. -/
  deleted : List Int
  deriving DecidableEq, Repr

/-- The number of assessments in all lists. -/
def Outcome.total (o : Outcome) : Nat :=
  o.updateErrors.length + o.partialErrors.length + o.succeeded.length + o.deleted.length

/-- The page of an assessment in the application at a base address. -/
def assessmentUrl (appUrl : String) (id : Int) : String :=
  Text.trimEndOf '/' appUrl ++ "/assessments/" ++ Text.intText id

/-- The link to an assessment. -/
def Assessment.mention (appUrl : String) (a : Assessment) : Mention :=
  ⟨a.title, assessmentUrl appUrl a.id⟩

namespace Store

/-- The requested assessments whose slugs are in a set. -/
def slugMatches (s : Store) (slugs : TextSet) (requested : List Int) : List Assessment :=
  (s.assessmentsBySlugs slugs.toList).filter fun a => requested.contains a.id

/-- The requested ids that are not among the given assessments, each once. -/
def othersThan (requested : List Int) (found : List Assessment) : List Int :=
  (Keyed.firsts requested).filter fun id => !found.any fun a => a.id == id

/-- Sort the requested ids by the slugs that failed and those applied in part. A slug
in both sets counts as failed, and slugs that were not requested do not count. -/
def outcome (s : Store) (appUrl : String) (updateErrors partialErrors : TextSet)
    (requested : List Int) : Outcome :=
  let failed := s.slugMatches updateErrors requested
  let halfDone := (s.slugMatches partialErrors requested).filter fun a =>
    !failed.any fun b => b.id == a.id
  let others := othersThan requested (failed ++ halfDone)
  { updateErrors := failed.map (Assessment.mention appUrl)
    partialErrors := halfDone.map (Assessment.mention appUrl)
    succeeded := (others.filterMap s.assessment?).map (Assessment.mention appUrl)
    deleted := others.filter fun id => (s.assessment? id).isNone }

end Store

end BulkAssessment
