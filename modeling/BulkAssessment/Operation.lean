import BulkAssessment.Import.Run
import BulkAssessment.Notification

/-!
# Bulk operations

Each operation turns a request into import blocks, imports them and sorts the
requested assessments by what became of them.

* `complete` stores the submitted values and then completes the requested assessments,
  or sends those with verifiers to review. Assessments whose rows failed are left out.
* `verify` completes requested assessments that are in review and have verifiers.
* `save` stores submitted values without touching any state on purpose; it takes no
  list of ids and reports on the assessments that values were submitted for.
-/

namespace BulkAssessment

/-- A request that an operation does not take. -/
inductive BadRequest where
  /-- The operation needs ids. -/
  | missingIds (op : Operation)
  /-- The operation takes no ids. -/
  | unexpectedIds (op : Operation)
  deriving DecidableEq, Repr

/-- What the caller is told. -/
def BadRequest.message : BadRequest → String
  | missingIds op =>
    "assessments_ids list for /" ++ op.name ++ " operation can't be empty."
  | unexpectedIds op =>
    "assessments_ids list for /" ++ op.name ++ " operation should be empty."

/-- Refuse a request whose list of ids does not suit the operation. -/
def Operation.admit (op : Operation) (request : BulkRequest) : Except BadRequest Unit :=
  match op with
  | .save => if request.ids.isEmpty then .ok () else .error (.unexpectedIds op)
  | _ => if request.ids.isEmpty then .error (.missingIds op) else .ok ()

namespace Store

/-- Give the stubs of the assessments that exist their slugs, and mark those that have
verifiers. The stubs of other ids keep the slug that the request sent. -/
def loadFlags (s : Store) (r : Registry) : Registry :=
  (s.assessmentsByIds r.ids).foldl
    (fun r a => r.modify a.id fun stub =>
      { stub with needsVerification := s.hasVerifier a.id, slug := a.slug }) r

/-- The stubs of a request, with the emails of the people it names. -/
def assemble (s : Store) (request : BulkRequest) : Assembly :=
  Assembly.ofRequest (PeopleIndex.ofList (s.emailsByIds request.personIds)) request

/-- The stubs of a request as the store knows their assessments. -/
def assembleFlagged (s : Store) (request : BulkRequest) : Assembly :=
  let a := s.assemble request
  { a with registry := s.loadFlags a.registry }

/-- Store the values of a request, then complete the assessments it asks for. -/
def runComplete (s : Store) (today : Date) (request : BulkRequest) : Run :=
  let a := s.assembleFlagged request
  let saved := s.importBlocks today a.updateBlocks
  let completed := saved.store.importBlocks today
    (a.registry.completionBlock? request.ids saved.report.errors).toList
  ⟨completed.store, saved.report.merge completed.report⟩

/-- The slugs of stubs without verifiers. -/
def unverifiable (r : Registry) : TextSet :=
  TextSet.ofList ((r.toList.filter fun stub =>
    !stub.slug.isEmpty && !stub.needsVerification).map Stub.slug)

/-- Verify the requested assessments. -/
def runVerify (s : Store) (today : Date) (request : BulkRequest) : Run :=
  let r := s.loadFlags (Registry.ofIds request.ids)
  let verified := s.importBlocks today (r.verificationBlock? today).toList
  ⟨verified.store, Report.merge ⟨unverifiable r, ∅⟩ verified.report⟩

/-- Store the values of a request. -/
def runSave (s : Store) (today : Date) (request : BulkRequest) : Run :=
  s.importBlocks today (s.assembleFlagged request).updateBlocks

end Store

namespace Operation

/-- What an operation does to the store, and its report. -/
def run (op : Operation) (s : Store) (today : Date) (request : BulkRequest) : Run :=
  match op with
  | complete => s.runComplete today request
  | verify => s.runVerify today request
  | save => s.runSave today request

/-- The assessments that an operation reports on. -/
def subjects (op : Operation) (request : BulkRequest) : List Int :=
  match op with
  | save => Keyed.firsts (request.entries.map Entry.assessmentId)
  | _ => request.ids

/-- Carry out an operation: the store after it and the outcome, or the reason why the
request is not taken. -/
def perform (op : Operation) (s : Store) (appUrl : String) (today : Date)
    (request : BulkRequest) : Except BadRequest (Store × Outcome) := do
  op.admit request
  let r := op.run s today request
  pure (r.store, r.store.outcome appUrl r.report.errors r.report.partials (op.subjects request))

end Operation

end BulkAssessment
