import BulkAssessment.Attribute.Normal
import BulkAssessment.Request

/-!
# Assessment stubs

A stub collects what a request says about one assessment: the normalized values by
title, the evidence and the comments. The registry keeps one stub for each assessment
in the order in which the ids were first named.

`Assembly.ofRequest` folds the entries of a request into a registry. Repeated entries
add up: evidence and comments are appended, the last value of a title and the last
slug that is not empty win.
-/

namespace BulkAssessment

/-- A comment on an attribute. -/
structure CommentRecord where
  description : String
  definitionId : Int
  deriving DecidableEq, Repr

/-- What is collected for one assessment. -/
structure Stub where
  files : List String
  urls : List String
  comments : List CommentRecord
  /-- Normalized values, ordered by title. -/
  values : List (String × String)
  slug : String
  needsVerification : Bool
  deriving DecidableEq, Repr

namespace Stub

/-- A stub about which nothing is known. -/
def empty : Stub := ⟨[], [], [], [], "", false⟩

instance : Inhabited Stub := ⟨empty⟩

/-- The normalized value of a title. -/
def value? (s : Stub) (title : String) : Option String :=
  Json.member? title s.values

/-- Add one submission. -/
def submit (people : PeopleIndex) (s : Stub) (v : Submission) : Stub where
  files := s.files ++ v.files
  urls := s.urls ++ v.urls
  comments := s.comments ++ (v.comment?.map fun d => ⟨d, v.definitionId⟩).toList
  values := Json.setMember v.title (normalize people (rawText? v.value) v.typeName) s.values
  slug := s.slug
  needsVerification := s.needsVerification

/-- Add all submissions of an entry, and its slug unless that is empty. -/
def enter (people : PeopleIndex) (s : Stub) (e : Entry) : Stub :=
  e.submissions.foldl (submit people) (if e.slug.isEmpty then s else { s with slug := e.slug })

end Stub

/-- The stubs by assessment id, in the order of registration. -/
structure Registry where
  stubs : List (Int × Stub)
  deriving DecidableEq, Repr

namespace Registry

/-- No stubs. -/
def empty : Registry := ⟨[]⟩

/-- The stub of an assessment. -/
def get? (r : Registry) (id : Int) : Option Stub :=
  Keyed.get? id r.stubs

/-- Change the stub of an assessment, an empty one being registered first if there is
none. -/
def update (r : Registry) (id : Int) (f : Stub → Stub) : Registry :=
  ⟨Keyed.alter id (fun s => f (s.getD Stub.empty)) r.stubs⟩

/-- Register an assessment. -/
def register (r : Registry) (id : Int) : Registry :=
  r.update id fun s => s

/-- Change the stub of an assessment that is registered. -/
def modify (r : Registry) (id : Int) (f : Stub → Stub) : Registry :=
  ⟨Keyed.modify id f r.stubs⟩

/-- Empty stubs for the given ids. -/
def ofIds (ids : List Int) : Registry :=
  ids.foldl register empty

/-- The registered ids. -/
def ids (r : Registry) : List Int :=
  Keyed.keys r.stubs

/-- The stubs without their ids. -/
def toList (r : Registry) : List Stub :=
  r.stubs.map Prod.snd

end Registry

/-- The stubs of a request, and the titles of its values in the order in which they
were first submitted. -/
structure Assembly where
  registry : Registry
  titles : List String
  deriving DecidableEq, Repr

namespace Assembly

/-- Add the entries of a request one after the other. -/
def enterAll (people : PeopleIndex) (r : Registry) (entries : List Entry) : Registry :=
  entries.foldl (fun r e => r.update e.assessmentId fun s => s.enter people e) r

/-- The stubs of a request: the requested assessments come first. -/
def ofRequest (people : PeopleIndex) (request : BulkRequest) : Assembly where
  registry := enterAll people (Registry.ofIds request.ids) request.entries
  titles := Keyed.firsts (request.submissions.map Submission.title)

end Assembly

/-- The person that a submission names, if it is one for a person. -/
def Submission.personId? (v : Submission) : Option Int :=
  if AttributeKind.ofName v.typeName = .person then
    BulkAssessment.personId? (rawText? v.value)
  else none

/-- The people whose emails a request needs. -/
def BulkRequest.personIds (r : BulkRequest) : List Int :=
  Keyed.firsts (r.submissions.filterMap Submission.personId?)

end BulkAssessment
