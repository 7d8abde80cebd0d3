import BulkAssessment.Json.Decode

/-!
# Bulk requests

A bulk request names assessments by id and carries values for the attributes of some
of them. A submission is one value of one attribute, with evidence and a comment that
go with it.
-/

namespace BulkAssessment

/-- What is attached along with a value. -/
structure Attachment where
  /-- A comment, and its text if it has one. -/
  comment : Option (Option String)
  urls : List String
  /-- The ids of stored files. -/
  files : List String
  deriving Repr

/-- One attribute value as submitted. -/
structure Submission where
  value : Json
  title : String
  typeName : String
  /-- The assessment that owns the definition. -/
  ownerId : Option Int
  definitionId : Int
  extra : Option Attachment
  deriving Repr

namespace Submission

/-- The text of the comment that comes with a value. -/
def comment? (s : Submission) : Option String :=
  s.extra.bind fun e => e.comment.join

/-- The links that come with a value. -/
def urls (s : Submission) : List String :=
  (s.extra.map Attachment.urls).getD []

/-- The files that come with a value. -/
def files (s : Submission) : List String :=
  (s.extra.map Attachment.files).getD []

end Submission

/-- The submissions for one assessment. -/
structure Entry where
  assessmentId : Int
  slug : String
  submissions : List Submission
  deriving Repr

/-- A request to complete, verify or save. -/
structure BulkRequest where
  ids : List Int
  entries : List Entry
  deriving Repr

namespace BulkRequest

/-- All submissions in their order. -/
def submissions (r : BulkRequest) : List Submission :=
  r.entries.flatMap Entry.submissions

end BulkRequest

/-! ## Decoding -/

namespace Tree

/-- The form of a comment with an optional text. -/
def commentForm : Form (Option (Option String)) (Option String) where
  names := ["description"]
  start := none
  has := fun s _ => s.isSome
  put := fun _ _ room t => do pure (some (← decodeOption decodeText room t))
  finish := fun s => some s.join

/-- A comment with an optional text. -/
def decodeComment : Decoder (Option String) := commentForm.decode

/-- The form of a stored file. -/
def fileForm : Form (Option String) String where
  names := ["source_gdrive_id"]
  start := none
  has := fun s _ => s.isSome
  put := fun _ _ room t => do pure (some (← decodeText room t))
  finish := id

/-- A stored file. -/
def decodeFile : Decoder String := fileForm.decode

/-- The fields of an attachment as far as they are given. -/
structure AttachmentFields where
  comment : Option (Option (Option String))
  urls : Option (List String)
  files : Option (List String)

/-- The form of what is attached along with a value. -/
def attachmentForm : Form AttachmentFields Attachment where
  names := ["comment", "urls", "files"]
  start := ⟨none, none, none⟩
  has := fun s name => match name with
    | "comment" => s.comment.isSome
    | "urls" => s.urls.isSome
    | _ => s.files.isSome
  put := fun s name room t => match name with
    | "comment" => do pure { s with comment := some (← decodeOption decodeComment room t) }
    | "urls" => do pure { s with urls := some (← decodeList decodeText room t) }
    | _ => do pure { s with files := some (← decodeList decodeFile room t) }
  finish := fun s => some ⟨s.comment.join, s.urls.getD [], s.files.getD []⟩

/-- What is attached along with a value. -/
def decodeAttachment : Decoder Attachment := attachmentForm.decode

/-- The fields of a submission as far as they are given. -/
structure SubmissionFields where
  value : Option Json
  title : Option String
  typeName : Option String
  ownerId : Option (Option Int)
  definitionId : Option Int
  extra : Option (Option Attachment)

/-- The form of one attribute value. -/
def submissionForm : Form SubmissionFields Submission where
  names := ["value", "title", "type", "definition_id", "id", "extra"]
  start := ⟨none, none, none, none, none, none⟩
  has := fun s name => match name with
    | "value" => s.value.isSome
    | "title" => s.title.isSome
    | "type" => s.typeName.isSome
    | "definition_id" => s.ownerId.isSome
    | "id" => s.definitionId.isSome
    | _ => s.extra.isSome
  put := fun s name room t => match name with
    | "value" => do pure { s with value := some (← decodeJson room t) }
    | "title" => do pure { s with title := some (← decodeText room t) }
    | "type" => do pure { s with typeName := some (← decodeText room t) }
    | "definition_id" => do pure { s with ownerId := some (← decodeOption decodeId room t) }
    | "id" => do pure { s with definitionId := some (← decodeId room t) }
    | _ => do pure { s with extra := some (← decodeOption decodeAttachment room t) }
  finish := fun s => do
    pure ⟨s.value.getD .null, ← s.title, ← s.typeName, s.ownerId.join, ← s.definitionId,
      s.extra.join⟩

/-- One attribute value. -/
def decodeSubmission : Decoder Submission := submissionForm.decode

/-- The fields of the assessment of an entry as far as they are given. -/
structure SubjectFields where
  id : Option Int
  slug : Option String

/-- The form of the id and the slug of an assessment. -/
def subjectForm : Form SubjectFields (Int × String) where
  names := ["id", "slug"]
  start := ⟨none, none⟩
  has := fun s name => match name with
    | "id" => s.id.isSome
    | _ => s.slug.isSome
  put := fun s name room t => match name with
    | "id" => do pure { s with id := some (← decodeId room t) }
    | _ => do pure { s with slug := some (← decodeText room t) }
  finish := fun s => s.id.map fun id => (id, s.slug.getD "")

/-- The id and the slug of an assessment. -/
def decodeSubject : Decoder (Int × String) := subjectForm.decode

/-- The fields of an entry as far as they are given. -/
structure EntryFields where
  subject : Option (Int × String)
  submissions : Option (List Submission)

/-- The form of the submissions for one assessment. -/
def entryForm : Form EntryFields Entry where
  names := ["assessment", "values"]
  start := ⟨none, none⟩
  has := fun s name => match name with
    | "assessment" => s.subject.isSome
    | _ => s.submissions.isSome
  put := fun s name room t => match name with
    | "assessment" => do pure { s with subject := some (← decodeSubject room t) }
    | _ => do pure { s with submissions := some (← decodeList decodeSubmission room t) }
  finish := fun s => s.subject.map fun (id, slug) => ⟨id, slug, s.submissions.getD []⟩

/-- The submissions for one assessment. -/
def decodeEntry : Decoder Entry := entryForm.decode

/-- The fields of a request as far as they are given. -/
structure RequestFields where
  ids : Option (List Int)
  entries : Option (List Entry)

/-- The form of a request to complete, verify or save. -/
def requestForm : Form RequestFields BulkRequest where
  names := ["assessments_ids", "attributes"]
  start := ⟨none, none⟩
  has := fun s name => match name with
    | "assessments_ids" => s.ids.isSome
    | _ => s.entries.isSome
  put := fun s name room t => match name with
    | "assessments_ids" => do pure { s with ids := some (← decodeList decodeId room t) }
    | _ => do pure { s with entries := some (← decodeList decodeEntry room t) }
  finish := fun s => some ⟨s.ids.getD [], s.entries.getD []⟩

/-- A request to complete, verify or save. -/
def decodeRequest : Decoder BulkRequest := requestForm.decode

/-- The form of the ids of a search. -/
def searchForm : Form (Option (List Int)) (List Int) where
  names := ["ids"]
  start := none
  has := fun s _ => s.isSome
  put := fun _ _ room t => do pure (some (← decodeList decodeId room t))
  finish := fun s => some (s.getD [])

/-- The ids of a search. -/
def decodeSearch : Decoder (List Int) := searchForm.decode

end Tree

end BulkAssessment
