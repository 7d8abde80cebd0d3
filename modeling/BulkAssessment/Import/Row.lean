import BulkAssessment.Attribute.Options
import BulkAssessment.Block.Layout
import BulkAssessment.Impact
import BulkAssessment.Store.Update

/-!
# Import rows

A row of a recognized block is applied to the store as a whole or rejected as a whole.

* An attributes row sets the values of one assessment and attaches evidence to it. A
  cell without a definition of its title, or with a value that its definition does not
  allow, is left out with a warning. A row that changed a value or attached anything
  takes a finished or not started assessment back to `In Progress`.
* A state row moves one assessment to another state. With a verified date it verifies:
  the assessment has to be in review. Without one, completion and review need all
  mandatory values.
* A comment row adds a comment about a definition to the assessment that owns it.
-/

namespace BulkAssessment

/-- Why a row is rejected. -/
inductive Rejection where
  /-- No assessment has this code. -/
  | unknownAssessment (code : String)
  /-- The text names no state. -/
  | unknownState (text : String)
  /-- Verification of an assessment that is not in review but has this status. -/
  | notInReview (status : String)
  /-- The text is no date. -/
  | badDate (text : String)
  /-- A mandatory value is missing. -/
  | unfilled
  /-- The text is no id of a definition. -/
  | badDefinition (text : String)
  /-- The comment is blank. -/
  | emptyComment
  /-- No definition of a single assessment has this id. -/
  | unknownDefinition (id : Int)
  /-- The definition has no owner. -/
  | ownerless (id : Int)
  /-- The row breaks a constraint of the store. -/
  | violation (v : Violation)
  deriving DecidableEq, Repr

/-- The assessment with a code, or the rejection of a row that names no assessment. -/
def Store.subject (s : Store) (code : String) : Except Rejection Assessment :=
  match s.assessmentBySlug? code with
  | some a => .ok a
  | none => .error (.unknownAssessment code)

/-- A violation as the reason of a rejection. -/
def asRejection {α : Type} : Except Violation α → Except Rejection α
  | .ok x => .ok x
  | .error v => .error (.violation v)

/-! ## Attribute cells -/

/-- What a cell says is to be stored. -/
structure CellValue where
  value : Option String
  personId : Option Int
  deriving DecidableEq, Repr

namespace CellValue

/-- A text. -/
def ofText (s : String) : CellValue := ⟨some s, none⟩

/-- A person; the text only tells that there is one. -/
def ofPerson (id : Int) : CellValue := ⟨some "Person", some id⟩

/-- No value. -/
def none : CellValue := ⟨.none, .none⟩

/-- What is stored on an object. -/
def ofStored (v : Option StoredValue) : CellValue :=
  ⟨v.bind StoredValue.value, v.bind StoredValue.personId⟩

/-- The fields by which values are compared: an empty text is as good as none. -/
def snapshot (c : CellValue) : Snapshot :=
  (Snapshot.empty.set "attribute_value" (match c.value.filter fun s => !s.isEmpty with
    | some s => .string s
    | .none => .null)).set "attribute_object_id" (match c.personId with
    | some id => .int id
    | .none => .null)

end CellValue

/-- What a trimmed cell says for a definition; none if the definition does not allow it. -/
def Store.cellValue? (s : Store) (d : Definition) (raw : String) : Option CellValue :=
  match AttributeKind.ofName d.typeName with
  | .checkbox => (checkbox? raw).map .ofText
  | .person =>
    if raw.isEmpty then some .none else (s.personByEmail? raw).map .ofPerson
  | .dropdown =>
    if raw.isEmpty then some (.ofText raw) else (matchOption? d.options raw).map .ofText
  | .multiselect =>
    if raw.isEmpty then some (.ofText raw) else (matchOptions? d.options raw).map .ofText
  | _ => some (.ofText raw)

/-- Store what a cell says; a value that is empty in every respect is removed. -/
def Store.putCell (s : Store) (definitionId assessmentId : Int) (c : CellValue) :
    Except Violation Store :=
  if c = .none then .ok (s.removeValue definitionId assessmentId)
  else s.setValue definitionId assessmentId c.value c.personId

/-- How far an attributes row has got. -/
structure Progress where
  store : Store
  /-- A cell was left out. -/
  warned : Bool
  /-- The assessment was affected by a change. -/
  affected : Bool

namespace Progress

/-- The rules for values of attributes that change on an assessment. -/
def valueRules : ImpactRules := ImpactRules.between .attributeValue .assessment

/-- Leave a cell out. -/
def skip (p : Progress) : Progress := { p with warned := true }

/-- Store the value of a definition unless it is stored already. -/
def put (p : Progress) (assessmentId : Int) (d : Definition) (c : CellValue) :
    Except Violation Progress :=
  let before := (CellValue.ofStored (p.store.value? d.id assessmentId)).snapshot
  let after := c.snapshot
  if (before.changed after).toList.isEmpty then .ok p
  else do
    let store ← p.store.putCell d.id assessmentId c
    pure { p with store := store, affected := p.affected || valueRules.affected before after }

/-- Apply the cell of a title. -/
def applyCell (p : Progress) (assessmentId : Int) (title raw : String) :
    Except Violation Progress :=
  match p.store.definitionTitled? assessmentId title with
  | none => .ok p.skip
  | some d => match p.store.cellValue? d raw with
    | none => .ok p.skip
    | some c => p.put assessmentId d c

/-- Attach a link unless it is attached already. -/
def attach (p : Progress) (assessmentId : Int) (kind : EvidenceKind) (link : String) :
    Except Violation Progress :=
  if p.store.hasEvidence assessmentId kind link then .ok p
  else do
    let (store, _) ← p.store.attach assessmentId kind link
    pure { p with store := store, affected := true }

end Progress

/-- The links of an evidence cell, one a line. -/
def evidenceLines (cell : String) : List String :=
  Text.filledPieces '\n' cell

/-! ## Rows -/

namespace Store

/-- The cells of an attributes row, from left to right. -/
def applyCells (s : Store) (l : AttributesLayout) (row : Row) (assessmentId : Int) :
    Except Violation Progress :=
  l.attributes.foldlM (fun p (column, title) => p.applyCell assessmentId title (cell row column))
    ⟨s, false, false⟩

/-- The evidence of an attributes row, links before files. -/
def applyEvidence (p : Progress) (l : AttributesLayout) (row : Row) (assessmentId : Int) :
    Except Violation Progress := do
  let p ← (evidenceLines (cellOf row l.urls)).foldlM (fun p link => p.attach assessmentId .url link) p
  (evidenceLines (cellOf row l.files)).foldlM (fun p link => p.attach assessmentId .file link) p

/-- Reopen an assessment that was affected by a row. -/
def reopen (p : Progress) (a : Assessment) : Store :=
  if reopens a.status && p.affected then
    p.store.transit a.id ⟨State.inProgress.name, none, none⟩
  else p.store

/-- An attributes row: the store after it, and whether a cell was left out. -/
def applyAttributes (s : Store) (l : AttributesLayout) (row : Row) :
    Except Rejection (Store × Bool) := do
  let a ← s.subject (cell row l.code)
  let p ← asRejection (s.applyCells l row a.id)
  let p ← asRejection (applyEvidence p l row a.id)
  pure (reopen p a, p.warned)

/-- Verification on a date given by a cell. -/
def applyVerification (s : Store) (a : Assessment) (target : State) (date : String) :
    Except Rejection Store :=
  if a.status ≠ State.inReview.name then .error (.notInReview a.status)
  else match Date.ofCell? date with
    | none => .error (.badDate date)
    | some d => .ok (s.transit a.id ⟨target.name, none, some d.storedText⟩)

/-- A move to another state; completion sets the finished date. -/
def applyMove (s : Store) (today : Date) (a : Assessment) (target : State) :
    Except Rejection Store :=
  if target.needsValues && !s.isFilled a.id then .error .unfilled
  else
    .ok (s.transit a.id
      ⟨target.name, if target = .completed then some today.storedText else none, none⟩)

/-- A state row. -/
def applyState (s : Store) (today : Date) (l : StateLayout) (row : Row) :
    Except Rejection Store := do
  let a ← s.subject (cell row l.code)
  match State.ofName? (cell row l.state) with
  | none => .error (.unknownState (cell row l.state))
  | some target =>
    let date := cellOf row l.verifiedDate
    if date.isEmpty then s.applyMove today a target else s.applyVerification a target date

/-- A comment row. -/
def applyComment (s : Store) (l : CommentLayout) (row : Row) : Except Rejection Store :=
  let description := cell row l.description
  match Text.readId? (cell row l.definition) with
  | none => .error (.badDefinition (cell row l.definition))
  | some id =>
    if description.isEmpty then .error .emptyComment
    else match s.localDefinition? id with
      | none => .error (.unknownDefinition id)
      | some d => match d.ownerId with
        | none => .error (.ownerless id)
        | some owner => (asRejection (s.comment owner (some d.id) description)).map Prod.fst

/-- A row of a block: the store after it, and whether a cell was left out. -/
def applyRow (s : Store) (today : Date) (row : Row) : BlockLayout →
    Except Rejection (Store × Bool)
  | .attributes l => s.applyAttributes l row
  | .state l => (s.applyState today l row).map fun s => (s, false)
  | .comment l => (s.applyComment l row).map fun s => (s, false)

end Store

end BulkAssessment
