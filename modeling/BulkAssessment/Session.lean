import BulkAssessment.Matrix
import BulkAssessment.Operation

/-!
# Sessions

A session is a store behind a connection that can be closed. As long as it is closed
every question to the store fails; a service that has nothing to ask, for instance
because it was given no ids, still answers.
-/

namespace BulkAssessment

/-- A store and whether it can be reached. -/
structure Session where
  store : Store
  isOpen : Bool

/-- Why the store did not answer. -/
inductive Failure where
  | closed
  | violation (v : Violation)
  deriving DecidableEq, Repr

namespace Failure

/-- The text of a failure. -/
def message : Failure → String
  | closed => "attempted to acquire a connection on a closed pool"
  | violation v => v.message

/-- The text of a failure as a failure of the database. -/
def databaseMessage (f : Failure) : String :=
  "Database error: " ++ f.message

end Failure

/-- Why a bulk operation did not take place. -/
inductive ServiceError where
  | badRequest (b : BadRequest)
  | failure (f : Failure)
  deriving DecidableEq, Repr

/-- The result of an operation, addressed to the user who asked for it. -/
structure Notice where
  operation : Operation
  recipient : Option String
  outcome : Outcome
  deriving DecidableEq, Repr

namespace Operation

/-- Whether an admitted request has anything to ask of the store. -/
def asks (op : Operation) (request : BulkRequest) : Bool :=
  match op with
  | save => !request.entries.isEmpty
  | _ => true

end Operation

namespace Session

/-- A session over an empty store. -/
def start : Session := ⟨Store.empty, true⟩

/-- Ask the store, if there is anything to ask. -/
def query {α : Type} (s : Session) (asks : Bool) (answer : Store → α) : Except Failure α :=
  if asks && !s.isOpen then .error .closed else .ok (answer s.store)

/-- Change the store; the change may break a constraint. -/
def change {α : Type} (s : Session) (f : Store → Except Violation (Store × α)) :
    Except Failure (Session × α) :=
  if s.isOpen then
    match f s.store with
    | .ok (store, x) => .ok ({ s with store := store }, x)
    | .error v => .error (.violation v)
  else .error .closed

/-- Insert a batch up to the first row that is refused; earlier rows stay. A batch without
rows asks nothing of the store. -/
def insertBatch (s : Session) (b : Store.Batch) : Session × Option Failure :=
  if s.isOpen then
    let (store, v) := s.store.insertBatch b
    ({ s with store := store }, v.map Failure.violation)
  else (s, if b.isEmpty then none else some .closed)

/-- Import blocks. -/
def importBlocks (s : Session) (today : Date) (blocks : List Block) :
    Except Failure (Session × Report) := do
  let r ← s.query (Block.hasWork blocks) fun store => store.importBlocks today blocks
  pure ({ s with store := r.store }, r.report)

/-- Sort ids by what became of them. -/
def outcome (s : Session) (appUrl : String) (updateErrors partialErrors : TextSet)
    (requested : List Int) : Except Failure Outcome :=
  s.query (!updateErrors.toList.isEmpty || !partialErrors.toList.isEmpty || !requested.isEmpty)
    fun store => store.outcome appUrl updateErrors partialErrors requested

/-- The matrix of the assessments with the given ids. -/
def search (s : Session) (ids : List Int) : Except Failure Matrix :=
  s.query (!ids.isEmpty) fun store => store.search ids

/-- Carry out a bulk operation: the session after it and the notice that is sent. -/
def perform (s : Session) (op : Operation) (appUrl : String) (today : Date)
    (recipient : Option String) (request : BulkRequest) :
    Except ServiceError (Session × Notice) :=
  match op.perform s.store appUrl today request with
  | .error b => .error (.badRequest b)
  | .ok (store, outcome) =>
    if op.asks request && !s.isOpen then .error (.failure .closed)
    else .ok ({ s with store := store }, ⟨op, recipient, outcome⟩)

end Session

end BulkAssessment
