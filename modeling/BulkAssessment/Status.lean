import BulkAssessment.Text.Blank
import BulkAssessment.Text.Case

/-!
# Workflow states

The status of an assessment is a text, and any text may be stored. Seven of them name
the states of the workflow. An edit takes an assessment that is done, or not started,
back to `In Progress`.
-/

namespace BulkAssessment

/-- A state of the workflow. -/
inductive State where
  | notStarted
  | inProgress
  | inReview
  | verified
  | completed
  | deprecated
  | reworkNeeded
  deriving DecidableEq, Repr

namespace State

/-- The status text of a state. -/
def name : State → String
  | notStarted => "Not Started"
  | inProgress => "In Progress"
  | inReview => "In Review"
  | verified => "Verified"
  | completed => "Completed"
  | deprecated => "Deprecated"
  | reworkNeeded => "Rework Needed"

/-- All states. -/
def all : List State :=
  [notStarted, inProgress, inReview, verified, completed, deprecated, reworkNeeded]

/-- The state that a text names, whatever its case and the blanks around it. -/
def ofName? (s : String) : Option State :=
  all.find? fun state => Text.sameFolded state.name (Text.trim s)

/-- The states whose assessments are finished. -/
def done : List State := [inReview, verified, completed]

/-- Whether a change to this state needs the mandatory values. -/
def needsValues (s : State) : Bool := s == completed || s == inReview

end State

/-- A status text that names, letter for letter, a finished state. -/
def isDone (status : String) : Bool :=
  (State.done.map State.name).contains status

/-- A status text that an edit turns into `In Progress`. -/
def reopens (status : String) : Bool :=
  isDone status || status == State.notStarted.name

end BulkAssessment
