import BulkAssessment.Attribute.Kind
import BulkAssessment.Json.Writer
import BulkAssessment.Keyed

/-!
# Normalized attribute values

A submitted value is a JSON value in the form that the edit grid keeps it: a checkbox
is `"1"` or not, a person is given by an id. Import cells hold texts instead: `yes` or
`no`, and the email of the person. `normalize` goes from the first form to the second.
A person who is not in the index becomes the empty text.
-/

namespace BulkAssessment

/-- Emails by person id. -/
structure PeopleIndex where
  emails : List (Int × String)

namespace PeopleIndex

/-- The index of ids and emails, a later email of an id replacing an earlier one. -/
def ofList (people : List (Int × String)) : PeopleIndex :=
  ⟨people.foldl (fun es p => Keyed.alter p.1 (fun _ => p.2) es) []⟩

/-- The email of a person. -/
def email? (people : PeopleIndex) (id : Int) : Option String :=
  Keyed.get? id people.emails

end PeopleIndex

/-- The text of a submitted value: `null` has none, a truth value is the text of a
checkbox, and what is no text already is written as JSON. -/
def rawText? : Json → Option String
  | .null => none
  | .string s => some s
  | .bool true => some "1"
  | .bool false => some "0"
  | value => some value.text

/-- The person that a raw text names by id. -/
def personId? (raw : Option String) : Option Int :=
  raw.bind fun s => Text.readId? (Text.trim s)

/-- The cell text of a raw value of the given kind. -/
def normalizeAs (people : PeopleIndex) (raw : Option String) : AttributeKind → String
  | .checkbox => if raw = some "1" then "yes" else "no"
  | .person => ((personId? raw).bind people.email?).getD ""
  | _ => raw.getD ""

/-- The cell text of a raw value of the type with the given name. -/
def normalize (people : PeopleIndex) (raw : Option String) (typeName : String) : String :=
  normalizeAs people raw (AttributeKind.ofName typeName)

end BulkAssessment
