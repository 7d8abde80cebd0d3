import BulkAssessment.Text.Blank
import BulkAssessment.Text.Case

/-!
# Kinds of custom attributes

The type of a custom attribute is named by a text. Names are compared without the
blanks around them and without regard to case; a name that is not known is of the
kind `other`, which is handled like plain text.
-/

namespace BulkAssessment

/-- What a custom attribute holds. -/
inductive AttributeKind where
  | text
  | richText
  | date
  | checkbox
  | dropdown
  | multiselect
  | person
  | other
  deriving DecidableEq, Repr

namespace AttributeKind

/-- The canonical name of a kind. -/
def name : AttributeKind → String
  | text => "Text"
  | richText => "Rich Text"
  | date => "Date"
  | checkbox => "Checkbox"
  | dropdown => "Dropdown"
  | multiselect => "Multiselect"
  | person => "Map:Person"
  | other => "Other"

/-- The kinds that a type name can ask for. -/
def named : List AttributeKind :=
  [text, richText, date, checkbox, dropdown, multiselect, person]

/-- The kind that a type name stands for. -/
def ofName (typeName : String) : AttributeKind :=
  (named.find? fun k => Text.sameFolded k.name (Text.trim typeName)).getD other

end AttributeKind

end BulkAssessment
