import BulkAssessment.Text.Case
import BulkAssessment.Text.Pieces

/-!
# Checkbox words and dropdown options

The options of a dropdown are one text with commas between them. A cell picks the
first option that equals it up to case and outer blanks, and the option's own spelling
is what is stored. A multiselect cell is a list of such picks; one that fits no option
makes the whole cell invalid.
-/

namespace BulkAssessment

/-- The words for a checked box. -/
def yesWords : List String := ["yes", "true", "1"]

/-- The words for an unchecked box; an empty cell unchecks it. -/
def noWords : List String := ["no", "false", "0", ""]

/-- The stored form of a checkbox cell. -/
def checkbox? (cell : String) : Option String :=
  let word := Text.fold (Text.trim cell)
  if word ∈ yesWords then some "1"
  else if word ∈ noWords then some "0"
  else none

/-- The options of a list text, in its own spelling. -/
def optionsOf (options : String) : List String :=
  (Text.pieces ',' options).map Text.trim

/-- The first option that a cell fits. -/
def matchOption? (options : Option String) (cell : String) : Option String :=
  options.bind fun o => (optionsOf o).find? fun x => Text.sameFolded x (Text.trim cell)

/-- The options that the parts of a cell fit, joined again; none if a part fits none. -/
def matchOptions? (options : Option String) (cell : String) : Option String :=
  ((Text.filledPieces ',' cell).mapM (matchOption? options)).map (Text.join ",")

end BulkAssessment
