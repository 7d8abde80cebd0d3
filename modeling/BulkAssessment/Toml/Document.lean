import BulkAssessment.Toml.Number
import BulkAssessment.Toml.Table
import BulkAssessment.Toml.Text

/-!
# TOML documents

A document is a sequence of lines, each blank, a header in brackets, or a key with its
value. `parse?` gives the table that the document describes, and none if it breaks the
grammar or defines a key twice.
-/

namespace BulkAssessment.Toml

open Text

/-! ## Values -/

/-- A value without brackets or braces. -/
def readPlain? (cs : List Char) : Reading Value :=
  match cs with
  | 't' :: 'r' :: 'u' :: 'e' :: rest => some (.plain, rest)
  | 'f' :: 'a' :: 'l' :: 's' :: 'e' :: rest => some (.plain, rest)
  | '"' :: _ => (readText? cs).map fun (s, rest) => (.string s, rest)
  | '\'' :: _ => (readText? cs).map fun (s, rest) => (.string s, rest)
  | _ =>
    ((skipDate? cs).map fun rest => (.date, rest)) <|>
    ((skipDigitFloat? cs <|> skipSpecialFloat? cs <|> skipInteger? cs).map fun rest =>
      (.plain, rest))

mutual

/-- The value in front of a text, at a depth of brackets around it. -/
def readValue? : Nat → Nat → List Char → Reading Value
  | 0, _, _ => none
  | fuel + 1, depth, cs => match cs with
    | '[' :: rest =>
      if depth + 1 < depthLimit then
        (readItems? fuel (depth + 1) rest).map fun (items, rest) => (.array items, rest)
      else none
    | '\x7b' :: rest =>
      if depth + 1 < depthLimit then match skipGap rest with
        | '\x7d' :: rest => some (.table [], rest)
        | rest => match readPairs? fuel (depth + 1) Table.defined rest with
          | some (t, rest) => some (.table (valuesOf t), rest)
          | none => none
      else none
    | cs => readPlain? cs

/-- The items of an array up to its closing bracket. -/
def readItems? : Nat → Nat → List Char → Reading (List Value)
  | 0, _, _ => none
  | fuel + 1, depth, cs => match skipLines (cs.length + 1) cs with
    | ']' :: rest => some ([], rest)
    | rest => match readValue? fuel depth rest with
      | none => none
      | some (v, rest) => match skipLines (rest.length + 1) rest with
        | ']' :: rest => some ([v], rest)
        | ',' :: rest => (readItems? fuel depth rest).map fun (vs, rest) => (v :: vs, rest)
        | _ => none

/-- The keys and values between braces up to the closing one, entered into a table. -/
def readPairs? : Nat → Nat → Table → List Char → Reading Table
  | 0, _, _, _ => none
  | fuel + 1, depth, t, cs => match readKey? cs with
    | none => none
    | some ((path, key), rest) => match skipGap rest with
      | '=' :: rest => match readValue? fuel depth (skipGap rest) with
        | none => none
        | some (v, rest) => match t.insert path key v with
          | none => none
          | some t => match skipGap rest with
            | '\x7d' :: rest => some (t, rest)
            | ',' :: rest => readPairs? fuel depth t rest
            | _ => none
      | _ => none

end

/-! ## Lines -/

/-- What a line says. -/
inductive Line where
  | blank
  | header (path : List String) (key : String)
  | arrayHeader (path : List String) (key : String)
  | pair (path : List String) (key : String) (v : Value)

/-- A header behind its opening bracket. -/
def readHeader? (cs : List Char) : Option (Line × List Char) := do
  let ((path, key), rest) ← readKey? cs
  let rest ← endLine? (← skip? ']' (skipGap rest))
  some (.header path key, rest)

/-- The header of an array behind its opening brackets. -/
def readArrayHeader? (cs : List Char) : Option (Line × List Char) := do
  let ((path, key), rest) ← readKey? cs
  let rest ← endLine? (← skip? ']' (← skip? ']' (skipGap rest)))
  some (.arrayHeader path key, rest)

/-- A key with its value. -/
def readPair? (cs : List Char) : Option (Line × List Char) := do
  let ((path, key), rest) ← readKey? cs
  let rest ← skip? '=' (skipGap rest)
  let (v, rest) ← readValue? (2 * cs.length + 2) 0 (skipGap rest)
  some (.pair path key v, ← endLine? rest)

/-- The line in front of a text that is not empty. -/
def readLine? (cs : List Char) : Reading Line :=
  match skipGap cs with
  | [] => some (.blank, [])
  | '[' :: '[' :: rest => readArrayHeader? rest
  | '[' :: rest => readHeader? rest
  | c :: rest =>
    if c == '#' || c == '\n' || c == '\r' then (endLine? (c :: rest)).map fun rest => (.blank, rest)
    else readPair? (c :: rest)

/-- A document in the making: its tables, and the path of the table to which keys are
added. -/
structure Draft where
  root : Table
  path : List String

namespace Draft

/-- Enter a line. -/
def enter (d : Draft) : Line → Option Draft
  | .blank => some d
  | .header path key => (d.root.define path key).map fun t => ⟨t, path ++ [key]⟩
  | .arrayHeader path key => (d.root.append path key).map fun t => ⟨t, path ++ [key]⟩
  | .pair path key v =>
    (d.root.changeAt false d.path (Table.insert path key v)).map fun t => { d with root := t }

end Draft

/-- Enter the lines of a text. The fuel bounds their number. -/
def readLines? : Nat → Draft → List Char → Option Draft
  | _, d, [] => some d
  | 0, _, _ => none
  | fuel + 1, d, cs => match readLine? cs with
    | none => none
    | some (line, rest) => match d.enter line with
      | none => none
      | some d => readLines? fuel d rest

/-- The text without a byte order mark in front. -/
def skipMark : List Char → List Char
  | c :: rest => if c.toNat = 0xFEFF then rest else c :: rest
  | [] => []

/-- The entries of the table that a document describes. -/
def parse? (s : String) : Option (List (String × Value)) :=
  let cs := skipMark s.toList
  (readLines? (cs.length + 1) ⟨Table.defined, []⟩ cs).map fun d => valuesOf d.root

end BulkAssessment.Toml
