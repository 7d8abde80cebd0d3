import BulkAssessment.Text.Reading

/-!
# TOML texts, keys and comments

The four ways of writing a text: in double quotes with escapes, in single quotes as it
stands, and both over several lines in triple quotes. A line break right behind the
opening triple quotes does not count, every other one counts as a line feed however it
is written, and a backslash at the end of a line skips to the next character that is
not blank. Up to two quotes may stand in front of the closing ones.

The readers give nothing for a text that is not well formed.
-/

namespace BulkAssessment.Toml

open Text

/-- The blanks inside a line. -/
def isGap (c : Char) : Bool := c == ' ' || c == '\t'

/-- The text behind the blanks in front of it. -/
def skipGap (cs : List Char) : List Char := cs.dropWhile isGap

/-- A character that may stand in a comment: no control character but the tab. -/
def isVisible (c : Char) : Bool :=
  c == '\t' || (decide (0x20 ≤ c.toNat) && c.toNat != 0x7F)

/-- What follows a line break. -/
def skipBreak? : List Char → Option (List Char)
  | '\n' :: rest => some rest
  | '\r' :: '\n' :: rest => some rest
  | _ => none

/-- The text behind a comment, if one stands in front of it. -/
def skipComment : List Char → List Char
  | '#' :: rest => rest.dropWhile isVisible
  | cs => cs

/-- What follows the end of a line: blanks, a comment, and a line break or the end of
the text. -/
def endLine? (cs : List Char) : Option (List Char) :=
  match skipComment (skipGap cs) with
  | [] => some []
  | rest => skipBreak? rest

/-- The text behind blanks, line breaks and whole comments. -/
def skipLines : Nat → List Char → List Char
  | 0, cs => cs
  | fuel + 1, cs =>
    match skipGap cs with
    | '#' :: rest => match skipBreak? (rest.dropWhile isVisible) with
      | some rest => skipLines fuel rest
      | none => '#' :: rest
    | rest => match skipBreak? rest with
      | some rest => skipLines fuel rest
      | none => rest

/-! ## Escapes -/

/-- The character that hexadecimal digits stand for, unless they stand for a surrogate
or for nothing. -/
def scalar? (digits : List Char) : Option Char := do
  let n := valueIn 16 (← digits.mapM (digitIn? 16))
  if n.isValidChar then some (Char.ofNat n) else none

/-- A character given by `width` hexadecimal digits. -/
def readScalar? (width : Nat) (cs : List Char) : Reading Char :=
  if (cs.take width).length = width then (scalar? (cs.take width)).map fun c => (c, cs.drop width)
  else none

/-- An escape behind its backslash. -/
def readEscape? : List Char → Reading Char
  | 'b' :: rest => some ('\x08', rest)
  | 't' :: rest => some ('\t', rest)
  | 'n' :: rest => some ('\n', rest)
  | 'f' :: rest => some ('\x0c', rest)
  | 'r' :: rest => some ('\r', rest)
  | '"' :: rest => some ('"', rest)
  | '\\' :: rest => some ('\\', rest)
  | 'u' :: rest => readScalar? 4 rest
  | 'U' :: rest => readScalar? 8 rest
  | _ => none

/-! ## Texts

The readers take the characters read so far, the newest first. -/

/-- The text whose opening double quote has been read. -/
def readBasic? : Nat → List Char → List Char → Reading String
  | 0, _, _ => none
  | fuel + 1, acc, cs => match cs with
    | '"' :: rest => some (String.ofList acc.reverse, rest)
    | '\\' :: rest => match readEscape? rest with
      | some (c, rest) => readBasic? fuel (c :: acc) rest
      | none => none
    | c :: rest => if isVisible c then readBasic? fuel (c :: acc) rest else none
    | [] => none

/-- The text whose opening single quote has been read. -/
def readLiteral? (acc : List Char) : List Char → Reading String
  | '\'' :: rest => some (String.ofList acc.reverse, rest)
  | c :: rest => if isVisible c then readLiteral? (c :: acc) rest else none
  | [] => none

/-- The number of quotes in front of a text. -/
def countQuotes (quote : Char) (cs : List Char) : Nat :=
  (cs.takeWhile fun c => c == quote).length

/-- The text behind blanks and line breaks. -/
def skipBlankLines : Nat → List Char → List Char
  | 0, cs => cs
  | fuel + 1, cs => match skipBreak? (skipGap cs) with
    | some rest => skipBlankLines fuel rest
    | none => skipGap cs

/-- What follows a backslash at the end of a line: at least one line break, and all
blanks and line breaks behind it. -/
def skipFold? (cs : List Char) : Option (List Char) :=
  (skipBreak? (skipGap cs)).map fun rest => skipBlankLines (rest.length + 1) rest

/-- The text over several lines whose three opening quotes have been read. With
`escapes`, a backslash has a meaning. -/
def readLong? (quote : Char) (escapes : Bool) : Nat → List Char → List Char → Reading String
  | 0, _, _ => none
  | fuel + 1, acc, cs =>
    let n := countQuotes quote cs
    if 3 ≤ n then
      let kept := min (n - 3) 2
      some (String.ofList (acc.reverse ++ List.replicate kept quote), cs.drop (kept + 3))
    else match cs with
      | [] => none
      | c :: rest =>
        if c == '\\' && escapes then
          match skipFold? rest with
          | some rest => readLong? quote escapes fuel acc rest
          | none => match readEscape? rest with
            | some (c, rest) => readLong? quote escapes fuel (c :: acc) rest
            | none => none
        else match skipBreak? cs with
          | some rest => readLong? quote escapes fuel ('\n' :: acc) rest
          | none => if isVisible c then readLong? quote escapes fuel (c :: acc) rest else none

/-- The text behind a line break, if one stands in front of it. -/
def skipFirstBreak (cs : List Char) : List Char :=
  (skipBreak? cs).getD cs

/-- A text in any of the four ways. -/
def readText? : List Char → Reading String
  | '"' :: '"' :: '"' :: rest => readLong? '"' true (rest.length + 1) [] (skipFirstBreak rest)
  | '\'' :: '\'' :: '\'' :: rest =>
    readLong? '\'' false (rest.length + 1) [] (skipFirstBreak rest)
  | '"' :: rest => readBasic? (rest.length + 1) [] rest
  | '\'' :: rest => readLiteral? [] rest
  | _ => none

/-! ## Keys -/

/-- A character of a key without quotes. -/
def isKeyChar (c : Char) : Bool :=
  c.isAlphanum || c == '_' || c == '-'

/-- One part of a key. -/
def readPart? : List Char → Reading String
  | '"' :: rest => readBasic? (rest.length + 1) [] rest
  | '\'' :: rest => readLiteral? [] rest
  | cs => match cs.takeWhile isKeyChar with
    | [] => none
    | part => some (String.ofList part, cs.dropWhile isKeyChar)

/-- The parts of a key with points between them. -/
def readParts? : Nat → List Char → Reading (List String)
  | 0, _ => none
  | fuel + 1, cs => match readPart? (skipGap cs) with
    | none => none
    | some (part, rest) => match skipGap rest with
      | '.' :: rest => (readParts? fuel rest).map fun (parts, rest) => (part :: parts, rest)
      | rest => some ([part], rest)

/-- The number of parts of a key, and of brackets around a value, has to stay below
this. -/
def depthLimit : Nat := 80

/-- A key: its front part, its last part, and what follows it. -/
def readKey? (cs : List Char) : Reading (List String × String) :=
  match readParts? depthLimit cs with
  | some (parts, rest) =>
    if parts.length < depthLimit then
      parts.getLast?.map fun last => ((parts.dropLast, last), rest)
    else none
  | none => none

end BulkAssessment.Toml
