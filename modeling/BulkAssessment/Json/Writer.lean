import BulkAssessment.Json.Basic
import BulkAssessment.Decimal.Notation

/-!
# Writing values

The compact text of a value has no blanks between its tokens and lists the members of
an object in the order of their keys. In a quoted text the quote, the backslash and
the control characters below the blank are escaped, the usual ones by their letters.
-/

namespace BulkAssessment

/-- A character inside quotes. -/
def Json.escape (c : Char) : List Char :=
  match c with
  | '"' => ['\\', '"']
  | '\\' => ['\\', '\\']
  | '\x08' => ['\\', 'b']
  | '\t' => ['\\', 't']
  | '\n' => ['\\', 'n']
  | '\x0c' => ['\\', 'f']
  | '\r' => ['\\', 'r']
  | c =>
    if c.toNat < 0x20 then
      ['\\', 'u', '0', '0', Nat.digitChar (c.toNat / 16), Nat.digitChar (c.toNat % 16)]
    else [c]

/-- A text in quotes. -/
def Json.quote (s : String) : String :=
  String.ofList ('"' :: s.toList.flatMap Json.escape ++ ['"'])

/-- The text of a number. -/
def Number.text : Number → String
  | .int n => Text.intText n
  | .double x => x.text

namespace Json

mutual

/-- The compact text of a value. -/
def text : Json → String
  | .null => "null"
  | .bool true => "true"
  | .bool false => "false"
  | .number n => n.text
  | .string s => quote s
  | .array [] => "[]"
  | .array (x :: xs) => "[" ++ text x ++ textItems xs
  | .object [] => "\x7b\x7d"
  | .object ((k, x) :: ms) => "\x7b" ++ quote k ++ ":" ++ text x ++ textMembers ms

/-- The items behind the first one, and the closing bracket. -/
def textItems : List Json → String
  | [] => "]"
  | x :: xs => "," ++ text x ++ textItems xs

/-- The members behind the first one, and the closing brace. -/
def textMembers : List (String × Json) → String
  | [] => "\x7d"
  | (k, x) :: ms => "," ++ quote k ++ ":" ++ text x ++ textMembers ms

end

end Json

end BulkAssessment
