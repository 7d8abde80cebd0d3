import BulkAssessment.Json.Literal

/-!
# JSON documents

A `Tree` is a text read by the grammar alone, before anybody has asked what it means.
Members keep their order and may repeat a key, a literal may have no value, and the
text may break off: then the tree is `broken` at that place and every container around
it is left open. What the text says up to the first fault is thus all there, and a
decoder that walks the tree from left to right meets the first fault of either kind
first.
-/

namespace BulkAssessment

/-- A document as it is written. -/
inductive Tree where
  /-- The grammar fails here. -/
  | broken
  | null
  | bool (b : Bool)
  /-- A number literal, and its value unless that is beyond the greatest double. -/
  | number (n : Option Number)
  /-- A quoted text, and its value unless half of a surrogate pair stands alone in it. -/
  | string (s : Option String)
  /-- The items up to the closing bracket or up to the fault. -/
  | array (items : List Tree) (closed : Bool)
  /-- The members up to the closing brace or up to the fault. -/
  | object (members : List (Option String × Tree)) (closed : Bool)

namespace Tree

/-- The blanks between the tokens of a document. -/
def isSpace (c : Char) : Bool :=
  c == ' ' || c == '\n' || c == '\t' || c == '\r'

/-- The text from its next token on. -/
def skipSpace (cs : List Char) : List Char :=
  cs.dropWhile isSpace

/-! ## Quoted texts -/

/-- The number of four hexadecimal digits. -/
def hex4? (a b c d : Char) : Option Nat :=
  ([a, b, c, d].mapM (Text.digitIn? 16)).map (Text.valueIn 16)

/-- A unit of a quoted text: a character, or a number of 16 bits given by an escape. -/
inductive Quoted where
  | char (c : Char)
  | code (n : Nat)

/-- The character that a short escape stands for. -/
def shortEscape? : Char → Option Char
  | '"' => some '"'
  | '\\' => some '\\'
  | '/' => some '/'
  | 'b' => some '\x08'
  | 'f' => some '\x0c'
  | 'n' => some '\n'
  | 'r' => some '\r'
  | 't' => some '\t'
  | _ => none

/-- The units up to the closing quote, newest first, and what follows it. Control
characters have to be escaped. -/
def readUnits (acc : List Quoted) : List Char → Option (List Quoted × List Char)
  | [] => none
  | '"' :: rest => some (acc, rest)
  | '\\' :: 'u' :: a :: b :: c :: d :: rest => match hex4? a b c d with
    | some n => readUnits (.code n :: acc) rest
    | none => none
  | '\\' :: c :: rest => match shortEscape? c with
    | some e => readUnits (.char e :: acc) rest
    | none => none
  | c :: rest => if c.toNat < 0x20 then none else readUnits (.char c :: acc) rest

/-- The characters of units given newest first, behind `acc`; two escapes make one
character if they are a surrogate pair, and half of a pair alone makes none. -/
def charsOf? : List Char → List Quoted → Option (List Char)
  | acc, [] => some acc
  | acc, .char c :: rest => charsOf? (c :: acc) rest
  | acc, .code low :: .code high :: rest =>
    if 0xDC00 ≤ low ∧ low ≤ 0xDFFF then
      if 0xD800 ≤ high ∧ high ≤ 0xDBFF then
        charsOf? (Char.ofNat (0x10000 + (high - 0xD800) * 0x400 + (low - 0xDC00)) :: acc) rest
      else none
    else if 0xD800 ≤ low ∧ low ≤ 0xDBFF then none
    else charsOf? (Char.ofNat low :: acc) (.code high :: rest)
  | acc, .code n :: rest =>
    if 0xD800 ≤ n ∧ n ≤ 0xDFFF then none else charsOf? (Char.ofNat n :: acc) rest

/-- The quoted text whose opening quote has been read. -/
def readString? (cs : List Char) : Option (Option String × List Char) :=
  (readUnits [] cs).map fun (units, rest) =>
    ((charsOf? [] units).map String.ofList, rest)

/-! ## Values -/

/-- A number literal as a tree. -/
def readNumber (cs : List Char) : Tree × Option (List Char) :=
  match Literal.read? cs with
  | some (l, rest) => (.number l.number?, some rest)
  | none => (.broken, none)

mutual

/-- The value in front of a text, and what follows it unless the text is broken. The
fuel bounds the tokens. -/
def readValue : Nat → List Char → Tree × Option (List Char)
  | 0, _ => (.broken, none)
  | fuel + 1, cs => match skipSpace cs with
    | 'n' :: 'u' :: 'l' :: 'l' :: rest => (.null, some rest)
    | 't' :: 'r' :: 'u' :: 'e' :: rest => (.bool true, some rest)
    | 'f' :: 'a' :: 'l' :: 's' :: 'e' :: rest => (.bool false, some rest)
    | '"' :: rest => match readString? rest with
      | some (s, rest) => (.string s, some rest)
      | none => (.broken, none)
    | '[' :: rest => match skipSpace rest with
      | ']' :: rest => (.array [] true, some rest)
      | rest =>
        let (items, rest) := readItems fuel rest
        (.array items rest.isSome, rest)
    | '\x7b' :: rest => match skipSpace rest with
      | '\x7d' :: rest => (.object [] true, some rest)
      | rest =>
        let (members, rest) := readMembers fuel rest
        (.object members rest.isSome, rest)
    | rest => readNumber rest

/-- The items from the next one on to the closing bracket. -/
def readItems : Nat → List Char → List Tree × Option (List Char)
  | 0, _ => ([], none)
  | fuel + 1, cs => match readValue fuel cs with
    | (item, none) => ([item], none)
    | (item, some rest) => match skipSpace rest with
      | ']' :: rest => ([item], some rest)
      | ',' :: rest =>
        let (items, rest) := readItems fuel rest
        (item :: items, rest)
      | _ => ([item], none)

/-- The members from the next key on to the closing brace. A colon that is missing
breaks the value. -/
def readMembers : Nat → List Char → List (Option String × Tree) × Option (List Char)
  | 0, _ => ([], none)
  | fuel + 1, cs => match skipSpace cs with
    | '"' :: rest => match readString? rest with
      | none => ([], none)
      | some (key, rest) => match skipSpace rest with
        | ':' :: rest => match readValue fuel rest with
          | (item, none) => ([(key, item)], none)
          | (item, some rest) => match skipSpace rest with
            | '\x7d' :: rest => ([(key, item)], some rest)
            | ',' :: rest =>
              let (members, rest) := readMembers fuel rest
              ((key, item) :: members, rest)
            | _ => ([(key, item)], none)
        | _ => ([(key, .broken)], none)
    | _ => ([], none)

end

/-- The document in front of a text, and what follows it unless the text is broken. -/
def read (s : String) : Tree × Option (List Char) :=
  readValue (2 * s.length + 2) s.toList

/-! ## Values as documents -/

mutual

/-- The document of a value. -/
def ofJson : Json → Tree
  | .null => .null
  | .bool b => .bool b
  | .number n => .number (some n)
  | .string s => .string (some s)
  | .array items => .array (ofItems items) true
  | .object members => .object (ofMembers members) true

/-- The documents of values. -/
def ofItems : List Json → List Tree
  | [] => []
  | x :: xs => ofJson x :: ofItems xs

/-- The documents of members. -/
def ofMembers : List (String × Json) → List (Option String × Tree)
  | [] => []
  | (k, x) :: xs => (some k, ofJson x) :: ofMembers xs

end

end Tree

end BulkAssessment
