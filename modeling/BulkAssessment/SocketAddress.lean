import BulkAssessment.Text.Integer
import BulkAssessment.Text.Pieces

/-!
# Socket addresses

An address is four octets with a port, or eight groups of 16 bits in brackets with a
port and perhaps the number of a scope. A run of zero groups may be written as `::`,
and the last two groups may be written as four octets.

Written back, an address has a canonical form: the first of the longest runs of two or
more zero groups becomes `::`, and four octets appear only behind `::ffff:`.
-/

namespace BulkAssessment

/-- An address to listen on. -/
inductive SocketAddress where
  /-- Four octets. -/
  | v4 (octets : List Nat) (port : Nat)
  /-- Eight groups; the scope is zero if there is none. -/
  | v6 (groups : List Nat) (scope port : Nat)
  deriving DecidableEq, Repr

namespace SocketAddress

/-! ## Reading -/

/-- A number up to a bound, with any number of digits. -/
def readNumber? (bound : Nat) (cs : List Char) : Text.Reading Nat :=
  match Text.takeDigits 10 cs with
  | ([], _) => none
  | (ds, rest) => if Text.valueIn 10 ds ≤ bound then some (Text.valueIn 10 ds, rest) else none

/-- An octet: no zero in front of another digit. -/
def readOctet? (cs : List Char) : Text.Reading Nat :=
  match Text.takeDigits 10 cs with
  | ([], _) => none
  | (0 :: _ :: _, _) => none
  | (ds, rest) => if Text.valueIn 10 ds ≤ 255 then some (Text.valueIn 10 ds, rest) else none

/-- A group of up to four hexadecimal digits. -/
def readGroup? (cs : List Char) : Text.Reading Nat :=
  match Text.takeDigits 16 cs with
  | ([], _) => none
  | (ds, rest) => if ds.length ≤ 4 then some (Text.valueIn 16 ds, rest) else none

/-- Four octets with points between them. -/
def readOctets? (cs : List Char) : Option (List Nat × List Char) := do
  let (a, cs) ← readOctet? cs
  let (b, cs) ← readOctet? (← Text.skip? '.' cs)
  let (c, cs) ← readOctet? (← Text.skip? '.' cs)
  let (d, cs) ← readOctet? (← Text.skip? '.' cs)
  pure ([a, b, c, d], cs)

/-- A port behind a colon. -/
def readPort? (cs : List Char) : Option (Nat × List Char) := do
  readNumber? 65535 (← Text.skip? ':' cs)

/-- The text in front of a group: a colon unless the group is the first. -/
def skipSeparator? (first : Bool) (cs : List Char) : Option (List Char) :=
  if first then some cs else Text.skip? ':' cs

/-- Two groups written as four octets. -/
def readEmbedded? (first : Bool) (cs : List Char) : Option (List Nat × List Char) := do
  match ← readOctets? (← skipSeparator? first cs) with
  | ([a, b, c, d], rest) => pure ([256 * a + b, 256 * c + d], rest)
  | _ => none

/-- Up to `limit` groups; whether they end with four octets, and what follows them. -/
def readGroups : (limit : Nat) → (first : Bool) → List Char → List Nat × Bool × List Char
  | 0, _, cs => ([], false, cs)
  | limit + 1, first, cs =>
    match if limit = 0 then none else readEmbedded? first cs with
    | some (groups, rest) => (groups, true, rest)
    | none => match (skipSeparator? first cs).bind readGroup? with
      | none => ([], false, cs)
      | some (g, rest) =>
        let (groups, embedded, rest) := readGroups limit false rest
        (g :: groups, embedded, rest)

/-- Eight groups, a run of zeros perhaps left out. -/
def readV6? (cs : List Char) : Option (List Nat × List Char) := do
  let (front, embedded, cs) := readGroups 8 true cs
  if front.length = 8 then pure (front, cs)
  else if embedded then none
  else
    let cs ← Text.skip? ':' (← Text.skip? ':' cs)
    let (back, _, cs) := readGroups (7 - front.length) true cs
    pure (front ++ List.replicate (8 - front.length - back.length) 0 ++ back, cs)

/-- The scope behind a percent sign, zero without one. -/
def readScope (cs : List Char) : Nat × List Char :=
  ((Text.skip? '%' cs).bind (readNumber? 4294967295)).getD (0, cs)

/-- An address of four octets. -/
def readSocket4? (cs : List Char) : Option (SocketAddress × List Char) := do
  let (octets, cs) ← readOctets? cs
  let (port, cs) ← readPort? cs
  pure (v4 octets port, cs)

/-- An address of eight groups. -/
def readSocket6? (cs : List Char) : Option (SocketAddress × List Char) := do
  let (groups, cs) ← readV6? (← Text.skip? '[' cs)
  let (scope, cs) := readScope cs
  let (port, cs) ← readPort? (← Text.skip? ']' cs)
  pure (v6 groups scope port, cs)

/-- The address that a whole text spells. -/
def parse? (s : String) : Option SocketAddress :=
  match readSocket4? s.toList <|> readSocket6? s.toList with
  | some (address, []) => some address
  | _ => none

/-! ## Writing -/

/-- Four octets with points between them. -/
def octetsText (octets : List Nat) : String :=
  Text.join "." (octets.map Text.natText)

/-- Groups with colons between them. -/
def groupsText (groups : List Nat) : String :=
  Text.join ":" (groups.map fun g => String.ofList (Nat.toDigits 16 g))

/-- The lengths of the runs of zeros that start at each place. -/
def zeroRuns : List Nat → List Nat
  | [] => []
  | g :: gs =>
    let runs := zeroRuns gs
    (if g = 0 then runs.headD 0 + 1 else 0) :: runs

/-- Start and length of the first of the longest runs of zeros. -/
def longestRun (groups : List Nat) : Nat × Nat :=
  let runs := zeroRuns groups
  let length := runs.foldl max 0
  (runs.idxOf length, length)

/-- Eight groups in canonical form. -/
def v6Text (groups : List Nat) : String :=
  match groups with
  | [0, 0, 0, 0, 0, 0xffff, high, low] =>
    "::ffff:" ++ octetsText [high / 256, high % 256, low / 256, low % 256]
  | _ =>
    let (start, length) := longestRun groups
    if length > 1 then
      groupsText (groups.take start) ++ "::" ++ groupsText (groups.drop (start + length))
    else groupsText groups

/-- The canonical text of an address. -/
def text : SocketAddress → String
  | v4 octets port => octetsText octets ++ ":" ++ Text.natText port
  | v6 groups scope port =>
    "[" ++ v6Text groups ++ (if scope = 0 then "" else "%" ++ Text.natText scope) ++ "]:" ++
      Text.natText port

/-- The port of an address. -/
def port : SocketAddress → Nat
  | v4 _ port => port
  | v6 _ _ port => port

/-- Whether an address has eight groups. -/
def isV6 : SocketAddress → Bool
  | v4 .. => false
  | v6 .. => true

example : (parse? "[1:0:0:2::]:080").map text = some "[1:0:0:2::]:80" := by decide +kernel
example : (parse? "[::ffff:1.2.3.4%7]:1").map text = some "[::ffff:1.2.3.4%7]:1" := by
  decide +kernel

end SocketAddress

end BulkAssessment
