import BulkAssessment.Text.Case

/-!
# Media types

A media type is a type and a subtype with a slash between them, perhaps followed by
parameters, each behind a semicolon. The part of the subtype behind its last plus sign
is the suffix. A body is JSON if its type is `application` and either the subtype in
front of the suffix or the suffix itself is `json`.
-/

namespace BulkAssessment.Http

/-- A character of a name or of a plain parameter value. -/
def isTokenChar (c : Char) : Bool :=
  c.isAlphanum ||
    ['!', '#', '$', '%', '&', '\'', '*', '+', '-', '.', '^', '_', '\x60', '|', '~'].contains c

/-- A character inside a quoted parameter value. -/
def isQuotedChar (c : Char) : Bool :=
  decide (31 < c.toNat) && c.toNat != 127

/-- A token and what follows it. -/
def takeToken (cs : List Char) : List Char × List Char :=
  (cs.takeWhile isTokenChar, cs.dropWhile isTokenChar)

/-- What follows a quoted value behind its opening quote. The value has at least one
character, which may be a quote; blanks may follow the closing quote. -/
def skipQuoted? : List Char → Option (List Char)
  | c :: cs =>
    if isQuotedChar c then
      match cs.dropWhile fun c => isQuotedChar c && c != '"' with
      | '"' :: rest => some (rest.dropWhile fun c => c == ' ')
      | _ => none
    else none
  | [] => none

/-- What follows the value of a parameter. A value without quotes may be empty only at
the end. -/
def skipValue? : List Char → Option (List Char)
  | '"' :: cs => skipQuoted? cs
  | cs => match takeToken cs with
    | ([], _ :: _) => none
    | (_, rest) => some rest

/-- Whether the text behind a semicolon is a list of parameters. The fuel bounds their
number. -/
def areParameters : Nat → List Char → Bool
  | 0, _ => false
  | fuel + 1, cs =>
    match takeToken (cs.dropWhile fun c => c == ' ') with
    | ([], []) => true
    | (_ :: _, '=' :: rest) => match skipValue? rest with
      | some [] => true
      | some (';' :: rest) => areParameters fuel rest
      | _ => false
    | _ => false

/-- A subtype split at its last plus sign, unless that comes first. -/
def splitSuffix (subtype : List Char) : List Char × Option (List Char) :=
  match subtype.reverse.span fun c => c != '+' with
  | (suffix, '+' :: (c :: rest)) => ((c :: rest).reverse, some suffix.reverse)
  | _ => (subtype, none)

/-- Type and subtype of a well-formed media type. -/
def mediaType? (s : String) : Option (List Char × List Char) :=
  match takeToken s.toList with
  | (type@(_ :: _), '/' :: rest) => match takeToken rest with
    | (subtype, []) => some (type, subtype)
    | (subtype@(_ :: _), ';' :: rest) =>
      if areParameters (rest.length + 1) rest then some (type, subtype) else none
    | _ => none
  | _ => none

/-- Whether a media type says that the body is JSON. -/
def isJsonType (s : String) : Bool :=
  match mediaType? (Text.fold s) with
  | none => false
  | some (type, subtype) =>
    let (name, suffix) := splitSuffix subtype
    let json := "json".toList
    type == "application".toList && (name == json || suffix == some json)

end BulkAssessment.Http
