/-!
# Request targets

The target of a request is usually a path, perhaps with a query or a fragment behind it.
In the absolute form a scheme and an authority stand in front of the path, which may
then be left out. Any other target, such as an authority alone, has no path.
-/

namespace BulkAssessment.Http

/-- A character of the name of a scheme. -/
def isSchemeChar (c : Char) : Bool :=
  c.isAlphanum || ['+', '-', '.', '~'].contains c

/-- A character that ends a path. -/
def endsPath (c : Char) : Bool := c == '?' || c == '#'

/-- A character that ends an authority. -/
def endsAuthority (c : Char) : Bool := c == '/' || endsPath c

/-- What follows the scheme and the authority of a target in the absolute form. -/
def skipAuthority? (cs : List Char) : Option (List Char) :=
  match cs.dropWhile isSchemeChar with
  | ':' :: '/' :: '/' :: rest => some (rest.dropWhile fun c => !endsAuthority c)
  | _ => none

/-- The characters in front of a query or a fragment. -/
def upToQuery (cs : List Char) : List Char := cs.takeWhile fun c => !endsPath c

/-- The path of a target, if it has one. The absolute form with nothing behind the
authority asks for the root. -/
def targetPath? : List Char → Option (List Char)
  | '/' :: cs => some ('/' :: upToQuery cs)
  | cs => (skipAuthority? cs).map fun rest => match upToQuery rest with
    | [] => ['/']
    | path => path

end BulkAssessment.Http
