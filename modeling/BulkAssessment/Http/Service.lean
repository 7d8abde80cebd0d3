import BulkAssessment.Http.Answer
import BulkAssessment.Http.MediaType
import BulkAssessment.Http.Target
import BulkAssessment.Session

/-!
# The service over HTTP

Four paths take a JSON body by `POST`, three for the bulk operations and one for the
search; a fifth tells by `GET` that the service is up. Before anything is done the
media type of the body is checked, then its size, then its syntax and its form. A body
may be followed by further text.
-/

namespace BulkAssessment.Http

/-- A request. -/
structure Request where
  method : String
  target : String
  /-- Names and values; of several values of one name the first counts. -/
  headers : List (String × String)
  body : String

/-- An answer; a body is always JSON. -/
structure Answer where
  status : Nat
  body : Option Json

/-- What a path stands for. -/
inductive Route where
  | operation (op : Operation)
  | search
  | health
  deriving DecidableEq, Repr

namespace Route

/-- The path of a route. -/
def path : Route → String
  | operation .complete => "/api/bulk_operations/complete"
  | operation .verify => "/api/bulk_operations/verify"
  | operation .save => "/api/bulk_operations/cavs/save"
  | search => "/api/bulk_operations/cavs/search"
  | health => "/health"

/-- All routes. -/
def all : List Route := Operation.all.map operation ++ [search, health]

/-- The methods that a route takes. -/
def methods : Route → List String
  | health => ["GET", "HEAD"]
  | _ => ["POST"]

end Route

namespace Request

/-- The path that a request is about, if its target has one. -/
def path? (r : Request) : Option String :=
  (targetPath? r.target.toList).map String.ofList

/-- The first value of a header, whatever the case of its name. -/
def header? (r : Request) (name : String) : Option String :=
  (r.headers.find? fun h => Text.sameFolded h.1 name).map Prod.snd

/-- The route that a request asks for. -/
def route? (r : Request) : Option Route :=
  Route.all.find? fun route => some route.path == r.path?

/-- A character that a header value may hold to be read as text. -/
def isHeaderChar (c : Char) : Bool :=
  c == '\t' || (decide (32 ≤ c.toNat) && decide (c.toNat < 127))

/-- The first value of a header, if it is one that can be read as text. -/
def headerText? (r : Request) (name : String) : Option String :=
  (r.header? name).filter fun v => v.toList.all isHeaderChar

/-- The user who is told about the result. -/
def recipient? (r : Request) : Option String :=
  ((r.headerText? "x-ggrc-user").map Text.trim).filter fun v => !v.isEmpty

/-- Whether the headers say that the body is JSON. -/
def hasJsonBody (r : Request) : Bool :=
  (r.headerText? "content-type").any isJsonType

end Request

namespace Answer

/-- An answer without body. -/
def bare (status : Nat) : Answer := ⟨status, none⟩

/-- A good answer. -/
def ok (body : Json) : Answer := ⟨200, some body⟩

/-- An answer that tells what went wrong. -/
def failed (status : Nat) (code message : String) : Answer :=
  ⟨status, some (Json.ofMembers [("error",
    Json.ofMembers [("code", .string code), ("message", .string message)])])⟩

/-- The answer to a body that cannot be decoded. -/
def ofFault : Fault → Answer
  | .malformed => bare 400
  | .mismatch => bare 422

/-- The answer for an operation that did not take place. -/
def ofError : ServiceError → Answer
  | .badRequest b => failed 400 "BAD_REQUEST" b.message
  | .failure f => failed 500 "COMMON_ERROR" f.databaseMessage

/-- The answer that the service is up. -/
def health : Answer :=
  ok (Json.ofMembers [
    ("status", .string "ok"), ("module", .string "ggrc-bulk"), ("version", .string "0.1.0")])

end Answer

/-- The greatest number of bytes that a body may have. -/
def greatestBody : Nat := 2097152

/-- The body of a request, decoded; or the answer why it is not taken. -/
def decodeBody {α : Type} (decode : Decoder α) (r : Request) : Except Answer α :=
  if !r.hasJsonBody then .error (.bare 415)
  else if greatestBody < r.body.utf8ByteSize then .error (.bare 413)
  else match decode Decoder.fullRoom (Tree.read r.body).1 with
    | .ok x => .ok x
    | .error f => .error (.ofFault f)

/-- What comes of a request: the session after it, the answer, and the notice that is
sent if an operation was carried out. -/
structure Exchange where
  session : Session
  answer : Answer
  notice : Option Notice

/-- Carry out a bulk operation. -/
def serveOperation (s : Session) (appUrl : String) (today : Date) (op : Operation)
    (r : Request) : Exchange :=
  match decodeBody Tree.decodeRequest r with
  | .error answer => ⟨s, answer, none⟩
  | .ok request => match s.perform op appUrl today r.recipient? request with
    | .error e => ⟨s, .ofError e, none⟩
    | .ok (s, notice) => ⟨s, .ok notice.outcome.json, some notice⟩

/-- Search for attributes. -/
def serveSearch (s : Session) (r : Request) : Answer :=
  match decodeBody Tree.decodeSearch r with
  | .error answer => answer
  | .ok ids => match s.search ids with
    | .error f => .failed 500 "DATABASE_ERROR" f.message
    | .ok m => .ok m.json

/-- Answer a request. -/
def serve (s : Session) (appUrl : String) (today : Date) (r : Request) : Exchange :=
  match r.route? with
  | none => ⟨s, .bare 404, none⟩
  | some route =>
    if r.method ∈ route.methods then
      match route with
      | .operation op => serveOperation s appUrl today op r
      | .search => ⟨s, serveSearch s r, none⟩
      | .health => ⟨s, if r.method = "HEAD" then .bare 200 else .health, none⟩
    else ⟨s, .bare 405, none⟩

end BulkAssessment.Http
