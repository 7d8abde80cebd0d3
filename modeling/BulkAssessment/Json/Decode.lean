import BulkAssessment.Json.Tree
import BulkAssessment.Text.Integer

/-!
# Decoding documents

A decoder walks a document from left to right and stops at the first fault. A fault is
either in the `syntax` of the document or a `mismatch` between a well-formed document
and what is asked for; which of the two comes first decides the answer.

A record is decoded from an object, in which unknown members are skipped and a known
one must not repeat, or from an array that lists the fields in their order, in which
the last ones may be left out if they have defaults.

Containers may be nested 127 deep where they are looked at; the decoders carry the
`room` that is left. What is skipped may be nested at will.
-/

namespace BulkAssessment

/-- Why a document cannot be decoded. -/
inductive Fault where
  /-- It is no JSON, or it is nested too deep. -/
  | malformed
  /-- It is JSON, but not of the form asked for. -/
  | mismatch
  deriving DecidableEq, Repr

/-- A decoder, given the room for containers that is left. -/
abbrev Decoder (α : Type) := Nat → Tree → Except Fault α

/-- The room around a whole document. -/
def Decoder.fullRoom : Nat := 128

namespace Tree

/-- The room inside a container. -/
def enter (room : Nat) : Except Fault Nat :=
  if room ≤ 1 then .error .malformed else .ok (room - 1)

/-- The fault of a document that stands where something else is asked for: a scalar is
read to its end first, a container is not looked into. -/
def misfit : Tree → Fault
  | .broken => .malformed
  | .number none => .malformed
  | .string none => .malformed
  | _ => .mismatch

/-- An integer of 64 bits. -/
def decodeId : Decoder Int
  | _, .number (some (.int n)) => if Text.InRange64 n then .ok n else .error .mismatch
  | _, t => .error t.misfit

/-- A text. -/
def decodeText : Decoder String
  | _, .string (some s) => .ok s
  | _, t => .error t.misfit

/-- `null` or a value. -/
def decodeOption {α : Type} (decode : Decoder α) : Decoder (Option α)
  | _, .null => .ok none
  | room, t => (decode room t).map some

/-- The items of a container one after the other. -/
def decodeItems {α : Type} (decode : Decoder α) (room : Nat) :
    List Tree → Bool → Except Fault (List α)
  | [], true => .ok []
  | [], false => .error .malformed
  | t :: ts, closed => do
    let x ← decode room t
    let xs ← decodeItems decode room ts closed
    pure (x :: xs)

/-- An array. -/
def decodeList {α : Type} (decode : Decoder α) : Decoder (List α)
  | room, .array items closed => do decodeItems decode (← enter room) items closed
  | _, t => .error t.misfit

/-! ## Records -/

/-- How a record is put together from its fields. The partial record `σ` tells which
fields it has been given. -/
structure Form (σ α : Type) where
  /-- The names of the fields in their order. -/
  names : List String
  /-- The record before any field. -/
  start : σ
  /-- Whether a field has been given. -/
  has : σ → String → Bool
  /-- Decode a field into the record. -/
  put : σ → String → Decoder σ
  /-- The record with defaults for what was not given. -/
  finish : σ → Option α

namespace Form

variable {σ α : Type} (f : Form σ α)

/-- The record after all fields, with a fault if one without default is missing. -/
def close (s : σ) : Except Fault α :=
  match f.finish s with
  | some x => .ok x
  | none => .error .mismatch

/-- The fields in the order of the members. -/
def decodeMembers (room : Nat) : σ → List (Option String × Tree) → Bool → Except Fault α
  | s, [], true => f.close s
  | _, [], false => .error .malformed
  | _, (none, _) :: _, _ => .error .malformed
  | s, (some name, t) :: rest, closed =>
    if name ∈ f.names then
      if f.has s name then .error .mismatch
      else do decodeMembers room (← f.put s name room t) rest closed
    else decodeMembers room s rest closed

/-- The fields in their order. -/
def decodeFields (room : Nat) : σ → List String → List Tree → Bool → Except Fault α
  | s, _, [], true => f.close s
  | s, [], [], false => do let _ ← f.close s; .error .malformed
  | _, _ :: _, [], false => .error .malformed
  | s, [], _ :: _, _ => do let _ ← f.close s; .error .malformed
  | s, name :: names, t :: ts, closed => do
    decodeFields room (← f.put s name room t) names ts closed

/-- A record, as an object or as the array of its fields. -/
def decode : Decoder α
  | room, .object members closed => do f.decodeMembers (← enter room) f.start members closed
  | room, .array items closed => do f.decodeFields (← enter room) f.start f.names items closed
  | _, t => .error t.misfit

end Form

/-! ## Values -/

mutual

/-- Any value. -/
def decodeJson : Decoder Json
  | _, .broken => .error .malformed
  | _, .null => .ok .null
  | _, .bool b => .ok (.bool b)
  | _, .number (some n) => .ok (.number n)
  | _, .number none => .error .malformed
  | _, .string (some s) => .ok (.string s)
  | _, .string none => .error .malformed
  | room, .array items closed => do
    let room ← enter room
    pure (.array (← decodeJsons room items closed))
  | room, .object members closed => do
    let room ← enter room
    pure (Json.ofMembers (← decodeJsonMembers room members closed))

/-- Values one after the other. -/
def decodeJsons : Nat → List Tree → Bool → Except Fault (List Json)
  | _, [], true => .ok []
  | _, [], false => .error .malformed
  | room, t :: ts, closed => do
    let x ← decodeJson room t
    let xs ← decodeJsons room ts closed
    pure (x :: xs)

/-- Members one after the other. -/
def decodeJsonMembers : Nat → List (Option String × Tree) → Bool →
    Except Fault (List (String × Json))
  | _, [], true => .ok []
  | _, [], false => .error .malformed
  | _, (none, _) :: _, _ => .error .malformed
  | room, (some key, t) :: ts, closed => do
    let x ← decodeJson room t
    let xs ← decodeJsonMembers room ts closed
    pure ((key, x) :: xs)

end

end Tree

/-- The value that a whole text spells, blanks around it allowed. -/
def Json.parse? (s : String) : Option Json :=
  match Tree.read s with
  | (_, none) => none
  | (t, some rest) =>
    if (Tree.skipSpace rest).isEmpty then (Tree.decodeJson Decoder.fullRoom t).toOption else none

end BulkAssessment
