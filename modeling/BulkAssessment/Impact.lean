import BulkAssessment.Json.Basic
import BulkAssessment.TextSet

/-!
# The impact of a change

When an object that hangs on an assessment changes, the fields that changed decide
whether the assessment is affected. For each pair of kinds some fields are declared:
those whose changes leave the other object alone, those whose changes always affect
it, and bookkeeping fields that do not count. A change of a field that is not declared
affects. If nothing but bookkeeping fields changed, or nothing at all, the verdict is
that the other object is affected.
-/

namespace BulkAssessment

/-- Kinds of objects. -/
inductive ObjectKind where
  | assessment
  | evidence
  | attributeValue
  | comment
  deriving DecidableEq, Repr

/-- The fields of an object at one time, ordered by name. -/
structure Snapshot where
  fields : List (String × Json)

namespace Snapshot

/-- No fields. -/
def empty : Snapshot := ⟨[]⟩

/-- The snapshot with a field set. -/
def set (s : Snapshot) (field : String) (value : Json) : Snapshot :=
  ⟨Json.setMember field value s.fields⟩

/-- The value of a field. -/
def get? (s : Snapshot) (field : String) : Option Json :=
  Json.member? field s.fields

/-- Whether a field has the same value in both snapshots, or is in neither. -/
def agree (before after : Snapshot) (field : String) : Bool :=
  match before.get? field, after.get? field with
  | none, none => true
  | some x, some y => x.same y
  | _, _ => false

/-- The fields that are in one snapshot only or have different values. -/
def changed (before after : Snapshot) : TextSet :=
  TextSet.ofList (((before.fields ++ after.fields).map Prod.fst).filter fun field =>
    !agree before after field)

end Snapshot

/-- The fields declared for a pair of kinds. -/
structure ImpactRules where
  /-- Changes of these alone do not affect. -/
  harmless : List String
  /-- A change of one of these affects. -/
  harmful : List String
  /-- Bookkeeping. -/
  ignored : List String
  deriving DecidableEq, Repr

namespace ImpactRules

/-- No field is declared. -/
def none : ImpactRules := ⟨[], [], []⟩

/-- The rules for a change of one kind of object and its effect on another. -/
def between : ObjectKind → ObjectKind → ImpactRules
  | .evidence, .assessment =>
    ⟨["notes", "description"], ["access_control_list"], ["updated_at", "modified_by_id"]⟩
  | _, _ => none

/-- A field of one of the three groups. -/
def declares (r : ImpactRules) (field : String) : Bool :=
  r.harmless.contains field || r.harmful.contains field || r.ignored.contains field

/-- The verdict for a set of changed fields: the first of the groups of undeclared,
harmful and harmless fields that has a changed member decides. -/
def affectedBy (r : ImpactRules) (changed : TextSet) : Bool :=
  if changed.toList.any fun f => !r.declares f then true
  else if changed.toList.any r.harmful.contains then true
  else if changed.toList.any r.harmless.contains then false
  else true

/-- Whether the change from one snapshot to another affects. -/
def affected (r : ImpactRules) (before after : Snapshot) : Bool :=
  r.affectedBy (before.changed after)

end ImpactRules

end BulkAssessment
