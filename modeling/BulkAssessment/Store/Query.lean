import BulkAssessment.Attribute.Kind
import BulkAssessment.Store.Basic

/-!
# Asking the store

Assessments and definitions come out in the order of their ids, each at most once
however often it is asked for. A mandatory definition is *filled* by a checked box, by
a person, or by a text that is not blank, depending on its kind.
-/

namespace BulkAssessment

/-- The definition belongs to the single assessment with an id. -/
def Definition.isLocalTo (d : Definition) (assessmentId : Int) : Bool :=
  d.ownerType == Definition.localType && d.ownerId == some assessmentId

/-- The value of a definition on an object. -/
def StoredValue.isOf (v : StoredValue) (definitionId objectId : Int) : Bool :=
  v.definitionId == definitionId && v.objectId == objectId

/-- Whether a stored value fills a definition. -/
def Definition.filledBy (d : Definition) (v : StoredValue) : Bool :=
  match AttributeKind.ofName d.typeName with
  | .checkbox => v.value == some "1"
  | .person => v.personId.isSome
  | _ => v.value.any fun s => !(Text.trim s).isEmpty

namespace Store

/-! ## Assessments -/

/-- The assessments with one of the given ids. -/
def assessmentsByIds (s : Store) (ids : List Int) : List Assessment :=
  s.assessments.filter fun a => ids.contains a.id

/-- The assessments with one of the given slugs. -/
def assessmentsBySlugs (s : Store) (slugs : List String) : List Assessment :=
  s.assessments.filter fun a => slugs.contains a.slug

/-- The assessment with a slug. -/
def assessmentBySlug? (s : Store) (slug : String) : Option Assessment :=
  s.assessments.find? fun a => a.slug == slug

/-- The assessment with an id. -/
def assessment? (s : Store) (id : Int) : Option Assessment :=
  s.assessments.find? fun a => a.id == id

/-- Whether somebody is to verify an assessment. -/
def hasVerifier (s : Store) (id : Int) : Bool :=
  s.roles.any fun r => r.assessmentId == id && r.name == Role.verifier

/-! ## People -/

/-- The people with one of the given ids, with their emails. -/
def emailsByIds (s : Store) (ids : List Int) : List (Int × String) :=
  (s.people.filter fun p => ids.contains p.id).map fun p => (p.id, p.email)

/-- The person with the least email. -/
def leastByEmail? : List Person → Option Person
  | [] => none
  | p :: ps => match leastByEmail? ps with
    | none => some p
    | some q => if q.email < p.email then some q else some p

/-- The person with an email, whatever its case and the blanks around it. Of several
such people the one with the least email is taken. -/
def personByEmail? (s : Store) (email : String) : Option Int :=
  (leastByEmail? (s.people.filter fun p => Text.sameFolded p.email (Text.trim email))).map
    Person.id

/-! ## Attributes -/

/-- The definitions that belong to an assessment. -/
def definitionsOf (s : Store) (assessmentId : Int) : List Definition :=
  s.definitions.filter fun d => d.isLocalTo assessmentId

/-- The definition with an id, if it belongs to a single assessment. -/
def localDefinition? (s : Store) (id : Int) : Option Definition :=
  s.definitions.find? fun d => d.id == id && d.ownerType == Definition.localType

/-- The definition of an assessment that a title stands for: of several with one title
the one with the greatest id. -/
def definitionTitled? (s : Store) (assessmentId : Int) (title : String) : Option Definition :=
  (s.definitionsOf assessmentId).reverse.find? fun d => d.title == title

/-- The value of a definition on an object. -/
def value? (s : Store) (definitionId objectId : Int) : Option StoredValue :=
  s.values.find? fun v => v.isOf definitionId objectId

/-- The mandatory definitions of an assessment with their values. -/
def mandatoryValues (s : Store) (assessmentId : Int) : List (Definition × Option StoredValue) :=
  ((s.definitionsOf assessmentId).filter Definition.mandatory).map fun d =>
    (d, s.value? d.id assessmentId)

/-- Whether all mandatory definitions of an assessment are filled. -/
def isFilled (s : Store) (assessmentId : Int) : Bool :=
  (s.mandatoryValues assessmentId).all fun (d, v) => v.any d.filledBy

/-! ## Evidence -/

/-- Whether a link is attached to an assessment as evidence of a kind. -/
def hasEvidence (s : Store) (assessmentId : Int) (kind : EvidenceKind) (link : String) : Bool :=
  s.evidence.any fun e => e.assessmentId == assessmentId && e.kind == kind.name && e.link == link

/-- The number of pieces of evidence of a kind. -/
def countEvidence (s : Store) (assessmentId : Int) (kind : EvidenceKind) : Nat :=
  s.evidence.countP fun e => e.assessmentId == assessmentId && e.kind == kind.name

end Store

end BulkAssessment
