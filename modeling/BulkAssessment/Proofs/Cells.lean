import BulkAssessment.Proofs.Dossier
import Mathlib.Tactic.CongrExclamation
import Mathlib.Tactic.Tauto

/-!
# What a cell changes

Two values count as the same if they are so in effect: an empty text is as good as none, and
the person counts as well (`CellValue.effective`). The comparison of snapshots decides exactly
that (`snapshot_unchanged_iff`), and since no field of a value is declared, the impact rules
find every assessment affected (`valueRules_affected`). So a cell either changes nothing at
all or stores its value and affects the assessment (`Progress.put_eq`).
-/

namespace BulkAssessment

namespace CellValue

/-- What counts of a value when it is compared with another. -/
def effective (c : CellValue) : Option String × Option Int :=
  (c.value.filter fun s => !s.isEmpty, c.personId)

theorem fields_set_set (text person : Json) :
    ((Snapshot.empty.set "attribute_value" text).set "attribute_object_id" person).fields =
      [("attribute_object_id", person), ("attribute_value", text)] := by
  have hlt : ("attribute_object_id" : String) < "attribute_value" := by decide
  simp [Snapshot.set, Snapshot.empty, Json.setMember, hlt]

theorem changed_isEmpty_iff (text person text' person' : Json) :
    (((Snapshot.empty.set "attribute_value" text).set "attribute_object_id" person).changed
      ((Snapshot.empty.set "attribute_value" text').set "attribute_object_id"
        person')).toList.isEmpty = true ↔
      text.same text' = true ∧ person.same person' = true := by
  have hne : ("attribute_object_id" : String) ≠ "attribute_value" := by decide
  have hempty (set : TextSet) : set.toList.isEmpty = true ↔ ∀ field, field ∉ set := by
    rw [List.isEmpty_iff, List.eq_nil_iff_forall_not_mem]
    rfl
  rw [hempty]
  simp only [Snapshot.changed, TextSet.mem_ofList, fields_set_set, Snapshot.agree, Snapshot.get?]
  -- only that the names differ counts from here on
  generalize ("attribute_object_id" : String) = f at hne ⊢
  generalize ("attribute_value" : String) = g at hne ⊢
  simp [Json.member?, hne]
  tauto

/-- No field of the snapshots differs exactly if the values are the same in effect. -/
theorem snapshot_unchanged_iff (b c : CellValue) :
    (b.snapshot.changed c.snapshot).toList.isEmpty = true ↔ b.effective = c.effective := by
  rw [snapshot, snapshot, changed_isEmpty_iff, effective, effective, Prod.mk.injEq]
  congr! 1
  · cases b.value.filter fun s => !s.isEmpty <;> cases c.value.filter fun s => !s.isEmpty <;>
      simp [Json.same]
  · cases b.personId <;> cases c.personId <;> simp [Json.int, Json.same, Number.same]

end CellValue

/-- No field of a value is declared, so every change affects. -/
theorem valueRules_affected (before after : Snapshot) :
    Progress.valueRules.affected before after = true := by
  have hnil : ([] : List String).contains = fun _ => false := by
    funext field
    rfl
  simp [Progress.valueRules, ImpactRules.between, ImpactRules.affected, ImpactRules.affectedBy,
    ImpactRules.none, hnil]

namespace Progress

theorem put_eq (p : Progress) (assessmentId : Int) (d : Definition) (c : CellValue) :
    p.put assessmentId d c =
      if (CellValue.ofStored (p.store.value? d.id assessmentId)).effective = c.effective then .ok p
      else (p.store.putCell d.id assessmentId c).map fun t =>
        { p with store := t, affected := true } := by
  simp only [put, CellValue.snapshot_unchanged_iff, valueRules_affected, Bool.or_true]
  split
  · rfl
  · cases p.store.putCell d.id assessmentId c <;> rfl

end Progress

end BulkAssessment
