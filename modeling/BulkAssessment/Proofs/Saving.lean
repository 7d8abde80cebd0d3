import BulkAssessment.Proofs.Review

/-!
# What saving does to a state

Saving is not meant to change states, except that an assessment that is finished or not started
is reopened when it is edited. That is what the rows do as long as no title is `State`
(`keptOrReopened_afterSaving`): the dates stay, and so does the status if it is not reopened.

A title `State` makes a state column of the attributes block, and what is submitted under it is
obeyed like any order of a state row, with the dates that come with it. So saving can complete,
and under a title `Verified Date` as well it can verify (`assessment_after_save`).
-/

namespace BulkAssessment

variable {s t : Store} {request : BulkRequest} {today : Date} {id : Int} {appUrl : String}
  {o : Outcome}

/-- If no title is `State`, then saving keeps an assessment, or reopens one that was finished or
not started. If one is, then the assessment is what the orders under that title make of it. -/
theorem assessment_after_save (hk : s.Keyed)
    (h : Operation.save.perform s appUrl today request = .ok (t, o)) {a : Assessment}
    (ha : s.assessment? id = some a) :
    ∃ b, t.assessment? id = some b ∧
      (Column.state ∉ request.titles → a.KeptOrReopened b) ∧
      (Column.state ∈ request.titles →
        b = (s.submittedOrders request a.slug).foldl (Assessment.obey (s.isFilled id) today) a) := by
  have hx := Store.dossier?_of_assessment? ha
  have hrun := dossier?_runSave today hk hx request
  have ht : t = (s.runSave today request).store := Operation.store_of_perform h
  rw [← ht] at hrun
  refine ⟨_, (Store.dossier?_eq_some_iff.1 hrun).1, fun hstate => ?_, fun hstate => ?_⟩
  · exact keptOrReopened_afterSaving today hstate _
  · rw [afterSaving_of_state today hstate, Store.isFilled_eq hx]
    rfl

/-- An assessment in review that has an attribute with the title `State`. -/
def stateTitleStore : Store :=
  { Store.empty with
    assessments := [⟨1, "A-1", "Backups", State.inReview.name, "Control", none, none⟩]
    definitions :=
      [⟨5, Definition.localType, some 1, Column.state, "Text", false, none, none, none⟩,
        ⟨6, Definition.localType, some 1, Column.verifiedDate, "Date", false, none, none, none⟩] }

/-- Values for both attributes. -/
def stateTitleRequest : BulkRequest :=
  ⟨[], [⟨1, "A-1",
    [⟨.string "completed", Column.state, "Text", some 1, 5, none⟩,
      ⟨.string "2/29/2024", Column.verifiedDate, "Date", some 1, 6, none⟩]⟩]⟩

/-- Saving the values verifies the assessment. -/
theorem save_verified_by_title :
    ∃ t o b, Operation.save.perform stateTitleStore "" ⟨2024, 5, 17⟩ stateTitleRequest =
        .ok (t, o) ∧
      t.assessment? 1 = some b ∧ b.status = State.completed.name ∧
      b.verifiedDate = some "2024-02-29" := by
  have hkeyed : stateTitleStore.Keyed := ⟨by decide, by decide, by decide⟩
  have ha : stateTitleStore.assessment? 1 =
      some ⟨1, "A-1", "Backups", State.inReview.name, "Control", none, none⟩ := rfl
  obtain ⟨t, o, h⟩ : ∃ t o,
      Operation.save.perform stateTitleStore "" ⟨2024, 5, 17⟩ stateTitleRequest = .ok (t, o) :=
    ⟨_, _, rfl⟩
  obtain ⟨b, hb, -, horders⟩ := assessment_after_save hkeyed h ha
  have hafter := horders (by decide)
  refine ⟨t, o, b, h, hb, ?_, ?_⟩
  · rw [hafter]
    decide +kernel
  · rw [hafter]
    decide +kernel

end BulkAssessment
