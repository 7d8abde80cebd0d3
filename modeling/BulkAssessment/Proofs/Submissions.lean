import BulkAssessment.Proofs.Blanks
import BulkAssessment.Proofs.Outcomes
import BulkAssessment.Proofs.Reports

/-!
# What becomes of a submitted value

A submission names a definition by id, but from then on its value goes by title: a stub holds one
value for each title, the last that was submitted (`BulkRequest.value?_collect`), a column is
headed by the title, and the import looks for the definition of the assessment that the title
stands for. So of several definitions with one title only the one with the greatest id can get a
value, and a title that is the name of a fixed column gets none.

Apart from that no value is lost without notice (`submitted_stored_or_reported`): under any other
title the last value that was submitted for an assessment is stored as its definition allows, or
the assessment is reported.
-/

namespace BulkAssessment

/-- The text of a submission as the cells of the request have it. -/
def Store.submittedText (s : Store) (request : BulkRequest) (v : Submission) : String :=
  normalize (PeopleIndex.ofList (s.emailsByIds request.personIds)) (rawText? v.value) v.typeName

/-! ## Cells of submissions -/

section Cells

variable {s : Store} {request : BulkRequest} {id : Int} {before after : List Submission}
  {v : Submission}

theorem cellText_of_submitted (hsubmitted : request.submissionsOf id = before ++ v :: after)
    (hlast : ∀ w ∈ after, w.title ≠ v.title) :
    s.cellText request id v.title = Text.trim (s.submittedText request v) := by
  have hvalue : (s.stubOf request id).value? v.title = some (s.submittedText request v) := by
    unfold Store.stubOf
    cases s.assessment? id <;> exact BulkRequest.value?_collect hsubmitted hlast
  rw [Store.cellText, hvalue, Option.getD_some]

end Cells

/-! ## Values that are stored -/

theorem effective_overwrite (objectId definitionId : Int) (before : Option StoredValue)
    (c : CellValue) :
    (CellValue.ofStored (overwrite objectId definitionId before c)).effective = c.effective := by
  unfold overwrite
  split
  · assumption
  · split
    · rename_i hnone
      rw [hnone]
      rfl
    · rfl

section Submitted

variable {s t : Store} {request : BulkRequest} {today : Date} {appUrl : String} {o : Outcome}
  {id : Int} {a : Assessment} {before after : List Submission} {v : Submission}

/-- The answer lists an assessment by what was reported under the slug that it had before. -/
theorem Operation.listed_before {op : Operation} (hk : s.Keyed)
    (h : op.perform s appUrl today request = .ok (t, o)) (ha : a ∈ s.assessments) :
    (a.mention appUrl ∈ o.updateErrors ↔
      a.id ∈ op.subjects request ∧ a.slug ∈ (op.run s today request).report.errors) ∧
    (a.mention appUrl ∈ o.partialErrors ↔
      a.id ∈ op.subjects request ∧ a.slug ∈ (op.run s today request).report.partials ∧
        a.slug ∉ (op.run s today request).report.errors) ∧
    (a.mention appUrl ∈ o.succeeded ↔
      a.id ∈ op.subjects request ∧ a.slug ∉ (op.run s today request).report.errors ∧
        a.slug ∉ (op.run s today request).report.partials) := by
  obtain ⟨ht, rfl⟩ := Operation.of_perform h
  have hframe : s.SameFrame t := ht ▸ op.sameFrame_run hk today request
  -- the answer mentions the assessment as it is afterwards, with the same id and title
  obtain ⟨b, hb, hid, hslug, hname⟩ := hframe.symm.exists_before ha
  have hmention : a.mention appUrl = b.mention appUrl := by
    rw [Assessment.mention, Assessment.mention, hid, hname]
  have hkt := hframe.keyed hk
  rw [hmention, hid, hslug]
  exact ⟨mention_mem_updateErrors_iff hkt hb, mention_mem_partialErrors_iff hkt hb,
    mention_mem_succeeded_iff hkt hb⟩

theorem mem_subjects_of_hasValues (hvalues : request.hasValues id = true) :
    id ∈ Operation.save.subjects request := by
  obtain ⟨e, he, -⟩ := List.any_eq_true.1 hvalues
  obtain ⟨hmem, heid⟩ := BulkRequest.mem_entriesOf.1 he
  exact Keyed.mem_firsts.2 (heid ▸ List.mem_map_of_mem hmem)

theorem mention_of_warned (hk : s.Keyed)
    (h : Operation.save.perform s appUrl today request = .ok (t, o)) (ha : a ∈ s.assessments)
    (hvalues : request.hasValues a.id = true)
    (hwarned : a.slug ∈ (s.runSave today request).report.warnings) :
    a.mention appUrl ∈ o.updateErrors ∨ a.mention appUrl ∈ o.partialErrors := by
  obtain ⟨hfailed, hpartial, -⟩ := Operation.listed_before hk h ha
  have hsubject := mem_subjects_of_hasValues hvalues
  rw [hfailed, hpartial]
  by_cases herror : a.slug ∈ (s.runSave today request).report.errors
  · exact Or.inl ⟨hsubject, herror⟩
  · exact Or.inr ⟨hsubject, Report.mem_partials.2 ⟨hwarned, herror⟩, herror⟩

theorem mention_of_leavesOut (hk : s.Keyed)
    (h : Operation.save.perform s appUrl today request = .ok (t, o))
    (ha : s.assessment? id = some a)
    (hrows : Operation.rowsUnder a.slug (s.savingRows request) = [s.savingTask request id])
    (hstate : Column.state ∉ request.titles) (hvalues : request.hasValues id = true)
    {title : String} (htitle : title ∈ request.titles) (hfree : title ∉ Block.fixedColumns)
    (hleft : s.leavesOut id title (s.cellText request id title) = true) :
    a.mention appUrl ∈ o.updateErrors ∨ a.mention appUrl ∈ o.partialErrors := by
  have hx := Store.dossier?_of_assessment? ha
  obtain ⟨hamem, haid⟩ := Store.mem_of_assessment?_eq_some ha
  have hwarned : a.slug ∈ (s.runSave today request).report.warnings := by
    refine (mem_warnings_runSave today hk hx request).2 ?_
    dsimp only
    rw [hrows, Dossier.someRow, Dossier.someRow, Bool.or_false, Dossier.warns_savingTask hstate,
      haid]
    exact List.any_eq_true.2 ⟨title, List.mem_filter.2 ⟨htitle, decide_eq_true hfree⟩, hleft⟩
  exact mention_of_warned hk h hamem (haid.symm ▸ hvalues) hwarned

/-- What an assessment holds after saving, if its own row is the only one that reaches it. -/
theorem heldBy_runSave (today : Date) (hk : s.Keyed) (ha : s.assessment? id = some a)
    (hrows : Operation.rowsUnder a.slug (s.savingRows request) = [s.savingTask request id])
    {d : Definition} (hd : d ∈ s.definitions) :
    (s.runSave today request).store.heldBy id d.id =
      if s.HasColumn request id d then
        s.heldAfterCell id d (s.cellText request id d.title) (s.heldBy id d.id)
      else s.heldBy id d.id := by
  have hx := Store.dossier?_of_assessment? ha
  have hid := (Store.mem_of_assessment?_eq_some ha).2
  have hrun := (Store.dossier?_eq_some_iff.1 (dossier?_runSave today hk hx request)).2.1
  rw [← hrun, Dossier.afterSaving, hrows, List.foldl_cons, List.foldl_nil,
    held_after_savingTask hk hd, hid]

theorem effective_of_not_leavesOut (today : Date) (hk : s.Keyed) (ha : s.assessment? id = some a)
    (hrows : Operation.rowsUnder a.slug (s.savingRows request) = [s.savingTask request id])
    (hstate : Column.state ∉ request.titles) {title : String} (htitle : title ∈ request.titles)
    (hfree : title ∉ Block.fixedColumns)
    (hleft : s.leavesOut id title (s.cellText request id title) = false) :
    ∃ d c, s.definitionTitled? id title = some d ∧
      s.cellValue? d (s.cellText request id title) = some c ∧
      (CellValue.ofStored ((s.runSave today request).store.heldBy id d.id)).effective =
        c.effective := by
  unfold Store.leavesOut at hleft
  cases hd : s.definitionTitled? id title with
  | none =>
    rw [hd] at hleft
    cases hleft
  | some d =>
    rw [hd] at hleft
    obtain ⟨c, hc⟩ := Option.isSome_iff_exists.1 (Option.isNone_eq_false_iff.1 hleft)
    obtain ⟨hmem, rfl⟩ := Store.of_definitionTitled?_eq_some hd
    have hcolumn : s.HasColumn request id d := ⟨hstate, htitle, hfree, hd⟩
    refine ⟨d, c, rfl, hc, ?_⟩
    rw [heldBy_runSave today hk ha hrows hmem, if_pos hcolumn]
    unfold Store.heldAfterCell
    rw [hc]
    exact effective_overwrite id d.id _ c

theorem titles_of_submitted (hsubmitted : request.submissionsOf id = before ++ v :: after) :
    v.title ∈ request.titles ∧ request.hasValues id = true := by
  have hmem : v ∈ request.submissionsOf id := by
    rw [hsubmitted]
    exact List.mem_append_right _ List.mem_cons_self
  refine ⟨BulkRequest.mem_titles.2 ⟨id, BulkRequest.submits_iff.2 ⟨v, hmem, rfl⟩⟩, ?_⟩
  rw [BulkRequest.hasValues_eq, hsubmitted]
  simp

/-- The last value that is submitted under a title is stored in effect, or the assessment is
reported. -/
theorem stored_or_reported (hk : s.Keyed)
    (h : Operation.save.perform s appUrl today request = .ok (t, o))
    (ha : s.assessment? id = some a)
    (hsubmitted : request.submissionsOf id = before ++ v :: after)
    (hlast : ∀ w ∈ after, w.title ≠ v.title) (hfree : v.title ∉ Block.fixedColumns)
    (hstate : Column.state ∉ request.titles) (htrim : Text.trim a.slug = a.slug)
    (hothers : ∀ i ∈ request.named, i ≠ id → request.hasValues i = true →
      Text.trim (s.slugOf request i) ≠ a.slug) :
    (a.mention appUrl ∈ o.updateErrors ∨ a.mention appUrl ∈ o.partialErrors) ∨
      ∃ d c, s.definitionTitled? id v.title = some d ∧
        s.cellValue? d (Text.trim (s.submittedText request v)) = some c ∧
        (CellValue.ofStored (t.heldBy id d.id)).effective = c.effective := by
  obtain ⟨htitles, hvalues⟩ := titles_of_submitted hsubmitted
  have hrows : Operation.rowsUnder a.slug (s.savingRows request) = [s.savingTask request id] := by
    rw [rowsUnder_savingRows_alone ha htrim hothers, if_pos hvalues]
  cases hleft : s.leavesOut id v.title (s.cellText request id v.title) with
  | true => exact Or.inl (mention_of_leavesOut hk h ha hrows hstate hvalues htitles hfree hleft)
  | false =>
    right
    rw [← cellText_of_submitted hsubmitted hlast, Operation.store_of_perform h]
    exact effective_of_not_leavesOut today hk ha hrows hstate htitles hfree hleft

/-- Of the values that are submitted for an assessment under one title the last is stored in effect
for the definition that the title stands for, as far as that allows it, or else the assessment is
reported; a title that is the name of a fixed column is left aside. Other definitions with the
title keep their values. -/
theorem submitted_stored_or_reported (hk : s.Keyed)
    (h : Operation.save.perform s appUrl today request = .ok (t, o))
    (ha : s.assessment? id = some a)
    (hsubmitted : request.submissionsOf id = before ++ v :: after)
    (hlast : ∀ w ∈ after, w.title ≠ v.title) (hstate : Column.state ∉ request.titles)
    (htrim : Text.trim a.slug = a.slug)
    (hothers : ∀ i ∈ request.named, i ≠ id → request.hasValues i = true →
      Text.trim (s.slugOf request i) ≠ a.slug) :
    (v.title ∉ Block.fixedColumns →
      (a.mention appUrl ∈ o.updateErrors ∨ a.mention appUrl ∈ o.partialErrors) ∨
      ∃ d c, s.definitionTitled? id v.title = some d ∧
        (s.InIdOrder → ∀ b ∈ s.definitionsOf id, b.title = v.title → b.id ≤ d.id) ∧
        s.cellValue? d (Text.trim (s.submittedText request v)) = some c ∧
        (CellValue.ofStored (t.heldBy id d.id)).effective = c.effective) ∧
    ∀ d ∈ s.definitions, d.title = v.title →
      (v.title ∈ Block.fixedColumns ∨ s.definitionTitled? id v.title ≠ some d) →
        t.heldBy id d.id = s.heldBy id d.id := by
  refine ⟨fun hfree => ?_, fun d hd htitle hother => ?_⟩
  · rcases stored_or_reported hk h ha hsubmitted hlast hfree hstate htrim hothers with
      hreported | ⟨d, c, hd, hc, hstored⟩
    · exact Or.inl hreported
    · exact Or.inr ⟨d, c, hd, fun hordered b => hordered.le_of_definitionTitled? hd, hc, hstored⟩
  · have hrows : Operation.rowsUnder a.slug (s.savingRows request) =
        [s.savingTask request id] := by
      rw [rowsUnder_savingRows_alone ha htrim hothers, if_pos (titles_of_submitted hsubmitted).2]
    rw [Operation.store_of_perform h]
    refine (heldBy_runSave today hk ha hrows hd).trans (if_neg fun hcolumn => ?_)
    obtain ⟨-, -, hfree, hstands⟩ := hcolumn
    rw [htitle] at hfree hstands
    exact hother.elim hfree fun hne => hne hstands

end Submitted

/-- An assessment with two attributes of one title. -/
def namesakeStore : Store :=
  { Store.empty with
    assessments := [⟨1, "A-1", "Backups", State.inProgress.name, "Control", none, none⟩]
    definitions :=
      [⟨5, Definition.localType, some 1, "Note", "Text", false, none, none, none⟩,
        ⟨6, Definition.localType, some 1, "Note", "Text", false, none, none, none⟩] }

/-- A value for the first of them. -/
def namesakeNote : Submission := ⟨.string "done", "Note", "Text", some 1, 5, none⟩

/-- The request with that value alone. -/
def namesakeRequest : BulkRequest := ⟨[], [⟨1, "A-1", [namesakeNote]⟩]⟩

/-- The value is stored for the second. -/
theorem submitted_stored_for_namesake :
    ∃ t o, Operation.save.perform namesakeStore "" ⟨2024, 5, 17⟩ namesakeRequest = .ok (t, o) ∧
      t.heldBy 1 5 = none ∧
      (CellValue.ofStored (t.heldBy 1 6)).effective = (some "done", none) := by
  have hkeyed : namesakeStore.Keyed := ⟨by decide, by decide, by decide⟩
  have ha : namesakeStore.assessment? 1 =
      some ⟨1, "A-1", "Backups", State.inProgress.name, "Control", none, none⟩ := rfl
  have hsubmitted : namesakeRequest.submissionsOf 1 = [] ++ namesakeNote :: [] := rfl
  let run := namesakeStore.runSave ⟨2024, 5, 17⟩ namesakeRequest
  have h : Operation.save.perform namesakeStore "" ⟨2024, 5, 17⟩ namesakeRequest =
      .ok (run.store, run.store.outcome "" run.report.errors run.report.partials [1]) := rfl
  obtain ⟨hstored, hother⟩ := submitted_stored_or_reported hkeyed h ha hsubmitted
    (by simp) (by decide) (by decide) (by decide)
  refine ⟨_, _, h, ?_, ?_⟩
  · exact (hother ⟨5, Definition.localType, some 1, "Note", "Text", false, none, none, none⟩
      (by decide) rfl (Or.inr (by decide))).trans (by decide)
  · rcases hstored (by decide) with hreported | ⟨d, c, hd, -, hc, heffective⟩
    · exact absurd hreported (by decide +kernel)
    · obtain rfl : d =
          ⟨6, Definition.localType, some 1, "Note", "Text", false, none, none, none⟩ :=
        Option.some.inj (hd.symm.trans (by decide))
      obtain rfl : c = CellValue.ofText "done" :=
        Option.some.inj (hc.symm.trans (by decide +kernel))
      exact heffective.trans (by decide)

/-- Not every value that is submitted is stored for the definition that it names, or reported. -/
theorem not_all_submitted_stored :
    ¬ ∀ (s t : Store) (appUrl : String) (today : Date) (request : BulkRequest) (o : Outcome),
        s.Keyed → Operation.save.perform s appUrl today request = .ok (t, o) →
        ∀ a ∈ s.assessments, ∀ c ∈ s.definitions, c.isLocalTo a.id = true →
        ∀ (before : List Submission) (v : Submission) (after : List Submission),
          request.submissionsOf a.id = before ++ v :: after →
          (∀ w ∈ after, w.definitionId ≠ v.definitionId) →
          v.definitionId = c.id → v.title = c.title →
          AttributeKind.ofName v.typeName = AttributeKind.ofName c.typeName →
          AttributeKind.ofName v.typeName ≠ .person →
          (a.mention appUrl ∈ o.updateErrors ∨ a.mention appUrl ∈ o.partialErrors) ∨
          ∃ value, s.cellValue? c (Text.trim (s.submittedText request v)) = some value ∧
            (CellValue.ofStored (t.heldBy a.id c.id)).effective = value.effective := by
  intro hall
  have hkeyed : namesakeStore.Keyed := ⟨by decide, by decide, by decide⟩
  have hclaimed := hall namesakeStore _ "" ⟨2024, 5, 17⟩ namesakeRequest _ hkeyed rfl
    ⟨1, "A-1", "Backups", State.inProgress.name, "Control", none, none⟩ (by decide)
    ⟨5, Definition.localType, some 1, "Note", "Text", false, none, none, none⟩ (by decide)
    (by decide) [] namesakeNote [] rfl (by simp) rfl rfl rfl (by decide)
  rcases hclaimed with hreported | ⟨value, hvalue, heffective⟩
  · exact absurd hreported (by decide +kernel)
  · obtain rfl : value = CellValue.ofText "done" :=
      Option.some.inj (hvalue.symm.trans (by decide +kernel))
    exact absurd heffective (by decide +kernel)

end BulkAssessment
