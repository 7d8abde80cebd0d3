import BulkAssessment.Proofs.Comments
import BulkAssessment.Proofs.People

/-!
# Verdicts on one assessment alone

What is reported of an assessment depends on what is submitted for others. To tell how, a request
is compared with the entries about one assessment alone (`BulkRequest.only`). The cells of the
assessment have the same texts in both (`cellText_only`), and what is rejected alone is rejected in
the whole request (`mem_errors_of_only`).

But the row of the assessment has a cell in the column of each title of the request, and a title
that stands for none of its definitions is reported even if the cell is empty. So the assessment is
done in part for its own submissions, or because a title that is strange to it was submitted for
another (`Store.Strange`, `rowWarns_iff_only`), or because the row of another id reaches it
(`partial_alone`).
-/

namespace BulkAssessment

/-! ## The entries about one assessment -/

namespace BulkRequest

variable {request : BulkRequest} {id i : Int} {title : String}

/-- The request with the entries about one assessment alone. -/
def only (request : BulkRequest) (id : Int) : BulkRequest := ⟨request.ids, request.entriesOf id⟩

theorem entriesOf_only (request : BulkRequest) (id : Int) :
    (request.only id).entriesOf id = request.entriesOf id := by
  simp [only, entriesOf]

theorem submissionsOf_only (request : BulkRequest) (id : Int) :
    (request.only id).submissionsOf id = request.submissionsOf id := by
  rw [submissionsOf, submissionsOf, entriesOf_only]

theorem hasValues_only (request : BulkRequest) (id : Int) :
    (request.only id).hasValues id = request.hasValues id := by
  rw [hasValues, hasValues, entriesOf_only]

theorem mem_titles_only : title ∈ (request.only id).titles ↔ request.Submits id title := by
  rw [mem_titles]
  constructor
  · rintro ⟨i, e, he, -, hv⟩
    obtain ⟨hmem, hid⟩ := mem_entriesOf.1 he
    exact ⟨e, hmem, hid, hv⟩
  · rintro ⟨e, he, hid, hv⟩
    exact ⟨id, e, mem_entriesOf.2 ⟨he, hid⟩, hid, hv⟩

theorem mem_titles_of_only (h : title ∈ (request.only id).titles) : title ∈ request.titles :=
  mem_titles.2 ⟨id, mem_titles_only.1 h⟩

theorem mem_commentsOf_of_only {c : CommentRecord} (h : c ∈ (request.only id).commentsOf i) :
    c ∈ request.commentsOf id := by
  obtain ⟨v, hv, hc⟩ := List.mem_filterMap.1 h
  obtain ⟨e, he, hve⟩ := List.mem_flatMap.1 hv
  exact List.mem_filterMap.2 ⟨v, List.mem_flatMap.2 ⟨e, (mem_entriesOf.1 he).1, hve⟩, hc⟩

end BulkRequest

/-- The list of ids is the same, which is all that decides whether a request suits an operation. -/
theorem Operation.admit_only (op : Operation) (request : BulkRequest) (id : Int) :
    op.admit (request.only id) = op.admit request := rfl

/-! ## Cells -/

namespace Store

variable {s : Store} {request : BulkRequest} {id : Int} {title : String}

theorem values_stubOf (s : Store) (request : BulkRequest) (id : Int) :
    (s.stubOf request id).values =
      (request.submissionsOf id).foldl (Stub.submitValue s.emails) [] := by
  have hcollect : (s.stubOf request id).values =
      (request.submissionsOf id).foldl
        (Stub.submitValue (PeopleIndex.ofList (s.emailsByIds request.personIds))) [] := by
    unfold stubOf
    cases s.assessment? id <;> exact BulkRequest.values_collect
  rw [hcollect]
  refine List.foldl_ext _ _ _ fun values v hv => ?_
  exact congrArg (fun text => Json.setMember v.title text values)
    (submittedText_eq (BulkRequest.mem_submissions hv))

theorem cellText_only (s : Store) (request : BulkRequest) (id : Int) (title : String) :
    s.cellText (request.only id) id title = s.cellText request id title := by
  unfold cellText Stub.value?
  rw [values_stubOf, values_stubOf, BulkRequest.submissionsOf_only]

theorem leavesOut_empty : s.leavesOut id title "" = true ↔ s.definitionTitled? id title = none := by
  unfold leavesOut
  cases s.definitionTitled? id title with
  | none => simp
  | some d =>
    dsimp only
    rw [cellValue?_empty]
    simp

/-- A title that was submitted for other assessments alone and stands for no definition of this
one. -/
def Strange (s : Store) (request : BulkRequest) (id : Int) (title : String) : Prop :=
  title ∉ Block.fixedColumns ∧ s.definitionTitled? id title = none ∧
    ¬ request.Submits id title ∧ ∃ i ≠ id, request.Submits i title

theorem rowWarns_iff : s.rowWarns request id = true ↔
    request.hasValues id = true ∧ ∃ title ∈ request.titles, title ∉ Block.fixedColumns ∧
      s.leavesOut id title (s.cellText request id title) = true := by
  simp only [rowWarns, Bool.and_eq_true, List.any_eq_true, List.mem_filter, decide_eq_true_eq,
    and_assoc]

/-- The row of an assessment leaves out what it would leave out alone, and the titles that are
strange to it. -/
theorem rowWarns_iff_only : s.rowWarns request id = true ↔
    s.rowWarns (request.only id) id = true ∨
      request.hasValues id = true ∧ ∃ title, s.Strange request id title := by
  simp only [rowWarns_iff, cellText_only, BulkRequest.hasValues_only]
  constructor
  · rintro ⟨hvalues, title, htitle, hfree, hleft⟩
    by_cases hown : request.Submits id title
    · exact Or.inl ⟨hvalues, title, BulkRequest.mem_titles_only.2 hown, hfree, hleft⟩
    · rw [cellText_of_not_submits hown, leavesOut_empty] at hleft
      obtain ⟨i, hi⟩ := BulkRequest.mem_titles.1 htitle
      have hne : i ≠ id := by
        rintro rfl
        exact hown hi
      exact Or.inr ⟨hvalues, title, hfree, hleft, hown, i, hne, hi⟩
  · rintro (⟨hvalues, title, htitle, hfree, hleft⟩ | ⟨hvalues, title, hfree, hnone, hown, i, -, hi⟩)
    · exact ⟨hvalues, title, BulkRequest.mem_titles_of_only htitle, hfree, hleft⟩
    · refine ⟨hvalues, title, BulkRequest.mem_titles.2 ⟨i, hi⟩, hfree, ?_⟩
      rw [cellText_of_not_submits hown, leavesOut_empty]
      exact hnone

end Store

/-! ## Runs -/

section Runs

variable {s : Store} {today : Date} {request : BulkRequest} {id : Int} {x : Dossier}

theorem mem_errors_of_only (today : Date) (hk : s.Keyed) (hx : s.dossier? id = some x)
    (hstate : Column.state ∉ request.titles)
    (h : x.assessment.slug ∈ (s.runSave today (request.only id)).report.errors) :
    x.assessment.slug ∈ (s.runSave today request).report.errors := by
  rw [mem_errors_runSave_iff today hk hx
    fun hown => hstate (BulkRequest.mem_titles_of_only hown)] at h
  obtain ⟨i, c, hc, hreported⟩ := h
  exact (mem_errors_runSave_iff today hk hx hstate).2
    ⟨id, c, BulkRequest.mem_commentsOf_of_only hc, hreported⟩

/-- Saving warns of an assessment if one of the rows that reach it leaves a cell out, as long as no
title is `State`. -/
theorem mem_warnings_runSave_iff (today : Date) (hk : s.Keyed) (hx : s.dossier? id = some x)
    (hstate : Column.state ∉ request.titles) :
    x.assessment.slug ∈ (s.runSave today request).report.warnings ↔
      ∃ i, Text.trim (s.slugOf request i) = x.assessment.slug ∧ request.hasValues i = true ∧
        ∃ title ∈ request.titles, title ∉ Block.fixedColumns ∧
          s.leavesOut id title (s.cellText request i title) = true := by
  have hwarns : ∀ i, x.warns s today (s.savingTask request i) = true ↔
      ∃ title ∈ request.titles, title ∉ Block.fixedColumns ∧
        s.leavesOut id title (s.cellText request i title) = true := by
    intro i
    rw [Dossier.warns_savingTask hstate, Store.id_of_dossier? hx]
    simp only [List.any_eq_true, List.mem_filter, decide_eq_true_eq, and_assoc]
  rw [mem_warnings_runSave today hk hx, rowsUnder_savingRows,
    x.someRow_eq_any (p := x.warns s today), List.any_map, List.any_eq_true]
  · constructor
    · rintro ⟨i, hi, hwarned⟩
      obtain ⟨-, hreaches⟩ := List.mem_filter.1 hi
      obtain ⟨hleads, hvalues⟩ := Bool.and_eq_true_iff.1 hreaches
      exact ⟨i, beq_iff_eq.1 hleads, hvalues, (hwarns i).1 hwarned⟩
    · rintro ⟨i, hleads, hvalues, hwarned⟩
      refine ⟨i, List.mem_filter.2 ⟨named_of_hasValues hvalues, ?_⟩, (hwarns i).2 hwarned⟩
      exact Bool.and_eq_true_iff.2 ⟨beq_iff_eq.2 hleads, hvalues⟩
  · intro task htask y hy
    obtain ⟨i, -, rfl⟩ := List.mem_map.1 htask
    rw [Dossier.warns_savingTask hstate, Dossier.warns_savingTask hstate, hy]

/-- A title `State` makes all rows state rows, which leave nothing out. -/
theorem not_mem_warnings_of_state (today : Date) (hk : s.Keyed) (hx : s.dossier? id = some x)
    (hstate : Column.state ∈ request.titles) :
    x.assessment.slug ∉ (s.runSave today request).report.warnings := by
  rw [mem_warnings_runSave today hk hx, rowsUnder_savingRows, Dossier.someRow_eq_false]
  · exact Bool.false_ne_true
  · intro task htask y
    obtain ⟨i, -, rfl⟩ := List.mem_map.1 htask
    exact Dossier.warns_of_order (order?_savingTask hstate i)

theorem mem_warnings_of_rowWarns (today : Date) (hk : s.Keyed) (hx : s.dossier? id = some x)
    (hstate : Column.state ∉ request.titles)
    (htrim : Text.trim x.assessment.slug = x.assessment.slug)
    (hwarns : s.rowWarns request id = true) :
    x.assessment.slug ∈ (s.runSave today request).report.warnings := by
  obtain ⟨hvalues, hleft⟩ := Store.rowWarns_iff.1 hwarns
  have hslug : s.slugOf request id = x.assessment.slug :=
    Store.slugOf_of_assessment? (Store.dossier?_eq_some_iff.1 hx).1
  exact (mem_warnings_runSave_iff today hk hx hstate).2
    ⟨id, by rw [hslug, htrim], hvalues, hleft⟩

/-- What is warned of in the whole request is warned of alone, or there is a title that is strange
to it, or the row of another id reaches it. -/
theorem warned_alone_or (today : Date) (hk : s.Keyed) (hx : s.dossier? id = some x)
    (h : x.assessment.slug ∈ (s.runSave today request).report.warnings) :
    request.hasValues id = true ∧
        x.assessment.slug ∈ (s.runSave today (request.only id)).report.warnings ∨
      (∃ title, s.Strange request id title) ∨
      ∃ i ≠ id, request.hasValues i = true ∧
        Text.trim (s.slugOf request i) = x.assessment.slug := by
  have hstate : Column.state ∉ request.titles :=
    fun hstate => not_mem_warnings_of_state today hk hx hstate h
  obtain ⟨i, hreaches, hvalues, hleft⟩ := (mem_warnings_runSave_iff today hk hx hstate).1 h
  by_cases hown : i = id
  · subst hown
    rcases Store.rowWarns_iff_only.1 (Store.rowWarns_iff.2 ⟨hvalues, hleft⟩) with
      halone | ⟨-, hstrange⟩
    · -- the row reaches the assessment, so its slug is a trimmed text
      have htrim : Text.trim x.assessment.slug = x.assessment.slug := by
        rw [← hreaches]
        exact Text.trim_trim _
      refine Or.inl ⟨hvalues, mem_warnings_of_rowWarns today hk hx ?_ htrim halone⟩
      exact fun hstateAlone => hstate (BulkRequest.mem_titles_of_only hstateAlone)
    · exact Or.inr (Or.inl hstrange)
  · exact Or.inr (Or.inr ⟨i, hown, hvalues, hreaches⟩)

end Runs

/-! ## Answers -/

section Answers

variable {s t : Store} {request : BulkRequest} {today : Date} {appUrl : String} {o : Outcome}
  {a : Assessment}

/-- An assessment that is done in part is so by the entries about it alone, unless a title that was
submitted for other assessments is strange to it or the row of another id reaches it. A strange
title is always reported. -/
theorem partial_alone (hk : s.Keyed)
    (h : Operation.save.perform s appUrl today request = .ok (t, o)) (ha : a ∈ s.assessments) :
    ∃ u p, Operation.save.perform s appUrl today (request.only a.id) = .ok (u, p) ∧
      (a.mention appUrl ∈ o.partialErrors → a.mention appUrl ∈ p.partialErrors ∨
        (∃ title, s.Strange request a.id title) ∨
        ∃ i ≠ a.id, request.hasValues i = true ∧ Text.trim (s.slugOf request i) = a.slug) ∧
      ((∃ title, s.Strange request a.id title) → request.hasValues a.id = true →
        Column.state ∉ request.titles → Text.trim a.slug = a.slug →
          a.mention appUrl ∈ o.updateErrors ∨ a.mention appUrl ∈ o.partialErrors) := by
  obtain ⟨x, hx, rfl⟩ := hk.exists_dossier ha
  have hadmit : Operation.save.admit (request.only x.assessment.id) = .ok () :=
    (Operation.admit_only _ _ _).trans (Operation.admit_of_perform h)
  obtain ⟨u, p, halone⟩ : ∃ u p,
      Operation.save.perform s appUrl today (request.only x.assessment.id) = .ok (u, p) :=
    ⟨_, _, Operation.perform_of_admitted hadmit s appUrl today⟩
  obtain ⟨-, hpartial, -⟩ := Operation.listed_before hk h ha
  obtain ⟨-, hpartialAlone, -⟩ := Operation.listed_before hk halone ha
  refine ⟨u, p, halone, fun hlisted => ?_, fun hstrange hvalues hstate htrim => ?_⟩
  · obtain ⟨-, hreported, hclean⟩ := hpartial.1 hlisted
    have hwarned := (Report.mem_partials.1 hreported).1
    rcases warned_alone_or today hk hx hwarned with ⟨hvalues, hwarnedAlone⟩ | hother
    · left
      have hcleanAlone := mt (mem_errors_of_only today hk hx fun hstate =>
        not_mem_warnings_of_state today hk hx hstate hwarned) hclean
      have hsubject := mem_subjects_of_hasValues ((BulkRequest.hasValues_only _ _).trans hvalues)
      exact hpartialAlone.2
        ⟨hsubject, Report.mem_partials.2 ⟨hwarnedAlone, hcleanAlone⟩, hcleanAlone⟩
    · exact Or.inr hother
  · have hwarns := Store.rowWarns_iff_only.2 (Or.inr ⟨hvalues, hstrange⟩)
    have hwarned := mem_warnings_of_rowWarns today hk hx hstate htrim hwarns
    exact mention_of_warned hk h ha hvalues hwarned

end Answers

/-- Two assessments whose attributes have different titles. -/
def ownTitlesStore : Store :=
  { Store.empty with
    assessments :=
      [⟨1, "A-1", "Backups", State.inProgress.name, "Control", none, none⟩,
        ⟨2, "A-2", "Passwords", State.inProgress.name, "Control", none, none⟩]
    definitions :=
      [⟨5, Definition.localType, some 1, "Note", "Text", false, none, none, none⟩,
        ⟨6, Definition.localType, some 2, "Owner", "Text", false, none, none, none⟩] }

/-- A value for each of them. -/
def ownTitlesRequest : BulkRequest :=
  ⟨[], [⟨1, "A-1", [⟨.string "done", "Note", "Text", some 1, 5, none⟩]⟩,
    ⟨2, "A-2", [⟨.string "me", "Owner", "Text", some 2, 6, none⟩]⟩]⟩

/-- The first is done in part, and succeeds alone. -/
theorem partial_alone_of_strange :
    ∃ t o u p,
      Operation.save.perform ownTitlesStore "" ⟨2024, 5, 17⟩ ownTitlesRequest = .ok (t, o) ∧
      Operation.save.perform ownTitlesStore "" ⟨2024, 5, 17⟩ (ownTitlesRequest.only 1) =
        .ok (u, p) ∧
      o.partialErrors.map Mention.title = ["Backups", "Passwords"] ∧
      p.succeeded.map Mention.title = ["Backups"] ∧
      ∃ title, ownTitlesStore.Strange ownTitlesRequest 1 title := by
  have hkeyed : ownTitlesStore.Keyed := ⟨by decide, by decide, by decide⟩
  have ha : (⟨1, "A-1", "Backups", State.inProgress.name, "Control", none, none⟩ : Assessment) ∈
      ownTitlesStore.assessments := by decide
  have hadmit : Operation.save.admit ownTitlesRequest = .ok () := rfl
  have h := Operation.perform_of_admitted hadmit ownTitlesStore "" ⟨2024, 5, 17⟩
  obtain ⟨u, p, halone, hpartial, -⟩ := partial_alone hkeyed h ha
  dsimp only at halone hpartial
  obtain ⟨rfl, rfl⟩ := Operation.of_perform halone
  refine ⟨_, _, _, _, h, halone, by decide +kernel, by decide +kernel, ?_⟩
  rcases hpartial (by decide +kernel) with hsame | hstrange | ⟨i, hne, hvalues, hreaches⟩
  · exact absurd hsame (by decide +kernel)
  · exact hstrange
  · -- the only other id with values has another slug
    have hothers : ∀ i ∈ ownTitlesRequest.named, i ≠ 1 →
        Text.trim (ownTitlesStore.slugOf ownTitlesRequest i) ≠ "A-1" := by decide
    exact absurd hreaches (hothers i (named_of_hasValues hvalues) hne)

/-- Not every assessment that is done in part is so by the entries about it alone. -/
theorem not_all_partial_alone :
    ¬ ∀ (s t u : Store) (appUrl : String) (today : Date) (request : BulkRequest) (o p : Outcome),
        s.Keyed → (∀ i ∈ request.named, s.hasAssessment i = true) →
        ∀ a ∈ s.assessments,
          Operation.save.perform s appUrl today request = .ok (t, o) →
          Operation.save.perform s appUrl today (request.only a.id) = .ok (u, p) →
          a.mention appUrl ∈ o.partialErrors → a.mention appUrl ∈ p.partialErrors := by
  intro hall
  have hkeyed : ownTitlesStore.Keyed := ⟨by decide, by decide, by decide⟩
  have hadmit : Operation.save.admit ownTitlesRequest = .ok () := rfl
  have h := Operation.perform_of_admitted hadmit ownTitlesStore "" ⟨2024, 5, 17⟩
  have halone := Operation.perform_of_admitted ((Operation.admit_only _ _ 1).trans hadmit)
    ownTitlesStore "" ⟨2024, 5, 17⟩
  have hsame := hall ownTitlesStore _ _ "" ⟨2024, 5, 17⟩ ownTitlesRequest _ _ hkeyed (by decide)
    ⟨1, "A-1", "Backups", State.inProgress.name, "Control", none, none⟩ (by decide) h halone
    (by decide +kernel)
  exact absurd hsame (by decide +kernel)

end BulkAssessment
