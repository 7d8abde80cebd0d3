import BulkAssessment.Proofs.Outcomes
import BulkAssessment.Proofs.Reports

/-!
# Completion is saving, and then finishing

Completion stores the values of a request and then moves the requested assessments to their next
state. If no slug is empty or has blanks around it, if the ids that values are submitted for have
their assessments, and if no title is `State`, then each row reaches the assessment that it was
made for and no other (`rowsUnder_savingRows_own`, `rowsUnder_completionRows_own`). So

* the first half leaves what saving the same values leaves, though the ids that are requested
  come first in one registry and not in the other (`afterSaving_valuesOnly`);
* no row of the first half is rejected, so that every requested assessment is asked to move, and
  it moves exactly if its mandatory values are there by then (`Assessment.obey_completionOrder`).

`complete_eq_save_then_finish` puts the halves together and says what the answer lists.
-/

namespace BulkAssessment

/-- The values of a request without its list of ids, as saving takes them. -/
def BulkRequest.valuesOnly (request : BulkRequest) : BulkRequest := ⟨[], request.entries⟩

/-- The assessment sent to review if somebody is to verify it, and completed otherwise. -/
def Assessment.finished (today : Date) (hasVerifier : Bool) (a : Assessment) : Assessment :=
  if hasVerifier then { a with status := State.inReview.name }
  else { a with status := State.completed.name, finishedDate := some today.storedText }

/-! ## Orders to finish -/

section Orders

variable {s : Store} {today : Date} {x : Dossier} {request : BulkRequest} {id : Int}

theorem Assessment.obey_completionOrder (filled : Bool) (a : Assessment)
    (hid : (s.assessment? id).isSome = true) :
    a.obey filled today (s.completionOrder request id) =
      if filled then a.finished today (s.hasVerifier id) else a := by
  have hneeds : (s.stubOf request id).needsVerification = s.hasVerifier id := by
    rw [Store.needsVerification_stubOf, hid, Bool.true_and]
  unfold Assessment.obey Store.completionOrder
  rw [Order.transition_moveTo_finished]
  unfold Stub.finishedState
  rw [hneeds]
  cases filled <;> cases s.hasVerifier id <;> rfl

theorem Dossier.rejects_completionTask :
    x.rejects s today (s.completionTask request id) = !x.isFilled s := by
  rw [rejects_of_order (order?_completionTask id), Store.completionOrder,
    Order.transition_moveTo_finished]
  cases x.isFilled s <;> rfl

end Orders

/-! ## Rows that reach their own assessment -/

section Own

variable {s : Store} {today : Date} {x : Dossier} {request : BulkRequest} {id : Int}
  {a : Assessment}

theorem hasAssessment_of_hasValues
    (hentries : ∀ e ∈ request.entries, s.hasAssessment e.assessmentId = true)
    (h : request.hasValues id = true) : (s.assessment? id).isSome = true := by
  obtain ⟨e, he, -⟩ := List.any_eq_true.1 h
  obtain ⟨hmem, rfl⟩ := BulkRequest.mem_entriesOf.1 he
  rw [Store.assessment?_isSome]
  exact hentries e hmem

/-- The only row that stores values of an assessment is its own. -/
theorem rowsUnder_savingRows_own (hk : s.Keyed) (hslugs : s.TidySlugs)
    (hentries : ∀ e ∈ request.entries, s.hasAssessment e.assessmentId = true)
    (ha : s.assessment? id = some a) :
    Operation.rowsUnder a.slug (s.savingRows request) =
      if request.hasValues id then [s.savingTask request id] else [] := by
  have htrim := (hslugs a (Store.mem_of_assessment?_eq_some ha).1).2
  refine rowsUnder_savingRows_alone ha htrim fun i _ hne hvalues => ?_
  exact hslugs.trim_slugOf_ne hk ha (hasAssessment_of_hasValues hentries hvalues) hne

theorem rowsUnder_completionRows_own (hk : s.Keyed) (hslugs : s.TidySlugs)
    (hentries : ∀ e ∈ request.entries, s.hasAssessment e.assessmentId = true)
    (ha : s.assessment? id = some a) {excluded : TextSet} (hincluded : a.slug ∉ excluded) :
    Operation.rowsUnder a.slug (s.completionRows request excluded) =
      if id ∈ request.ids then [s.completionTask request id] else [] := by
  obtain ⟨hfilled, htrim⟩ := hslugs a (Store.mem_of_assessment?_eq_some ha).1
  have hown :
      (!(s.slugOf request id).isEmpty && !decide (s.slugOf request id ∈ excluded)) = true := by
    rw [Store.slugOf_of_assessment? ha]
    simp [hfilled, hincluded]
  have hothers : ∀ i ∈ Keyed.firsts request.ids, i ≠ id →
      (!(s.slugOf request i).isEmpty && !decide (s.slugOf request i ∈ excluded)) = true →
        Text.trim (s.slugOf request i) ≠ a.slug := by
    intro i _ hne hslug
    refine hslugs.trim_slugOf_ne hk ha ?_ hne
    -- an id without an assessment has no entry either, so no slug was sent for it
    by_contra hnone
    rw [Option.not_isSome_iff_eq_none] at hnone
    have hempty : s.slugOf request i = "" := by
      refine Store.slugOf_of_no_entry hnone fun e he hid => ?_
      have hexists := hentries e he
      rw [hid, ← Store.assessment?_isSome, hnone] at hexists
      cases hexists
    rw [hempty] at hslug
    cases hslug
  rw [rowsUnder_completionRows, filter_leadsTo_and (Keyed.nodup_firsts _) ha hothers]
  by_cases hid : id ∈ request.ids
  · rw [if_pos ⟨Keyed.mem_firsts.2 hid, htrim, hown⟩, if_pos hid, List.map_singleton]
  · rw [if_neg fun h => hid (Keyed.mem_firsts.1 h.1), if_neg hid, List.map_nil]

end Own

/-! ## The two halves -/

section Halves

variable {s : Store} {x : Dossier} {request : BulkRequest} {id : Int} (today : Date)
  (hk : s.Keyed) (hslugs : s.TidySlugs)
  (hentries : ∀ e ∈ request.entries, s.hasAssessment e.assessmentId = true)
  (hstate : Column.state ∉ request.titles) (hx : s.dossier? id = some x)
  (hcad : ∀ definition, x.assessment.slug ≠ "cad:" ++ definition)

include hk hslugs hentries hx in
/-- The first half does not depend on the list of ids. -/
theorem afterSaving_valuesOnly :
    x.afterSaving s today request.valuesOnly = x.afterSaving s today request := by
  have ha := (Store.dossier?_eq_some_iff.1 hx).1
  have hbare : ∀ e ∈ request.valuesOnly.entries, s.hasAssessment e.assessmentId = true := hentries
  rw [Dossier.afterSaving, Dossier.afterSaving, rowsUnder_savingRows_own hk hslugs hentries ha,
    rowsUnder_savingRows_own hk hslugs hbare ha]
  rfl

include hk hslugs hentries hstate hx in
theorem mem_warnings_runSave_own :
    x.assessment.slug ∈ (s.runSave today request).report.warnings ↔
      s.rowWarns request id = true := by
  have ha := (Store.dossier?_eq_some_iff.1 hx).1
  rw [mem_warnings_runSave today hk hx, rowsUnder_savingRows_own hk hslugs hentries ha,
    Dossier.someRow_ite, Dossier.warns_savingTask hstate, Store.id_of_dossier? hx, Store.rowWarns,
    Bool.and_eq_true]

/-- The block of the second half. -/
def Store.finishingBlocks (s : Store) (today : Date) (request : BulkRequest) : List Block :=
  ((s.assembleFlagged request).registry.completionBlock? request.ids
    (s.runSave today request).report.errors).toList

include hk hx in
theorem mem_errors_runComplete :
    x.assessment.slug ∈ (s.runComplete today request).report.errors ↔
      x.assessment.slug ∈ (s.runSave today request).report.errors ∨
        (x.afterSaving s today request).someRow s today (Dossier.rejects s today)
          (Task.under x.assessment.slug (Block.tasks (s.finishingBlocks today request))) = true := by
  have hcodes : ∀ task ∈ Block.tasks (s.finishingBlocks today request), task.code? ≠ none := by
    intro task htask
    rw [Store.finishingBlocks, tasks_completionBlock? hk] at htask
    exact code?_ne_none_of_mem (fun _ => code?_completionTask) htask
  have hlater := Run.mem_errors_importBlocks today hk (s.sameFrame_runSave hk today request)
    (dossier?_runSave today hk hx request) (x.slug_afterSaving today request)
    fun task htask hcode => absurd hcode (hcodes task htask)
  exact TextSet.mem_union.trans (or_congr_right hlater)

include hk hslugs hentries hstate hx hcad in
theorem under_finishingBlocks :
    Task.under x.assessment.slug (Block.tasks (s.finishingBlocks today request)) =
      if id ∈ request.ids then [s.completionTask request id] else [] := by
  have ha := (Store.dossier?_eq_some_iff.1 hx).1
  have hclean := not_mem_errors_runSave today hk hx hstate hcad
  rw [Store.finishingBlocks, tasks_completionBlock? hk, ← Operation.rowsUnder,
    rowsUnder_completionRows_own hk hslugs hentries ha hclean]

include hk hslugs hentries hstate hx hcad in
/-- What completion makes of an assessment: what saving makes of it, and then the next state if it
is requested and has its mandatory values. -/
theorem dossier?_runComplete_own :
    (s.runComplete today request).store.dossier? id =
      some { x.afterSaving s today request with
        assessment :=
          if request.ids.contains id && (x.afterSaving s today request).isFilled s then
            (x.afterSaving s today request).assessment.finished today (s.hasVerifier id)
          else (x.afterSaving s today request).assessment } := by
  have hexists : (s.assessment? id).isSome = true :=
    Option.isSome_of_mem (Store.dossier?_eq_some_iff.1 hx).1
  have hrun := dossier?_importBlocks today hk (s.sameFrame_runSave hk today request)
    (dossier?_runSave today hk hx request) (s.finishingBlocks today request)
  rw [x.slug_afterSaving, under_finishingBlocks today hk hslugs hentries hstate hx hcad] at hrun
  refine Eq.trans hrun (congrArg some ?_)
  by_cases hid : id ∈ request.ids
  · rw [if_pos hid, List.foldl_cons, List.foldl_nil,
      Dossier.after_of_order today (order?_completionTask id), Dossier.obey, List.foldl_cons,
      List.foldl_nil, Assessment.obey_completionOrder _ _ hexists,
      List.contains_iff_mem.2 hid, Bool.true_and]
  · have hcontains : request.ids.contains id = false := by simpa using hid
    rw [if_neg hid, List.foldl_nil, hcontains, Bool.false_and, if_neg Bool.false_ne_true]

include hk hslugs hentries hstate hx hcad in
theorem mem_errors_runComplete_own :
    x.assessment.slug ∈ (s.runComplete today request).report.errors ↔
      id ∈ request.ids ∧ (x.afterSaving s today request).isFilled s = false := by
  rw [mem_errors_runComplete today hk hx,
    or_iff_right (not_mem_errors_runSave today hk hx hstate hcad),
    under_finishingBlocks today hk hslugs hentries hstate hx hcad, Dossier.someRow_ite,
    Dossier.rejects_completionTask, Bool.not_eq_true']

include hk hslugs hentries hstate hx hcad in
theorem mem_warnings_runComplete_own :
    x.assessment.slug ∈ (s.runComplete today request).report.warnings ↔
      s.rowWarns request id = true := by
  have hlater := Run.mem_warnings_importBlocks today hk (s.sameFrame_runSave hk today request)
    (dossier?_runSave today hk hx request) (x.slug_afterSaving today request)
    (s.finishingBlocks today request)
  rw [under_finishingBlocks today hk hslugs hentries hstate hx hcad, Dossier.someRow_ite,
    Dossier.warns_of_order (order?_completionTask id)] at hlater
  rw [← mem_warnings_runSave_own today hk hslugs hentries hstate hx]
  exact TextSet.mem_union.trans (or_iff_left fun h => Bool.false_ne_true (hlater.1 h).2)

end Halves

/-! ## The whole -/

section Whole

variable {s : Store} {request : BulkRequest} (today : Date) (hk : s.Keyed) (hslugs : s.TidySlugs)
  (hcad : ∀ a ∈ s.assessments, ∀ definition, a.slug ≠ "cad:" ++ definition)
  (hentries : ∀ e ∈ request.entries, s.hasAssessment e.assessmentId = true)
  (hstate : Column.state ∉ request.titles)

include hk hslugs hentries in
theorem dossier?_runSave_valuesOnly {id : Int} {x : Dossier} (hx : s.dossier? id = some x) :
    (s.runSave today request.valuesOnly).store.dossier? id =
        some (x.afterSaving s today request) ∧
      (s.runSave today request.valuesOnly).store.isFilled id =
        (x.afterSaving s today request).isFilled s := by
  rw [← afterSaving_valuesOnly today hk hslugs hentries hx]
  exact ⟨dossier?_runSave today hk hx request.valuesOnly,
    isFilled_runSave today hk hx request.valuesOnly⟩

include hk hslugs hcad hentries hstate in
/-- Completion leaves the assessments of saving, the requested and filled ones finished. -/
theorem assessments_runComplete :
    (s.runComplete today request).store.assessments =
      (s.runSave today request.valuesOnly).store.assessments.map fun a =>
        if request.ids.contains a.id &&
            (s.runSave today request.valuesOnly).store.isFilled a.id then
          a.finished today (s.hasVerifier a.id)
        else a := by
  have hsave := s.sameFrame_runSave hk today request.valuesOnly
  have hcomplete : s.SameFrame (s.runComplete today request).store :=
    Operation.complete.sameFrame_run hk today request
  refine (hsave.symm.trans hcomplete).assessments_eq_map (hsave.keyed hk) fun b hb => ?_
  obtain ⟨a, ha, hid, -⟩ := hsave.exists_before hb
  obtain ⟨x, hx, rfl⟩ := hk.exists_dossier ha
  have hcompleted := dossier?_runComplete_own today hk hslugs hentries hstate hx (hcad _ ha)
  rw [← hid] at hx hcompleted
  obtain ⟨hsaved, hfilled⟩ := dossier?_runSave_valuesOnly today hk hslugs hentries hx
  have hown : b = (x.afterSaving s today request).assessment := by
    have hlookup := (hsave.keyed hk).assessment?_eq_some_iff.2 ⟨hb, rfl⟩
    exact Option.some.inj (hlookup.symm.trans (Store.dossier?_eq_some_iff.1 hsaved).1)
  rw [hfilled, (Store.dossier?_eq_some_iff.1 hcompleted).1, ← hown]

include hk hslugs hcad hentries hstate in
theorem held_runComplete (id : Int) :
    (s.runComplete today request).store.heldBy id =
        (s.runSave today request.valuesOnly).store.heldBy id ∧
      (s.runComplete today request).store.evidenceOf id =
        (s.runSave today request.valuesOnly).store.evidenceOf id := by
  cases ha : s.assessment? id with
  | none =>
    -- nothing comes to be held by an id that no assessment has
    have hframe := s.sameFrame_runSave hk today request
    have hbare : s.SameOn (s.runSave today request.valuesOnly).store id :=
      Run.sameOn_importBlocks_of_unknown hk ha _
    have hfirst : s.SameOn (s.runSave today request).store id :=
      Run.sameOn_importBlocks_of_unknown hk ha _
    have hboth : s.SameOn (s.runComplete today request).store id := hfirst.trans
      (Run.sameOn_importBlocks_of_unknown (hframe.keyed hk) (hfirst.assessment.trans ha) _)
    exact ⟨hboth.held.trans hbare.held.symm, hboth.evidence.trans hbare.evidence.symm⟩
  | some a =>
    have hx := Store.dossier?_of_assessment? ha
    have hmem := Store.mem_of_dossier? hx
    have hcompleted := dossier?_runComplete_own today hk hslugs hentries hstate hx (hcad _ hmem)
    obtain ⟨-, hheld, hevidence⟩ := Store.dossier?_eq_some_iff.1 hcompleted
    obtain ⟨-, hheld', hevidence'⟩ := Store.dossier?_eq_some_iff.1
      (dossier?_runSave_valuesOnly today hk hslugs hentries hx).1
    exact ⟨hheld.symm.trans hheld', hevidence.symm.trans hevidence'⟩

include hk hslugs hcad hentries hstate in
theorem outcome_runSave (appUrl : String) (requested : List Int) :
    (s.runSave today request).store.outcome appUrl (s.runSave today request).report.errors
        (s.runSave today request).report.partials requested =
      s.sortedBy appUrl requested (fun _ => false) (s.rowWarns request) := by
  refine (s.sameFrame_runSave hk today request).outcome_eq_sortedBy
    (fun a ha _ => ?_) (fun a ha _ _ => ?_)
  · obtain ⟨x, hx, rfl⟩ := hk.exists_dossier ha
    exact iff_of_false (not_mem_errors_runSave today hk hx hstate (hcad _ ha)) Bool.false_ne_true
  · obtain ⟨x, hx, rfl⟩ := hk.exists_dossier ha
    have hclean := not_mem_errors_runSave today hk hx hstate (hcad _ ha)
    have hwarned := mem_warnings_runSave_own today hk hslugs hentries hstate hx
    exact Report.mem_partials.trans ((and_iff_left hclean).trans hwarned)

include hk hslugs hcad hentries hstate in
theorem outcome_runComplete (appUrl : String) :
    (s.runComplete today request).store.outcome appUrl (s.runComplete today request).report.errors
        (s.runComplete today request).report.partials request.ids =
      s.sortedBy appUrl request.ids
        (fun id => !(s.runSave today request.valuesOnly).store.isFilled id)
        (s.rowWarns request) := by
  have herrors {x : Dossier} (hx : s.dossier? x.assessment.id = some x)
      (hmem : x.assessment.id ∈ request.ids) :
      x.assessment.slug ∈ (s.runComplete today request).report.errors ↔
        (!(s.runSave today request.valuesOnly).store.isFilled x.assessment.id) = true := by
    rw [mem_errors_runComplete_own today hk hslugs hentries hstate hx
        (hcad _ (Store.mem_of_dossier? hx)), and_iff_right hmem,
      (dossier?_runSave_valuesOnly today hk hslugs hentries hx).2, Bool.not_eq_true']
  refine (Operation.complete.sameFrame_run hk today request).outcome_eq_sortedBy
    (fun a ha hmem => ?_) (fun a ha hmem hdone => ?_)
  · obtain ⟨x, hx, rfl⟩ := hk.exists_dossier ha
    exact herrors hx hmem
  · obtain ⟨x, hx, rfl⟩ := hk.exists_dossier ha
    have hclean : x.assessment.slug ∉ (s.runComplete today request).report.errors := by
      rw [herrors hx hmem, hdone]
      exact Bool.false_ne_true
    have hwarned := mem_warnings_runComplete_own today hk hslugs hentries hstate hx (hcad _ ha)
    exact Report.mem_partials.trans ((and_iff_left hclean).trans hwarned)

include hk hslugs hcad hentries hstate in
/-- Completing a request leaves what saving its values leaves, except that the requested
assessments with all mandatory values are in their next state. The answer lists those without
them as failed and, of the others, those whose own row left a cell out as done in part; the same
rows are done in part when the values are saved. -/
theorem complete_eq_save_then_finish (hids : request.ids ≠ []) (appUrl : String) :
    ∃ d p t o,
      Operation.save.perform s appUrl today request.valuesOnly = .ok (d, p) ∧
      Operation.complete.perform s appUrl today request = .ok (t, o) ∧
      (t.assessments = d.assessments.map fun a =>
        if request.ids.contains a.id && d.isFilled a.id then
          a.finished today (s.hasVerifier a.id)
        else a) ∧
      (∀ id, t.heldBy id = d.heldBy id ∧ t.evidenceOf id = d.evidenceOf id) ∧
      p = s.sortedBy appUrl (Operation.save.subjects request) (fun _ => false)
        (s.rowWarns request) ∧
      o = s.sortedBy appUrl request.ids (fun id => !d.isFilled id) (s.rowWarns request) := by
  have hadmit : Operation.complete.admit request = .ok () := if_neg (by simpa using hids)
  have hbare : ∀ e ∈ request.valuesOnly.entries, s.hasAssessment e.assessmentId = true := hentries
  exact ⟨_, _, _, _, Operation.perform_of_admitted rfl s appUrl today,
    Operation.perform_of_admitted hadmit s appUrl today,
    assessments_runComplete today hk hslugs hcad hentries hstate,
    held_runComplete today hk hslugs hcad hentries hstate,
    outcome_runSave today hk hslugs hcad hbare hstate appUrl _,
    outcome_runComplete today hk hslugs hcad hentries hstate appUrl⟩

end Whole

/-- Three assessments: one to be verified, one that lacks a mandatory value, and one without
attributes. -/
def deskStore : Store :=
  { Store.empty with
    people := [⟨7, "verifier@example.com"⟩]
    assessments :=
      [⟨1, "A-1", "Backups", State.inProgress.name, "Control", none, none⟩,
        ⟨2, "A-2", "Passwords", State.inProgress.name, "Control", none, none⟩,
        ⟨3, "A-3", "Firewalls", State.notStarted.name, "Control", none, none⟩]
    roles := [⟨1, 7, Role.verifier⟩]
    definitions :=
      [⟨5, Definition.localType, some 1, "Note", "Text", true, none, none, none⟩,
        ⟨6, Definition.localType, some 2, "Note", "Text", true, none, none, none⟩] }

/-- A note for the first, one that the third has no attribute for, and an id that is gone. -/
def deskRequest : BulkRequest :=
  ⟨[3, 1, 2, 1, 99], [⟨1, "", [⟨.string "done", "Note", "Text", some 1, 5, none⟩]⟩,
    ⟨3, "", [⟨.string "done", "Note", "Text", some 3, 8, none⟩]⟩]⟩

/-- The first goes to review, the second fails, and the third is completed in part. -/
theorem complete_desk :
    ∃ t o, Operation.complete.perform deskStore "" ⟨2024, 5, 17⟩ deskRequest = .ok (t, o) ∧
      t.assessments.map (fun a => (a.status, a.finishedDate)) =
        [(State.inReview.name, none), (State.inProgress.name, none),
          (State.completed.name, some "2024-05-17")] ∧
      (o.updateErrors.map Mention.title, o.partialErrors.map Mention.title,
        o.succeeded.map Mention.title, o.deleted) =
          (["Passwords"], ["Firewalls"], ["Backups"], [99]) := by
  have hkeyed : deskStore.Keyed := ⟨by decide, by decide, by decide⟩
  have hslugs : deskStore.TidySlugs := by
    unfold Store.TidySlugs
    decide
  have hcad : ∀ a ∈ deskStore.assessments, ∀ definition, a.slug ≠ "cad:" ++ definition := by
    intro a ha definition heq
    have hprefix : "cad:".toList <+: a.slug.toList := by
      rw [heq, String.toList_append]
      exact List.prefix_append _ _
    have hnone : ∀ a ∈ deskStore.assessments, ¬ "cad:".toList <+: a.slug.toList := by decide
    exact hnone a ha hprefix
  have hentries : ∀ e ∈ deskRequest.entries, deskStore.hasAssessment e.assessmentId = true := by
    decide
  obtain ⟨d, p, t, o, hsave, hcomplete, hassessments, -, -, ho⟩ :=
    complete_eq_save_then_finish ⟨2024, 5, 17⟩ hkeyed hslugs hcad hentries (by decide)
      (by decide) ""
  obtain rfl := Operation.store_of_perform hsave
  refine ⟨t, o, hcomplete, ?_, ?_⟩
  · rw [hassessments]
    decide +kernel
  · rw [ho]
    decide +kernel

end BulkAssessment
