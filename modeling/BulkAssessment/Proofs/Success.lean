import BulkAssessment.Proofs.Completion
import BulkAssessment.Proofs.MandatoryGate
import BulkAssessment.Proofs.Verification

/-!
# Reported success

An assessment is listed as succeeded if its slug was not reported, so the report has to be about
the slug as the store has it. A row is reported under a trimmed cell (`Task.tight_key`), and it
looks for its assessment by that cell. So there are three kinds of slugs:

* one that is not empty and has no blanks around it. The rows of the assessment reach it, and if
  none is reported, then they all were accepted: it is in review or completed after completion,
  and completed on the date of the operation after verification;
* one with blanks around it. No row reaches the assessment and no key is its slug, so it stays
  as it was and is listed as succeeded;
* the empty one. Completion makes no row for it, and verification does not ask who is to verify
  it, so it is listed as succeeded too unless rows of other ids reach it.
-/

namespace BulkAssessment

/-! ## Keys -/

theorem Task.tight_key (task : Task) : Text.Tight (task.layout.key task.row) := by
  obtain ⟨layout, row⟩ := task
  cases layout with
  | attributes l => exact Text.tight_trim _
  | state l => exact Text.tight_trim _
  | comment l =>
    have hprefix : Text.Tight "cad:" := by
      constructor
      · intro c hc
        obtain rfl : 'c' = c := Option.some.inj hc
        decide
      · intro c hc
        obtain rfl : ':' = c := Option.some.inj hc
        decide
    exact hprefix.append (Text.tight_trim _)

theorem Run.not_reported_foldl {today : Date} {key : String} {tasks : List Task} {r : Run}
    (h : ∀ task ∈ tasks, task.layout.key task.row ≠ key)
    (hr : key ∉ r.report.errors ∧ key ∉ r.report.warnings) :
    key ∉ (tasks.foldl (Run.apply today) r).report.errors ∧
      key ∉ (tasks.foldl (Run.apply today) r).report.warnings := by
  induction tasks generalizing r with
  | nil => exact hr
  | cons task tasks ih =>
    have hne := h task List.mem_cons_self
    refine ih (fun u hu => h u (List.mem_cons_of_mem _ hu)) ?_
    rwa [mem_errors_apply_of_ne hne, mem_warnings_apply_of_ne hne]

section Blanks

variable {s : Store} {today : Date} {request : BulkRequest} {slug : String} {id : Int}
  {x : Dossier}

theorem not_reported_of_blanks (h : Text.trim slug ≠ slug) (s : Store) (today : Date)
    (blocks : List Block) :
    slug ∉ (s.importBlocks today blocks).report.errors ∧
      slug ∉ (s.importBlocks today blocks).report.warnings := by
  rw [Store.importBlocks_eq]
  refine Run.not_reported_foldl (fun task _ hkey => h ?_)
    ⟨TextSet.not_mem_empty _, TextSet.not_mem_empty _⟩
  rw [← hkey]
  exact task.tight_key.trim_eq

theorem rowsUnder_of_blanks (h : Text.trim slug ≠ slug) (op : Operation) :
    Operation.rowsUnder slug (op.rows s today request) = [] := by
  unfold Operation.rowsUnder Task.under
  rw [List.filter_eq_nil_iff]
  intro task htask hcode
  obtain ⟨row, hrow, rfl⟩ := List.mem_map.1 htask
  obtain ⟨-, hown⟩ := Operation.code?_of_mem_rows hrow
  rw [hown, beq_iff_eq, Option.some.injEq] at hcode
  rw [← hcode] at h
  exact h (Text.trim_trim _)

theorem dossier?_run_of_blanks (hk : s.Keyed) (hx : s.dossier? id = some x)
    (h : Text.trim x.assessment.slug ≠ x.assessment.slug) (op : Operation) (today : Date)
    (request : BulkRequest) : (op.run s today request).store.dossier? id = some x := by
  rw [op.dossier?_run today hk hx, rowsUnder_of_blanks h, List.foldl_nil]

end Blanks

/-! ## Answers -/

/-- What it says of an assessment that completion lists it, by the slug. -/
structure CompletionAnswer (s t : Store) (request : BulkRequest) (appUrl : String) (o : Outcome) :
    Prop where
  /-- Without blanks around the slug what is done, at least in part, is finished. -/
  tidy : ∀ b ∈ t.assessments,
    b.mention appUrl ∈ o.succeeded ∨ b.mention appUrl ∈ o.partialErrors →
      b.slug ≠ "" → Text.trim b.slug = b.slug → b.Gated
  /-- With blanks around the slug an assessment stays as it was and is listed as succeeded. -/
  blanks : ∀ a ∈ s.assessments, a.id ∈ request.ids → Text.trim a.slug ≠ a.slug →
    a ∈ t.assessments ∧ a.mention appUrl ∈ o.succeeded
  /-- With an empty slug it does not move on, and is not listed as failed, unless the rows of other
  ids reach it. -/
  empty : ∀ a ∈ s.assessments, a.id ∈ request.ids → a.slug = "" →
    Column.state ∉ request.titles →
    (∀ i ∈ request.ids, s.slugOf request i ≠ "" → Text.trim (s.slugOf request i) ≠ "") →
      ∃ b ∈ t.assessments, a.KeptOrReopened b ∧
        (b.mention appUrl ∈ o.succeeded ∨ b.mention appUrl ∈ o.partialErrors)

/-- What it says of an assessment that verification lists it, by the slug. -/
structure VerificationAnswer (s t : Store) (today : Date) (request : BulkRequest) (appUrl : String)
    (o : Outcome) : Prop where
  /-- Without blanks around the slug what is done is completed on the date of the operation. -/
  tidy : ∀ b ∈ t.assessments, b.mention appUrl ∈ o.succeeded →
    b.slug ≠ "" ∨ s.hasVerifier b.id = true → Text.trim b.slug = b.slug →
      b.status = State.completed.name ∧ b.verifiedDate = some today.storedText
  /-- With blanks around the slug an assessment with a verifier stays as it was and is listed as
  succeeded. -/
  blanks : ∀ a ∈ s.assessments, a.id ∈ request.ids → Text.trim a.slug ≠ a.slug →
    s.hasVerifier a.id = true → a ∈ t.assessments ∧ a.mention appUrl ∈ o.succeeded
  /-- So is one with an empty slug, unless the rows of requested ids reach it. -/
  empty : ∀ a ∈ s.assessments, a.id ∈ request.ids → a.slug = "" →
    (∀ b ∈ s.assessments, b.id ∈ request.ids → s.hasVerifier b.id = true →
      Text.trim b.slug ≠ "") →
      a ∈ t.assessments ∧ a.mention appUrl ∈ o.succeeded

/-! ## Completion -/

section Completion

variable {s : Store} {today : Date} {request : BulkRequest} {id : Int} {x : Dossier}

/-- Orders to finish that are obeyed end in review or completion. -/
theorem foldl_completionOrder_finished {ids : List Int} (hne : ids ≠ []) (u : String) :
    (ids.map (s.completionOrder request)).foldl (Order.obey true) u = State.inReview.name ∨
      (ids.map (s.completionOrder request)).foldl (Order.obey true) u = State.completed.name := by
  induction ids generalizing u with
  | nil => exact absurd rfl hne
  | cons id ids ih =>
    rw [List.map_cons, List.foldl_cons, Store.completionOrder, Order.obey_moveTo_finished,
      if_pos rfl]
    cases ids with
    | nil =>
      show (s.stubOf request id).finishedState.name = _ ∨
        (s.stubOf request id).finishedState.name = _
      unfold Stub.finishedState
      cases (s.stubOf request id).needsVerification
      · exact Or.inr rfl
      · exact Or.inl rfl
    | cons j ids => exact ih (List.cons_ne_nil j ids) _

theorem under_finishingBlocks_eq (hk : s.Keyed) (slug : String) :
    Task.under slug (Block.tasks (s.finishingBlocks today request)) =
      (s.completers today request slug).map (s.completionTask request) := by
  rw [Store.finishingBlocks, tasks_completionBlock? hk, ← Operation.rowsUnder,
    rowsUnder_completionRows]
  rfl

/-- A requested assessment completes itself, if its slug is not reported by then. -/
theorem mem_completers {a : Assessment} (ha : s.assessment? id = some a)
    (hid : id ∈ request.ids) (hslug : a.slug ≠ "") (htrim : Text.trim a.slug = a.slug)
    (hsaved : a.slug ∉ (s.runSave today request).report.errors) :
    id ∈ s.completers today request a.slug := by
  refine List.mem_filter.2 ⟨Keyed.mem_firsts.2 hid, ?_⟩
  simp [Store.leadsTo, Store.slugOf_of_assessment? ha, htrim, hslug, hsaved]

theorem gated_runComplete (hk : s.Keyed) (hx : s.dossier? id = some x) (hid : id ∈ request.ids)
    (hslug : x.assessment.slug ≠ "") (htrim : Text.trim x.assessment.slug = x.assessment.slug)
    (hclean : x.assessment.slug ∉ (s.runComplete today request).report.errors) :
    ∃ b, (s.runComplete today request).store.assessment? id = some b ∧ b.Gated := by
  rw [mem_errors_runComplete today hk hx, not_or, under_finishingBlocks_eq hk] at hclean
  obtain ⟨hsaved, haccepted⟩ := hclean
  have hown := mem_completers (Store.dossier?_eq_some_iff.1 hx).1 hid hslug htrim hsaved
  have hne := List.ne_nil_of_mem hown
  obtain ⟨z, hz, hstatus⟩ := status_runComplete today hk hx request
  refine ⟨z.assessment, (Store.dossier?_eq_some_iff.1 hz).1, ?_⟩
  generalize s.completers today request x.assessment.slug = ids at hne haccepted hstatus
  -- the first of the rows is refused unless the mandatory values are there
  have hfilled : (x.afterSaving s today request).isFilled s = true := by
    cases ids with
    | nil => exact absurd rfl hne
    | cons i ids =>
      by_contra hunfilled
      refine haccepted ?_
      rw [List.map_cons, Dossier.someRow, Dossier.rejects_completionTask,
        Bool.eq_false_of_not_eq_true hunfilled]
      rfl
  rw [hfilled] at hstatus
  rw [Assessment.Gated, hstatus]
  exact foldl_completionOrder_finished hne _

/-- An assessment with an empty slug is not completed by a row of its own. If those of other ids
do not reach it either, then it stays or is reopened, and is not reported. -/
theorem kept_of_empty (hk : s.Keyed) (hx : s.dossier? id = some x) (hslug : x.assessment.slug = "")
    (hstate : Column.state ∉ request.titles)
    (hothers : ∀ i ∈ request.ids, s.slugOf request i ≠ "" → Text.trim (s.slugOf request i) ≠ "") :
    (∃ b, (s.runComplete today request).store.assessment? id = some b ∧
        x.assessment.KeptOrReopened b) ∧
      x.assessment.slug ∉ (s.runComplete today request).report.errors := by
  have hnone : s.completers today request x.assessment.slug = [] := by
    rw [hslug, Store.completers, List.filter_eq_nil_iff]
    intro i hi hreaches
    simp only [Store.leadsTo, Bool.and_eq_true, beq_iff_eq, Bool.not_eq_true',
      String.isEmpty_eq_false_iff] at hreaches
    exact hothers i (Keyed.mem_firsts.1 hi) hreaches.2.1 hreaches.1
  have hcad : ∀ definition, x.assessment.slug ≠ "cad:" ++ definition := by
    intro definition hcad
    rw [hslug] at hcad
    exact absurd (congrArg String.toList hcad) (by simp)
  constructor
  · have hrun := Operation.complete.dossier?_run today hk hx request
    rw [Operation.rows, Operation.rowsUnder, List.map_append, under_append,
      List.foldl_append, ← Operation.rowsUnder, ← Operation.rowsUnder, foldl_completionRows,
      hnone] at hrun
    exact ⟨_, (Store.dossier?_eq_some_iff.1 hrun).1, keptOrReopened_afterSaving today hstate x⟩
  · rw [mem_errors_runComplete today hk hx, under_finishingBlocks_eq hk, hnone]
    exact not_or.2 ⟨not_mem_errors_runSave today hk hx hstate hcad, Bool.false_ne_true⟩

end Completion

/-! ## Verification -/

section Verification

variable {s : Store} {today : Date} {request : BulkRequest} {id : Int} {x : Dossier}

/-- Rows that verify and are all accepted verify once, as the state after that is not reviewed. -/
theorem verified_of_accepted (hdate : today.IsValid) {ids : List Int} (hne : ids ≠ [])
    (h : ¬ x.someRow s today (Dossier.rejects s today)
      (ids.map (s.verificationTask request today)) = true) :
    ((ids.map (s.verificationTask request today)).foldl (Dossier.after s today) x).assessment =
      x.assessment.verified today := by
  have haccepted (y : Dossier) (i : Int) (hrow : ¬ y.rejects s today
      (s.verificationTask request today i) = true) : y.assessment.status = State.inReview.name :=
    not_not.1 fun hreview => hrow ((Dossier.rejects_verificationTask hdate i).2 hreview)
  cases ids with
  | nil => exact absurd rfl hne
  | cons i ids =>
    rw [List.map_cons, Dossier.someRow, Bool.or_eq_true, not_or] at h
    have hfirst : (x.after s today (s.verificationTask request today i)).assessment =
        x.assessment.verified today := by
      rw [Dossier.after_of_order today (order?_verificationTask today i), Dossier.obey,
        List.foldl_cons, List.foldl_nil, Assessment.obey_verification hdate,
        if_pos (haccepted x i h.1)]
    obtain ⟨-, hlater⟩ := h
    rw [List.map_cons, List.foldl_cons]
    generalize x.after s today (s.verificationTask request today i) = y at hfirst hlater ⊢
    cases ids with
    | nil => exact hfirst
    | cons j ids =>
      rw [List.map_cons, Dossier.someRow, Bool.or_eq_true, not_or] at hlater
      have hagain := haccepted y j hlater.1
      rw [hfirst] at hagain
      exact absurd hagain (show State.completed.name ≠ State.inReview.name by decide)

theorem assessment?_runVerify_of_clean (hk : s.Keyed) (hdate : today.IsValid)
    (hx : s.dossier? id = some x) (hid : id ∈ request.ids)
    (hslug : x.assessment.slug ≠ "" ∨ s.hasVerifier id = true)
    (htrim : Text.trim x.assessment.slug = x.assessment.slug)
    (hclean : x.assessment.slug ∉ (s.runVerify today request).report.errors) :
    (s.runVerify today request).store.assessment? id = some (x.assessment.verified today) := by
  obtain ⟨ha, -, -⟩ := Store.dossier?_eq_some_iff.1 hx
  rw [mem_errors_runVerify_iff hk hx, not_or, mem_unverifiable_iff hk,
    rowsUnder_verificationRows] at hclean
  obtain ⟨hnobody, haccepted⟩ := hclean
  have hverifier : s.hasVerifier id = true := by
    by_contra hnone
    rw [Bool.not_eq_true] at hnone
    have hfilled : x.assessment.slug ≠ "" := hslug.resolve_right (by simp [hnone])
    obtain ⟨hmem, hxid⟩ := Store.mem_of_assessment?_eq_some ha
    exact hnobody ⟨hfilled, x.assessment, hmem, hxid ▸ hid, rfl, hxid ▸ hnone⟩
  have hown : id ∈ (Keyed.firsts request.ids).filter fun i =>
      s.leadsTo request x.assessment.slug i && (s.stubOf request i).needsVerification := by
    refine List.mem_filter.2 ⟨Keyed.mem_firsts.2 hid, ?_⟩
    simp [Store.leadsTo, Store.slugOf_of_assessment? ha, htrim, Store.needsVerification_stubOf, ha,
      hverifier]
  have hrun := Operation.verify.dossier?_run today hk hx request
  rw [Operation.rows, rowsUnder_verificationRows] at hrun
  refine (Store.dossier?_eq_some_iff.1 hrun).1.trans (congrArg some ?_)
  exact verified_of_accepted hdate (List.ne_nil_of_mem hown) haccepted

/-- An assessment that nobody is to verify is not reported if its slug is empty. If the rows of
other ids do not reach it, then it stays as it was. -/
theorem untouched_of_empty (today : Date) (hk : s.Keyed) (hx : s.dossier? id = some x)
    (hslug : x.assessment.slug = "")
    (hothers : ∀ b ∈ s.assessments, b.id ∈ request.ids → s.hasVerifier b.id = true →
      Text.trim b.slug ≠ "") :
    (s.runVerify today request).store.dossier? id = some x ∧
      x.assessment.slug ∉ (s.runVerify today request).report.errors := by
  have hnone : Operation.rowsUnder x.assessment.slug (s.verificationRows request today) = [] := by
    rw [rowsUnder_verificationRows, List.map_eq_nil_iff, List.filter_eq_nil_iff]
    intro i hi hreaches
    obtain ⟨hleads, hneeds⟩ := Bool.and_eq_true_iff.1 hreaches
    rw [Store.needsVerification_stubOf, Bool.and_eq_true, Option.isSome_iff_exists] at hneeds
    obtain ⟨⟨b, hb⟩, hverifier⟩ := hneeds
    obtain ⟨hmem, rfl⟩ := Store.mem_of_assessment?_eq_some hb
    refine hothers b hmem (Keyed.mem_firsts.1 hi) hverifier ?_
    simpa [Store.leadsTo, Store.slugOf_of_assessment? hb, hslug] using hleads
  constructor
  · have hrun := Operation.verify.dossier?_run today hk hx request
    rwa [Operation.rows, hnone] at hrun
  · rw [mem_errors_runVerify_iff hk hx, mem_unverifiable_iff hk, hnone]
    exact not_or.2 ⟨fun h => h.1 hslug, Bool.false_ne_true⟩

end Verification

/-! ## The lists of the answer -/

section Listed

variable {s t : Store} {today : Date} {request : BulkRequest} {appUrl : String} {o : Outcome}

theorem Operation.listed_iff {op : Operation} (hk : s.Keyed)
    (h : op.perform s appUrl today request = .ok (t, o)) {b : Assessment} (hb : b ∈ t.assessments) :
    (b.mention appUrl ∈ o.succeeded ↔ b.id ∈ op.subjects request ∧
      b.slug ∉ (op.run s today request).report.errors ∧
      b.slug ∉ (op.run s today request).report.partials) ∧
    (b.mention appUrl ∈ o.partialErrors ↔ b.id ∈ op.subjects request ∧
      b.slug ∈ (op.run s today request).report.partials ∧
      b.slug ∉ (op.run s today request).report.errors) := by
  obtain ⟨ht, rfl⟩ := Operation.of_perform h
  have hkt : t.Keyed := ht ▸ (op.sameFrame_run hk today request).keyed hk
  exact ⟨mention_mem_succeeded_iff hkt hb, mention_mem_partialErrors_iff hkt hb⟩

theorem Operation.exists_dossier_before {op : Operation} (hk : s.Keyed)
    (h : op.perform s appUrl today request = .ok (t, o)) {b : Assessment} (hb : b ∈ t.assessments) :
    (op.run s today request).store.assessment? b.id = some b ∧
      ∃ x, s.dossier? b.id = some x ∧ x.assessment.slug = b.slug := by
  have ht := Operation.store_of_perform h
  have hframe := op.sameFrame_run hk today request
  rw [← ht] at hframe
  obtain ⟨a, ha, hid, hslug, -⟩ := hframe.exists_before hb
  obtain ⟨x, hx, rfl⟩ := hk.exists_dossier ha
  refine ⟨?_, x, hid ▸ hx, hslug.symm⟩
  rw [← ht]
  exact (hframe.keyed hk).assessment?_eq_some_iff.2 ⟨hb, rfl⟩

theorem Report.not_mem_partials {r : Report} {key : String} (h : key ∉ r.warnings) :
    key ∉ r.partials :=
  fun hmem => h (mem_partials.1 hmem).1

theorem reported_completion (hk : s.Keyed)
    (h : Operation.complete.perform s appUrl today request = .ok (t, o)) :
    CompletionAnswer s t request appUrl o := by
  have ht : t = (s.runComplete today request).store := Operation.store_of_perform h
  refine ⟨fun b hb hlisted hslug htrim => ?_, fun a ha hid htrim => ?_,
    fun a ha hid hslug hstate hothers => ?_⟩
  · obtain ⟨hdone, hhalf⟩ := Operation.listed_iff hk h hb
    obtain ⟨hid, hclean⟩ : b.id ∈ request.ids ∧
        b.slug ∉ (s.runComplete today request).report.errors := by
      rcases hlisted with hlisted | hlisted
      · exact ⟨(hdone.1 hlisted).1, (hdone.1 hlisted).2.1⟩
      · exact ⟨(hhalf.1 hlisted).1, (hhalf.1 hlisted).2.2⟩
    obtain ⟨hlookup, x, hx, hsame⟩ := Operation.exists_dossier_before hk h hb
    rw [← hsame] at hslug htrim hclean
    obtain ⟨c, hc, hgated⟩ := gated_runComplete hk hx hid hslug htrim hclean
    obtain rfl := Option.some.inj (hlookup.symm.trans hc)
    exact hgated
  · obtain ⟨x, hx, rfl⟩ := hk.exists_dossier ha
    have hkept := dossier?_run_of_blanks hk hx htrim .complete today request
    have hmem : x.assessment ∈ t.assessments := ht ▸ Store.mem_of_dossier? hkept
    have hsaved := not_reported_of_blanks htrim s today (s.assembleFlagged request).updateBlocks
    have hfinished := not_reported_of_blanks htrim (s.runSave today request).store today
      (s.finishingBlocks today request)
    refine ⟨hmem, (Operation.listed_iff hk h hmem).1.2 ⟨hid, ?_, Report.not_mem_partials ?_⟩⟩
    · exact fun herror => (TextSet.mem_union.1 herror).elim hsaved.1 hfinished.1
    · exact fun hwarning => (TextSet.mem_union.1 hwarning).elim hsaved.2 hfinished.2
  · obtain ⟨x, hx, rfl⟩ := hk.exists_dossier ha
    obtain ⟨⟨b, hb, hkept⟩, hclean⟩ := kept_of_empty hk hx hslug hstate hothers
    rw [← ht] at hb
    obtain ⟨hmem, hbid⟩ := Store.mem_of_assessment?_eq_some hb
    have hbslug : b.slug = x.assessment.slug := by
      rcases hkept with rfl | ⟨-, rfl⟩
      · rfl
      · rfl
    rw [← hbslug] at hclean
    rw [← hbid] at hid
    obtain ⟨hdone, hhalf⟩ := Operation.listed_iff hk h hmem
    refine ⟨b, hmem, hkept, ?_⟩
    by_cases hpartial : b.slug ∈ (s.runComplete today request).report.partials
    · exact Or.inr (hhalf.2 ⟨hid, hpartial, hclean⟩)
    · exact Or.inl (hdone.2 ⟨hid, hclean, hpartial⟩)

theorem reported_verification (hk : s.Keyed) (hdate : today.IsValid)
    (h : Operation.verify.perform s appUrl today request = .ok (t, o)) :
    VerificationAnswer s t today request appUrl o := by
  have ht : t = (s.runVerify today request).store := Operation.store_of_perform h
  refine ⟨fun b hb hlisted hslug htrim => ?_, fun a ha hid htrim hverifier => ?_,
    fun a ha hid hslug hothers => ?_⟩
  · obtain ⟨hid, hclean, -⟩ := (Operation.listed_iff hk h hb).1.1 hlisted
    obtain ⟨hlookup, x, hx, hsame⟩ := Operation.exists_dossier_before hk h hb
    rw [← hsame] at hslug htrim hclean
    have hverified := assessment?_runVerify_of_clean hk hdate hx hid hslug htrim hclean
    obtain rfl := Option.some.inj (hlookup.symm.trans hverified)
    exact ⟨rfl, rfl⟩
  · obtain ⟨x, hx, rfl⟩ := hk.exists_dossier ha
    have hkept := dossier?_run_of_blanks hk hx htrim .verify today request
    have hmem : x.assessment ∈ t.assessments := ht ▸ Store.mem_of_dossier? hkept
    have hrows := not_reported_of_blanks htrim s today
      ((s.loadFlags (Registry.ofIds request.ids)).verificationBlock? today).toList
    refine ⟨hmem, (Operation.listed_iff hk h hmem).1.2 ⟨hid, fun herror => ?_,
      Report.not_mem_partials (not_mem_warnings_runVerify hk hx)⟩⟩
    rcases TextSet.mem_union.1 herror with hnobody | hrow
    · -- the slug is its own, and somebody is to verify it
      obtain ⟨-, b, hb, -, hslug, hnone⟩ := (mem_unverifiable_iff hk).1 hnobody
      rw [hk.eq_of_slug hb ha hslug, hverifier] at hnone
      cases hnone
    · exact hrows.1 hrow
  · obtain ⟨x, hx, rfl⟩ := hk.exists_dossier ha
    obtain ⟨hkept, hclean⟩ := untouched_of_empty today hk hx hslug hothers
    have hmem : x.assessment ∈ t.assessments := ht ▸ Store.mem_of_dossier? hkept
    exact ⟨hmem, (Operation.listed_iff hk h hmem).1.2
      ⟨hid, hclean, Report.not_mem_partials (not_mem_warnings_runVerify hk hx)⟩⟩

/-- Reported success is real for slugs that are not empty and have no blanks around them. An
assessment with blanks around its slug is listed as succeeded and stays as it was. One with an
empty slug does not move on either, unless the rows of other ids reach it, and is not listed as
failed. -/
theorem reported_success (hk : s.Keyed) (hdate : today.IsValid) (appUrl : String)
    (request : BulkRequest) :
    (∀ t o, Operation.complete.perform s appUrl today request = .ok (t, o) →
      CompletionAnswer s t request appUrl o) ∧
    (∀ t o, Operation.verify.perform s appUrl today request = .ok (t, o) →
      VerificationAnswer s t today request appUrl o) :=
  ⟨fun _ _ h => reported_completion hk h, fun _ _ h => reported_verification hk hdate h⟩

end Listed

/-- Three assessments: one with a blank in front of its slug, one with a slug without blanks, and one
in review with an empty slug. -/
def blankStore : Store :=
  { Store.empty with
    assessments :=
      [⟨1, " A-1", "Backups", State.inProgress.name, "Control", none, none⟩,
        ⟨2, "A-2", "Passwords", State.inProgress.name, "Control", none, none⟩,
        ⟨3, "", "Firewalls", State.inReview.name, "Control", none, none⟩] }

/-- Completion and verification leave the first and the last as they were, and list them as
succeeded. -/
theorem success_of_blanks :
    ∃ t o u p, Operation.complete.perform blankStore "" ⟨2024, 5, 17⟩ ⟨[1, 2], []⟩ = .ok (t, o) ∧
      (∃ a ∈ t.assessments, a.status = State.inProgress.name ∧ a.mention "" ∈ o.succeeded) ∧
      (∃ b ∈ t.assessments, b.mention "" ∈ o.succeeded ∧ b.Gated) ∧
      Operation.verify.perform blankStore "" ⟨2024, 5, 17⟩ ⟨[3], []⟩ = .ok (u, p) ∧
      ∃ c ∈ u.assessments, c.status = State.inReview.name ∧ c.mention "" ∈ p.succeeded := by
  have hkeyed : blankStore.Keyed := ⟨by decide, by decide, by decide⟩
  have hdate : (⟨2024, 5, 17⟩ : Date).IsValid := by decide
  obtain ⟨t, o, h⟩ : ∃ t o,
      Operation.complete.perform blankStore "" ⟨2024, 5, 17⟩ ⟨[1, 2], []⟩ = .ok (t, o) :=
    ⟨_, _, rfl⟩
  obtain ⟨u, p, k⟩ : ∃ u p,
      Operation.verify.perform blankStore "" ⟨2024, 5, 17⟩ ⟨[3], []⟩ = .ok (u, p) :=
    ⟨_, _, rfl⟩
  have hcompletion := (reported_success hkeyed hdate "" ⟨[1, 2], []⟩).1 t o h
  have hverification := (reported_success hkeyed hdate "" ⟨[3], []⟩).2 u p k
  obtain ⟨ht, ho⟩ := Operation.of_perform h
  have hlisted : ∃ b ∈ t.assessments, b.mention "" ∈ o.succeeded ∧ b.slug = "A-2" := by
    rw [ho, ht]
    decide +kernel
  refine ⟨t, o, u, p, h, ?_, ?_, k, ?_⟩
  · obtain ⟨hmem, hmention⟩ :=
      hcompletion.blanks _ List.mem_cons_self (by decide) (by decide)
    exact ⟨_, hmem, rfl, hmention⟩
  · obtain ⟨b, hb, hmention, hslug⟩ := hlisted
    exact ⟨b, hb, hmention, hcompletion.tidy b hb (Or.inl hmention) (by simp [hslug])
      (by rw [hslug]; decide)⟩
  · have hthird : (⟨3, "", "Firewalls", State.inReview.name, "Control", none, none⟩ : Assessment) ∈
        blankStore.assessments := by decide
    obtain ⟨hmem, hmention⟩ := hverification.empty _ hthird (by decide) rfl (by decide)
    exact ⟨_, hmem, rfl, hmention⟩

end BulkAssessment
