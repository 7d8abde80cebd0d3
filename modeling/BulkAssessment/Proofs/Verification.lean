import BulkAssessment.Proofs.Dates
import BulkAssessment.Proofs.Outcomes
import BulkAssessment.Proofs.Reports

/-!
# Verification

Verification has a row for each requested assessment that somebody is to verify, which orders
completion on the date of the operation. The date is written into a cell, read back from there and
written into the store, so it has to be one that cells can hold (`Date.ofCell?_cellText`); such an
order is obeyed exactly if the assessment is in review (`Assessment.obey_verification`).

An assessment fails either before the import, if nobody is to verify it, or by its row. Both are
noted under its slug. If no slug is empty or has blanks around it, then no other assessment has a
part in that, and `verify_contract` gives the store and the answer in closed form.
-/

namespace BulkAssessment

/-- An assessment is in review and somebody is to verify it. -/
def Store.verifiable (s : Store) (a : Assessment) : Bool :=
  s.hasVerifier a.id && a.status == State.inReview.name

/-- The assessment after it is verified. -/
def Assessment.verified (today : Date) (a : Assessment) : Assessment :=
  { a with status := State.completed.name, verifiedDate := some today.storedText }

/-- The requested assessments that cannot be verified, in the order of the table. -/
def Store.refused (s : Store) (requested : List Int) : List Assessment :=
  s.assessments.filter fun a => requested.contains a.id && !s.verifiable a

/-! ## The order to verify -/

/-- What the rows of verification order. -/
def Order.verify (today : Date) : Order := ⟨State.completed.name, today.cellText⟩

section Orders

variable {s : Store} {request : BulkRequest} {today : Date} {x : Dossier}

/-- Blanks or not, the cells of the row hold what was written into them. -/
theorem order?_verificationTask (today : Date) (id : Int) :
    (s.verificationTask request today id).order? = some (Order.verify today) := by
  have hstate : Text.trim State.completed.name = State.completed.name := by decide
  have horder : (s.verificationTask request today id).order? =
      some ⟨Text.trim State.completed.name, Text.trim today.cellText⟩ := rfl
  rw [horder, hstate, Date.trim_cellText, Order.verify]

theorem Order.transition_verify (hdate : today.IsValid) (filled : Bool) (status : String) :
    (Order.verify today).transition filled today status =
      if status = State.inReview.name then
        .ok ⟨State.completed.name, none, some today.storedText⟩
      else .error (.notInReview status) := by
  have hstate : State.ofName? State.completed.name = some .completed := by decide
  unfold transition verify
  simp only [hstate, Date.cellText_isEmpty, Date.ofCell?_cellText hdate]
  by_cases hreview : status = State.inReview.name
  · simp [hreview]
  · simp [hreview]

theorem Assessment.obey_verification (hdate : today.IsValid) (filled : Bool) (a : Assessment) :
    a.obey filled today (Order.verify today) =
      if a.status = State.inReview.name then a.verified today else a := by
  unfold Assessment.obey
  rw [Order.transition_verify hdate]
  by_cases hreview : a.status = State.inReview.name
  · rw [if_pos hreview, if_pos hreview]
    rfl
  · rw [if_neg hreview, if_neg hreview]

theorem Dossier.rejects_verificationTask (hdate : today.IsValid) (id : Int) :
    x.rejects s today (s.verificationTask request today id) = true ↔
      x.assessment.status ≠ State.inReview.name := by
  rw [rejects_of_order (order?_verificationTask today id), Order.transition_verify hdate]
  by_cases hreview : x.assessment.status = State.inReview.name
  · rw [if_pos hreview]
    exact iff_of_false Bool.false_ne_true (not_not_intro hreview)
  · rw [if_neg hreview]
    exact iff_of_true rfl hreview

end Orders

/-! ## State rows change assessments only -/

section Tables

variable {s t : Store} {today : Date}

theorem Store.applyState_eq_ok {l : StateLayout} {row : Row}
    (h : s.applyState today l row = .ok t) : ∃ id transition, t = s.transit id transition := by
  unfold Store.applyState at h
  cases hsubject : s.subject (cell row l.code) with
  | error e =>
    rw [hsubject] at h
    cases h
  | ok a =>
    rw [hsubject] at h
    simp only [bind, Except.bind] at h
    cases hstate : State.ofName? (cell row l.state) with
    | none => simp only [hstate, reduceCtorEq] at h
    | some target =>
      simp only [hstate, Store.applyMove, Store.applyVerification] at h
      split at h
      · split at h
        · cases h
        · exact ⟨_, _, (Except.ok.inj h).symm⟩
      · split at h
        · cases h
        · split at h
          · cases h
          · exact ⟨_, _, (Except.ok.inj h).symm⟩

theorem Run.tables_apply_of_state (r : Run) (l : StateLayout) (row : Row) :
    { (r.apply today ⟨.state l, row⟩).store with assessments := [] } =
      { r.store with assessments := [] } := by
  rw [Run.store_apply]
  dsimp only [Store.applyRow]
  cases h : r.store.applyState today l row with
  | error e => rfl
  | ok t =>
    obtain ⟨id, transition, rfl⟩ := Store.applyState_eq_ok h
    rfl

theorem tables_runVerify (hk : s.Keyed) (today : Date) (request : BulkRequest) :
    { (s.runVerify today request).store with assessments := [] } =
      { s with assessments := [] } := by
  have hrun : (s.runVerify today request).store =
      (((s.verificationRows request today).map Prod.snd).foldl (Run.apply today)
        (Run.start s)).store := by
    rw [← tasks_verificationBlock? hk, ← Store.importBlocks_eq]
    rfl
  rw [hrun]
  refine foldl_keeps (f := fun r : Run => { r.store with assessments := [] })
    (fun r task htask => ?_) (Run.start s)
  obtain ⟨row, hrow, rfl⟩ := List.mem_map.1 htask
  obtain ⟨-, hown⟩ := of_mem_verificationRows hrow
  rw [hown]
  exact r.tables_apply_of_state _ _

end Tables

/-! ## Rows and notes that concern their own assessment -/

section Own

variable {s : Store} {today : Date} {request : BulkRequest} {id : Int} {a : Assessment}

theorem rowsUnder_verificationRows_own (hk : s.Keyed) (hslugs : s.TidySlugs)
    (ha : s.assessment? id = some a) :
    Operation.rowsUnder a.slug (s.verificationRows request today) =
      if id ∈ request.ids ∧ s.hasVerifier id = true then [s.verificationTask request today id]
      else [] := by
  have htrim := (hslugs a (Store.mem_of_assessment?_eq_some ha).1).2
  have hflagged (i : Int) (h : (s.stubOf request i).needsVerification = true) :
      (s.assessment? i).isSome = true := by
    rw [Store.needsVerification_stubOf] at h
    exact (Bool.and_eq_true_iff.1 h).1
  have hown : (s.stubOf request id).needsVerification = s.hasVerifier id := by
    rw [Store.needsVerification_stubOf, ha]
    rfl
  rw [rowsUnder_verificationRows, filter_leadsTo_and (Keyed.nodup_firsts _) ha fun i _ hne hneeds =>
    hslugs.trim_slugOf_ne hk ha (hflagged i hneeds) hne]
  by_cases hrow : id ∈ request.ids ∧ s.hasVerifier id = true
  · rw [if_pos ⟨Keyed.mem_firsts.2 hrow.1, htrim, hown.trans hrow.2⟩, if_pos hrow,
      List.map_singleton]
  · rw [if_neg hrow, if_neg fun h => hrow ⟨Keyed.mem_firsts.1 h.1, hown.symm.trans h.2.2⟩,
      List.map_nil]

/-- What fails before the import: the slugs of the requested assessments that nobody is to verify,
unless they are empty. -/
theorem mem_unverifiable_iff (hk : s.Keyed) {ids : List Int} {slug : String} :
    slug ∈ Store.unverifiable (s.loadFlags (Registry.ofIds ids)) ↔
      slug ≠ "" ∧ ∃ a ∈ s.assessments, a.id ∈ ids ∧ a.slug = slug ∧ s.hasVerifier a.id = false := by
  -- the registry of a request without entries
  let bare : BulkRequest := ⟨ids, []⟩
  have hregistry : (s.loadFlags (Registry.ofIds ids)).toList =
      (Keyed.firsts ids).map (s.stubOf bare) := by
    have hnamed : bare.named = Keyed.firsts ids := by simp [bare, BulkRequest.named]
    rw [← hnamed]
    exact Store.toList_assembleFlagged hk bare
  unfold Store.unverifiable
  rw [TextSet.mem_ofList, hregistry]
  constructor
  · intro h
    obtain ⟨stub, hstub, hslug⟩ := List.mem_map.1 h
    obtain ⟨hmem, htest⟩ := List.mem_filter.1 hstub
    obtain ⟨i, hi, rfl⟩ := List.mem_map.1 hmem
    obtain ⟨hfilled, hneeds⟩ : slug ≠ "" ∧ (s.stubOf bare i).needsVerification = false := by
      simpa [hslug] using htest
    rw [Store.slug_stubOf] at hslug
    cases ha : s.assessment? i with
    | none =>
      have hunsent : s.slugOf bare i = "" :=
        Store.slugOf_of_no_entry ha fun e he => absurd he List.not_mem_nil
      exact absurd (hslug.symm.trans hunsent) hfilled
    | some a =>
      obtain ⟨hamem, rfl⟩ := Store.mem_of_assessment?_eq_some ha
      rw [Store.slugOf_of_assessment? ha] at hslug
      rw [Store.needsVerification_stubOf, ha, Option.isSome_some, Bool.true_and] at hneeds
      exact ⟨hfilled, a, hamem, Keyed.mem_firsts.1 hi, hslug, hneeds⟩
  · rintro ⟨hfilled, a, hamem, hid, rfl, hnobody⟩
    have ha : s.assessment? a.id = some a := hk.assessment?_eq_some_iff.2 ⟨hamem, rfl⟩
    have hslug : (s.stubOf bare a.id).slug = a.slug := by
      rw [Store.slug_stubOf, Store.slugOf_of_assessment? ha]
    have hneeds : (s.stubOf bare a.id).needsVerification = false := by
      rw [Store.needsVerification_stubOf, hnobody, Bool.and_false]
    refine List.mem_map.2 ⟨s.stubOf bare a.id, List.mem_filter.2 ⟨?_, ?_⟩, hslug⟩
    · exact List.mem_map_of_mem (Keyed.mem_firsts.2 hid)
    · simp [hslug, hneeds, hfilled]

theorem mem_unverifiable (hk : s.Keyed) (hslugs : s.TidySlugs) (ha : s.assessment? id = some a)
    (ids : List Int) :
    a.slug ∈ Store.unverifiable (s.loadFlags (Registry.ofIds ids)) ↔
      id ∈ ids ∧ s.hasVerifier id = false := by
  obtain ⟨hmem, rfl⟩ := Store.mem_of_assessment?_eq_some ha
  rw [mem_unverifiable_iff hk, and_iff_right (hslugs a hmem).1]
  constructor
  · rintro ⟨b, hb, hid, hslug, hnobody⟩
    obtain rfl := hk.eq_of_slug hb hmem hslug
    exact ⟨hid, hnobody⟩
  · rintro ⟨hid, hnobody⟩
    exact ⟨a, hmem, hid, rfl, hnobody⟩

theorem mem_errors_runVerify_iff (hk : s.Keyed) {x : Dossier} (hx : s.dossier? id = some x) :
    x.assessment.slug ∈ (s.runVerify today request).report.errors ↔
      x.assessment.slug ∈ Store.unverifiable (s.loadFlags (Registry.ofIds request.ids)) ∨
        x.someRow s today (Dossier.rejects s today)
          (Operation.rowsUnder x.assessment.slug (s.verificationRows request today)) = true := by
  have hcodes : ∀ task ∈ Block.tasks
      ((s.loadFlags (Registry.ofIds request.ids)).verificationBlock? today).toList,
        task.code? ≠ none := by
    intro task htask
    rw [tasks_verificationBlock? hk] at htask
    exact code?_ne_none_of_mem (fun _ => code?_verificationTask) htask
  have hrows := Run.mem_errors_importBlocks today hk (.refl s) hx rfl
    fun task htask hcode => absurd hcode (hcodes task htask)
  rw [tasks_verificationBlock? hk, ← Operation.rowsUnder] at hrows
  exact TextSet.mem_union.trans (or_congr_right hrows)

theorem mem_errors_runVerify (hk : s.Keyed) (hslugs : s.TidySlugs) (hdate : today.IsValid)
    {x : Dossier} (hx : s.dossier? id = some x) (hid : id ∈ request.ids) :
    x.assessment.slug ∈ (s.runVerify today request).report.errors ↔
      s.verifiable x.assessment = false := by
  have ha := (Store.dossier?_eq_some_iff.1 hx).1
  rw [mem_errors_runVerify_iff hk hx, mem_unverifiable hk hslugs ha,
    rowsUnder_verificationRows_own hk hslugs ha, Dossier.someRow_ite, and_iff_right hid,
    and_iff_right hid, Dossier.rejects_verificationTask hdate, Store.verifiable,
    Store.id_of_dossier? hx]
  cases s.hasVerifier id <;> simp

/-- A state row is applied or rejected, but never in part. -/
theorem not_mem_warnings_runVerify (hk : s.Keyed) {x : Dossier} (hx : s.dossier? id = some x) :
    x.assessment.slug ∉ (s.runVerify today request).report.warnings := by
  have hrows := Run.mem_warnings_importBlocks today hk (.refl s) hx rfl
    ((s.loadFlags (Registry.ofIds request.ids)).verificationBlock? today).toList
  rw [tasks_verificationBlock? hk, ← Operation.rowsUnder, rowsUnder_verificationRows,
    Dossier.someRow_eq_false] at hrows
  · refine fun h => Bool.false_ne_true (hrows.1 ?_)
    exact (TextSet.mem_union.1 h).resolve_left (TextSet.not_mem_empty _)
  · intro task htask y
    obtain ⟨i, -, rfl⟩ := List.mem_map.1 htask
    exact Dossier.warns_of_order (order?_verificationTask today i)

theorem assessment?_runVerify (hk : s.Keyed) (hslugs : s.TidySlugs) (hdate : today.IsValid)
    (request : BulkRequest) (ha : s.assessment? id = some a) :
    (s.runVerify today request).store.assessment? id =
      some (if request.ids.contains id && s.verifiable a then a.verified today else a) := by
  have hx := Store.dossier?_of_assessment? ha
  have hrun := Operation.verify.dossier?_run today hk hx request
  rw [Operation.rows, rowsUnder_verificationRows_own hk hslugs ha] at hrun
  refine (Store.dossier?_eq_some_iff.1 hrun).1.trans (congrArg some ?_)
  rw [Store.verifiable, (Store.mem_of_assessment?_eq_some ha).2]
  by_cases hrow : id ∈ request.ids ∧ s.hasVerifier id = true
  · rw [if_pos hrow, List.foldl_cons, List.foldl_nil,
      Dossier.after_of_order today (order?_verificationTask today id), Dossier.obey,
      List.foldl_cons, List.foldl_nil, Assessment.obey_verification hdate,
      List.contains_iff_mem.2 hrow.1, hrow.2]
    simp
  · have hnone : (request.ids.contains id && (s.hasVerifier id && a.status == State.inReview.name)) =
        false := by
      rw [Bool.eq_false_iff]
      intro hall
      obtain ⟨hid, hrest⟩ := Bool.and_eq_true_iff.1 hall
      exact hrow ⟨List.contains_iff_mem.1 hid, (Bool.and_eq_true_iff.1 hrest).1⟩
    rw [if_neg hrow, List.foldl_nil, hnone, if_neg Bool.false_ne_true]

theorem store_runVerify (hk : s.Keyed) (hslugs : s.TidySlugs) (hdate : today.IsValid)
    (request : BulkRequest) :
    (s.runVerify today request).store =
      { s with assessments := s.assessments.map fun a =>
          if request.ids.contains a.id && s.verifiable a then a.verified today else a } := by
  have hframe : s.SameFrame (s.runVerify today request).store :=
    Operation.verify.sameFrame_run hk today request
  have hassessments := hframe.assessments_eq_map hk fun a ha =>
    assessment?_runVerify hk hslugs hdate request (hk.assessment?_eq_some_iff.2 ⟨ha, rfl⟩)
  rw [← hassessments]
  exact congrArg (fun t : Store =>
    { t with assessments := (s.runVerify today request).store.assessments })
    (tables_runVerify hk today request)

theorem outcome_runVerify (hk : s.Keyed) (hslugs : s.TidySlugs) (hdate : today.IsValid)
    (request : BulkRequest) (appUrl : String) :
    (s.runVerify today request).store.outcome appUrl (s.runVerify today request).report.errors
        (s.runVerify today request).report.partials request.ids =
      { updateErrors := (s.refused request.ids).map (Assessment.mention appUrl)
        partialErrors := []
        succeeded := (((Keyed.firsts request.ids).filterMap s.assessment?).filter
          s.verifiable).map (Assessment.mention appUrl)
        deleted := (Keyed.firsts request.ids).filter fun id => !s.hasAssessment id } := by
  have hframe : s.SameFrame (s.runVerify today request).store :=
    Operation.verify.sameFrame_run hk today request
  have hlookup {a : Assessment} (ha : a ∈ s.assessments) : s.assessment? a.id = some a :=
    hk.assessment?_eq_some_iff.2 ⟨ha, rfl⟩
  have hsorted : (s.runVerify today request).store.outcome appUrl
      (s.runVerify today request).report.errors (s.runVerify today request).report.partials
        request.ids =
      s.sortedBy appUrl request.ids (fun id => !(s.assessment? id).any s.verifiable)
        fun _ => false := by
    refine hframe.outcome_eq_sortedBy (fun a ha hid => ?_) (fun a ha _ _ => ?_)
    · obtain ⟨x, hx, rfl⟩ := hk.exists_dossier ha
      rw [mem_errors_runVerify hk hslugs hdate hx hid, hlookup ha]
      simp
    · obtain ⟨x, hx, rfl⟩ := hk.exists_dossier ha
      refine iff_of_false (fun h => ?_) Bool.false_ne_true
      exact not_mem_warnings_runVerify hk hx (Report.mem_partials.1 h).1
  have hrefused : (s.assessments.filter fun a => request.ids.contains a.id &&
      !(s.assessment? a.id).any s.verifiable) = s.refused request.ids := by
    refine List.filter_congr fun a ha => ?_
    rw [hlookup ha, Option.any_some]
  have hverified : ((Keyed.firsts request.ids).filter fun id =>
      !!(s.assessment? id).any s.verifiable && !false).filterMap s.assessment? =
        ((Keyed.firsts request.ids).filterMap s.assessment?).filter s.verifiable := by
    rw [List.filterMap_filter, List.filter_filterMap]
    refine List.filterMap_congr fun id _ => ?_
    cases s.assessment? id with
    | none => simp
    | some a => cases h : s.verifiable a <;> simp [h, Option.filter]
  rw [hsorted]
  unfold Store.sortedBy
  dsimp only
  rw [hrefused, hverified]
  simp

end Own

/-- Verification completes exactly the requested assessments that are in review and have somebody
to verify them, on the date of the operation, and changes nothing else. The answer lists these as
succeeded, the other requested ones as failed and the ids without an assessment as deleted. -/
theorem verify_contract {s : Store} {today : Date} {request : BulkRequest} (hk : s.Keyed)
    (hslugs : s.TidySlugs) (hdate : today.IsValid) (hids : request.ids ≠ []) (appUrl : String) :
    Operation.verify.perform s appUrl today request =
      .ok ({ s with assessments := s.assessments.map fun a =>
          if request.ids.contains a.id && s.verifiable a then a.verified today else a },
        { updateErrors := (s.refused request.ids).map (Assessment.mention appUrl)
          partialErrors := []
          succeeded := (((Keyed.firsts request.ids).filterMap s.assessment?).filter
            s.verifiable).map (Assessment.mention appUrl)
          deleted := (Keyed.firsts request.ids).filter fun id => !s.hasAssessment id }) ∧
      (s.InIdOrder → (s.refused request.ids).Pairwise fun a b => a.id < b.id) := by
  have hadmit : Operation.verify.admit request = .ok () := if_neg (by simpa using hids)
  refine ⟨?_, fun hordered => hordered.assessments.filter _⟩
  refine (Operation.perform_of_admitted hadmit s appUrl today).trans (congrArg Except.ok ?_)
  exact Prod.ext (store_runVerify hk hslugs hdate request)
    (outcome_runVerify hk hslugs hdate request appUrl)

/-- Three assessments: one in review with a verifier, one without, and one in progress. -/
def reviewStore : Store :=
  { Store.empty with
    people := [⟨7, "verifier@example.com"⟩]
    assessments :=
      [⟨1, "A-1", "Backups", State.inReview.name, "Control", none, some "2024-05-16"⟩,
        ⟨2, "A-2", "Passwords", State.inReview.name, "Control", none, none⟩,
        ⟨3, "A-3", "Firewalls", State.inProgress.name, "Control", none, none⟩]
    roles := [⟨1, 7, Role.verifier⟩, ⟨3, 7, Role.verifier⟩] }

/-- Of the three only the first is verified, on a day of the year -44. -/
theorem verify_on_ides :
    ∃ t o, Operation.verify.perform reviewStore "" ⟨-44, 3, 15⟩ ⟨[99, 3, 1, 2, 1], []⟩ =
        .ok (t, o) ∧
      t.assessments.map (fun a => (a.status, a.verifiedDate, a.finishedDate)) =
        [(State.completed.name, some "-0044-03-15", some "2024-05-16"),
          (State.inReview.name, none, none), (State.inProgress.name, none, none)] ∧
      (o.updateErrors.map Mention.title, o.partialErrors, o.succeeded.map Mention.title,
        o.deleted) = (["Passwords", "Firewalls"], [], ["Backups"], [99]) ∧
      (reviewStore.refused [99, 3, 1, 2, 1]).Pairwise fun a b => a.id < b.id := by
  have hkeyed : reviewStore.Keyed := ⟨by decide, by decide, by decide⟩
  have hslugs : reviewStore.TidySlugs := by
    unfold Store.TidySlugs
    decide
  have hdate : (⟨-44, 3, 15⟩ : Date).IsValid := by decide
  have hids : (⟨[99, 3, 1, 2, 1], []⟩ : BulkRequest).ids ≠ [] := by decide
  obtain ⟨hperform, hordered⟩ := verify_contract hkeyed hslugs hdate hids ""
  exact ⟨_, _, hperform, by decide +kernel, by decide +kernel, hordered ⟨by decide, by decide⟩⟩

end BulkAssessment
