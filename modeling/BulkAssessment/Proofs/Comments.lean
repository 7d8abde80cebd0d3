import BulkAssessment.Proofs.Dates
import BulkAssessment.Proofs.Reports

/-!
# Comments

A comment comes with a value. Its row has no code but the definition of the value, and the
comment goes to the assessment that owns the definition, whichever assessment the value is
submitted for (`Store.recorded?`). A row that is rejected is reported under the definition
(`CommentRecord.key`), which no list of assessments shows.

An import adds the comments of the accepted rows behind those that are there, in the order of the
rows (`Run.comments_foldl`), and reports all others (`Run.mem_errors_foldl_task`). Rows of
assessments add none.
-/

namespace BulkAssessment

/-- A comment without the id of its row. -/
def Comment.unnumbered (c : Comment) : Comment := { c with id := 0 }

/-- The comment that comes with a value. -/
def Submission.record? (v : Submission) : Option CommentRecord :=
  v.comment?.map fun description => ⟨description, v.definitionId⟩

/-- The comments that are submitted for an assessment. -/
def BulkRequest.commentsOf (request : BulkRequest) (id : Int) : List CommentRecord :=
  (request.submissionsOf id).filterMap Submission.record?

namespace CommentRecord

/-- What the row of a comment is reported under. -/
def key (c : CommentRecord) : String := "cad:" ++ Text.intText c.definitionId

/-- The row of a comment. -/
def task (c : CommentRecord) : Task := ⟨.comment ⟨1, 2⟩, Assembly.commentRow c⟩

end CommentRecord

/-- What is stored of a comment: nothing if it is blank, or if its definition belongs to no
assessment that exists. -/
def Store.recorded? (s : Store) (c : CommentRecord) : Option Comment :=
  if Text.InRange64 c.definitionId ∧ Text.trim c.description ≠ "" then do
    let d ← s.localDefinition? c.definitionId
    let owner ← d.ownerId
    if s.hasAssessment owner then some ⟨0, owner, some d.id, Text.trim c.description⟩ else none
  else none

/-! ## Submitted comments -/

section Submitted

variable {s : Store} {request : BulkRequest} {people : PeopleIndex}

theorem BulkRequest.comments_collect (id : Int) :
    (request.collect people id).comments = request.commentsOf id := by
  rw [commentsOf, List.filterMap_eq_flatMap_toList]
  exact appended_collect (fun _ _ => rfl) (fun _ _ => rfl) rfl

theorem Store.comments_stubOf (id : Int) :
    (s.stubOf request id).comments = request.commentsOf id := by
  unfold stubOf
  cases s.assessment? id <;> exact BulkRequest.comments_collect id

theorem tasks_commentsBlock? (hk : s.Keyed) (request : BulkRequest) :
    Block.tasks (s.assembleFlagged request).commentsBlock?.toList =
      (request.named.flatMap request.commentsOf).map CommentRecord.task := by
  unfold Assembly.commentsBlock?
  rw [tasks_ofRows? layoutOf?_comments, Store.toList_assembleFlagged hk, List.flatMap_map,
    List.map_map]
  simp only [Store.comments_stubOf]
  rfl

end Submitted

/-! ## Rows of comments -/

section Rows

variable {s t : Store} {c : CommentRecord}

theorem Text.trim_intText (n : Int) : trim (intText n) = intText n := by
  refine trim_eq_self fun c hc => ?_
  cases n with
  | ofNat n =>
    exact isBlank_of_isDigit (isDigit_of_mem_toDigits (by simpa [intText, natText] using hc))
  | negSucc n =>
    rw [intText, String.toList_append, List.mem_append] at hc
    rcases hc with hsign | hdigit
    · obtain rfl : c = '-' := by simpa using hsign
      decide
    · exact isBlank_of_isDigit (isDigit_of_mem_toDigits (by simpa [natText] using hdigit))

theorem CommentRecord.cell_definition (c : CommentRecord) :
    cell (Assembly.commentRow c) 2 = Text.intText c.definitionId :=
  Text.trim_intText c.definitionId

theorem CommentRecord.key_task (c : CommentRecord) : c.task.layout.key c.task.row = c.key :=
  congrArg ("cad:" ++ ·) c.cell_definition

theorem Store.comment_eq_ok {owner : Int} {d : Definition} (howner : s.hasAssessment owner = true)
    (hd : d ∈ s.definitions) (description : String) :
    s.comment owner (some d.id) description =
      .ok ({ s with comments := s.comments ++
        [⟨freshId (s.comments.map Comment.id), owner, some d.id, description⟩] },
          freshId (s.comments.map Comment.id)) := by
  have hdefinition : s.hasDefinition d.id = true := List.any_eq_true.2 ⟨d, hd, beq_self_eq_true _⟩
  simp [comment, insertComment, present, require, howner, hdefinition, bind, Except.bind, pure,
    Except.pure]

theorem Store.comment_eq_error {owner : Int} (howner : s.hasAssessment owner = false)
    (definitionId : Option Int) (description : String) :
    s.comment owner definitionId description = .error .foreignKey := by
  simp [comment, insertComment, present, require, howner, bind, Except.bind]

/-- The row of a comment stores what is to be stored, or is rejected. -/
theorem Store.applyComment_commentRow (c : CommentRecord) :
    match s.recorded? c with
    | some x => s.applyComment ⟨1, 2⟩ (Assembly.commentRow c) =
        .ok { s with comments := s.comments ++
          [{ x with id := freshId (s.comments.map Comment.id) }] }
    | none => ∃ e, s.applyComment ⟨1, 2⟩ (Assembly.commentRow c) = .error e := by
  have hdescription : cell (Assembly.commentRow c) 1 = Text.trim c.description := rfl
  unfold applyComment recorded?
  dsimp only
  rw [c.cell_definition, hdescription, Text.readId?, Text.signed?_intText, Option.filter_some]
  by_cases hrange : Text.InRange64 c.definitionId
  · by_cases hblank : Text.trim c.description = ""
    · simp [hrange, hblank]
    · cases hd : s.localDefinition? c.definitionId with
      | none => simp [hrange, hblank, hd]
      | some d =>
        have hmem : d ∈ s.definitions := List.mem_of_find?_eq_some hd
        cases ho : d.ownerId with
        | none => simp [hrange, hblank, hd, ho]
        | some owner =>
          cases howner : s.hasAssessment owner with
          | true => simp [hrange, hblank, hd, ho, howner, comment_eq_ok howner hmem, asRejection,
              Except.map]
          | false => simp [hrange, hblank, hd, ho, howner, comment_eq_error howner, asRejection,
              Except.map]
  · simp [hrange]

theorem Store.of_recorded? {x : Comment} (h : s.recorded? c = some x) :
    x.definitionId = some c.definitionId ∧ x.description = Text.trim c.description ∧
      x.unnumbered = x := by
  simp only [recorded?, Option.ite_none_right_eq_some, bind, Option.bind_eq_some_iff,
    Option.some.injEq] at h
  obtain ⟨-, d, hd, owner, -, -, rfl⟩ := h
  have hid : d.id = c.definitionId := by
    have hfound := List.find?_some hd
    simp only [Bool.and_eq_true, beq_iff_eq] at hfound
    exact hfound.1
  exact ⟨congrArg some hid, rfl, rfl⟩

theorem Store.Keyed.recorded?_own (hk : s.Keyed) {a : Assessment} (ha : a ∈ s.assessments)
    {d : Definition} (hd : d ∈ s.definitionsOf a.id) (hid : d.id = c.definitionId)
    (hrange : Text.InRange64 d.id) (hfilled : Text.trim c.description ≠ "") :
    s.recorded? c = some ⟨0, a.id, some d.id, Text.trim c.description⟩ := by
  obtain ⟨hmem, hlocal⟩ := List.mem_filter.1 hd
  simp only [Definition.isLocalTo, Bool.and_eq_true, beq_iff_eq] at hlocal
  have hfound : s.localDefinition? c.definitionId = some d := by
    have hlookup := (find?_key_eq_some_iff hk.definitionIds).2 ⟨hmem, hid⟩
    obtain ⟨-, before, after, hsplit, hearlier⟩ := List.find?_eq_some_iff_append.1 hlookup
    refine List.find?_eq_some_iff_append.2 ⟨by simp [hid, hlocal.1], before, after, hsplit, ?_⟩
    intro e he
    simp [by simpa using hearlier e he]
  have howner : s.hasAssessment a.id = true := List.any_eq_true.2 ⟨a, ha, beq_self_eq_true _⟩
  rw [recorded?, if_pos ⟨hid ▸ hrange, hfilled⟩, hfound]
  simp [hlocal.2, howner]

theorem Store.SameFrame.recorded? (h : s.SameFrame t) (c : CommentRecord) :
    t.recorded? c = s.recorded? c := by
  simp only [Store.recorded?, localDefinition?, h.definitions, h.hasAssessment]

end Rows

/-! ## Runs -/

namespace Run

variable {s : Store} {r : Run} {today : Date} {c : CommentRecord}

theorem comments_foldl_of_code {tasks : List Task} (hk : r.store.Keyed)
    (hcodes : ∀ task ∈ tasks, task.code? ≠ none) :
    (tasks.foldl (Run.apply today) r).store.comments = r.store.comments := by
  induction tasks generalizing r with
  | nil => rfl
  | cons task tasks ih =>
    have hkt := (sameFrame_apply today hk task).keyed hk
    rw [List.foldl_cons, ih hkt fun u hu => hcodes u (List.mem_cons_of_mem _ hu), store_apply]
    cases h : r.store.applyRow today task.row task.layout with
    | error e => rfl
    | ok p =>
      obtain ⟨_, _, _, _, _, _, hamends⟩ | ⟨hcode, _⟩ := Store.applyRow_cases hk h
      · exact hamends.comments
      · exact absurd hcode (hcodes task List.mem_cons_self)

theorem apply_task (r : Run) (today : Date) (c : CommentRecord) :
    r.apply today c.task =
      match r.store.recorded? c with
      | some x => ⟨{ r.store with comments := r.store.comments ++
          [{ x with id := freshId (r.store.comments.map Comment.id) }] }, r.report⟩
      | none => ⟨r.store, { r.report with errors := r.report.errors.insert c.key }⟩ := by
  have hrow := r.store.applyComment_commentRow c
  have happly : r.store.applyRow today c.task.row c.task.layout =
      (r.store.applyComment ⟨1, 2⟩ (Assembly.commentRow c)).map fun s => (s, false) := rfl
  rw [apply, step, happly, c.key_task]
  cases hx : r.store.recorded? c with
  | some x =>
    simp only [hx] at hrow
    rw [hrow]
    rfl
  | none =>
    simp only [hx] at hrow
    obtain ⟨e, he⟩ := hrow
    rw [he]
    rfl

/-- The rows of comments add what is to be stored of them, in their order. -/
theorem comments_foldl (today : Date) (hk : r.store.Keyed) (hf : s.SameFrame r.store)
    (cs : List CommentRecord) :
    ∃ added, ((cs.map CommentRecord.task).foldl (Run.apply today) r).store.comments =
        r.store.comments ++ added ∧
      added.map Comment.unnumbered = cs.filterMap s.recorded? := by
  induction cs generalizing r with
  | nil => exact ⟨[], by simp⟩
  | cons c cs ih =>
    have hstep := sameFrame_apply today hk c.task
    obtain ⟨added, hadded, hrecorded⟩ := ih (hstep.keyed hk) (hf.trans hstep)
    have hrow := r.apply_task today c
    rw [hf.recorded?] at hrow
    rw [List.map_cons, List.foldl_cons, hadded, hrow]
    cases hx : s.recorded? c with
    | none => exact ⟨added, rfl, by rw [List.filterMap_cons_none hx, hrecorded]⟩
    | some x =>
      have hunnumbered := (Store.of_recorded? hx).2.2
      refine ⟨{ x with id := freshId (r.store.comments.map Comment.id) } :: added, ?_, ?_⟩
      · exact List.append_assoc _ _ _
      · rw [List.map_cons, List.filterMap_cons_some hx, hrecorded]
        exact congrArg (· :: _) hunnumbered

theorem mem_errors_foldl_task {key : String} (hk : r.store.Keyed) (hf : s.SameFrame r.store)
    (cs : List CommentRecord) :
    key ∈ ((cs.map CommentRecord.task).foldl (Run.apply today) r).report.errors ↔
      key ∈ r.report.errors ∨ ∃ c ∈ cs, c.key = key ∧ s.recorded? c = none := by
  induction cs generalizing r with
  | nil => simp
  | cons c cs ih =>
    have hstep := sameFrame_apply today hk c.task
    have hrow : key ∈ (r.apply today c.task).report.errors ↔
        key ∈ r.report.errors ∨ c.key = key ∧ s.recorded? c = none := by
      rw [apply_task, hf.recorded?]
      cases s.recorded? c with
      | some x => simp
      | none =>
        dsimp only
        rw [TextSet.mem_insert, or_comm, and_iff_left rfl, eq_comm]
    rw [List.map_cons, List.foldl_cons, ih (hstep.keyed hk) (hf.trans hstep), hrow, or_assoc,
      List.exists_mem_cons_iff]

end Run

/-! ## Saving -/

section Saving

variable {s t : Store} {today : Date} {request : BulkRequest} {appUrl : String} {o : Outcome}

theorem BulkRequest.named_of_mem_commentsOf {id : Int} {c : CommentRecord}
    (h : c ∈ request.commentsOf id) : id ∈ request.named := by
  obtain ⟨v, hv, -⟩ := List.mem_filterMap.1 h
  obtain ⟨e, he, -⟩ := List.mem_flatMap.1 hv
  obtain ⟨hmem, hid⟩ := mem_entriesOf.1 he
  exact mem_named.2 (Or.inr ⟨e, hmem, hid⟩)

/-- Saving imports the rows of the comments behind those that store values. -/
theorem runSave_eq (hk : s.Keyed) (today : Date) (request : BulkRequest) :
    s.runSave today request =
      ((request.named.flatMap request.commentsOf).map CommentRecord.task).foldl (Run.apply today)
        (((s.savingRows request).map Prod.snd).foldl (Run.apply today) (Run.start s)) := by
  rw [Store.runSave, Store.importBlocks_eq, tasks_updateBlocks, List.foldl_append,
    tasks_attributesBlock? hk, tasks_commentsBlock? hk]

/-- Saving reports the comments of which nothing is to be stored, and no row of values as long as
no title is `State`. -/
theorem mem_errors_runSave_iff (today : Date) (hk : s.Keyed) {id : Int} {x : Dossier}
    (hx : s.dossier? id = some x) (hstate : Column.state ∉ request.titles) :
    x.assessment.slug ∈ (s.runSave today request).report.errors ↔
      ∃ i, ∃ c ∈ request.commentsOf i, c.key = x.assessment.slug ∧ s.recorded? c = none := by
  let saved := ((s.savingRows request).map Prod.snd).foldl (Run.apply today) (Run.start s)
  have hframe : s.SameFrame saved.store := Run.sameFrame_foldl (r := Run.start s) hk _
  have hcodes : ∀ task ∈ (s.savingRows request).map Prod.snd, task.code? = none →
      task.layout.key task.row ≠ x.assessment.slug := fun task htask hcode =>
    absurd hcode (code?_ne_none_of_mem (fun _ => code?_savingTask) htask)
  have hsaved : x.assessment.slug ∉ saved.report.errors := by
    rw [Run.mem_errors_foldl (r := Run.start s) hk (.refl s) hx hcodes, ← Operation.rowsUnder,
      rowsUnder_savingRows, Dossier.someRow_eq_false]
    · exact not_or.2 ⟨TextSet.not_mem_empty _, Bool.false_ne_true⟩
    · intro task htask y
      obtain ⟨i, -, rfl⟩ := List.mem_map.1 htask
      rw [savingTask_of_not_state hstate]
      exact Dossier.rejects_attributes _ _
  rw [runSave_eq hk, Run.mem_errors_foldl_task (hframe.keyed hk) hframe, or_iff_right hsaved]
  constructor
  · rintro ⟨c, hc, hreported⟩
    obtain ⟨i, -, hci⟩ := List.mem_flatMap.1 hc
    exact ⟨i, c, hci, hreported⟩
  · rintro ⟨i, c, hci, hreported⟩
    exact ⟨c, List.mem_flatMap.2 ⟨i, BulkRequest.named_of_mem_commentsOf hci, hci⟩, hreported⟩

/-- Saving adds, of the comments that are submitted, those that are not blank and have a
definition that belongs to an assessment. Each goes to the assessment that owns the definition,
so one about a definition of the assessment that it is submitted for goes to that assessment. All
others are reported under their definition. -/
theorem comments_after_save (hk : s.Keyed)
    (h : Operation.save.perform s appUrl today request = .ok (t, o)) :
    ∃ added, t.comments = s.comments ++ added ∧
      added.map Comment.unnumbered =
        (request.named.flatMap request.commentsOf).filterMap s.recorded? ∧
      ∀ a ∈ s.assessments, ∀ c ∈ request.commentsOf a.id,
        ((∃ x ∈ added, s.recorded? c = some x.unnumbered) ∨
          s.recorded? c = none ∧ c.key ∈ (s.runSave today request).report.errors) ∧
        (∀ d ∈ s.definitionsOf a.id, d.id = c.definitionId → Text.InRange64 d.id →
          Text.trim c.description ≠ "" →
          ∃ x ∈ added, x.unnumbered = ⟨0, a.id, some d.id, Text.trim c.description⟩) := by
  let saved := ((s.savingRows request).map Prod.snd).foldl (Run.apply today) (Run.start s)
  have hframe : s.SameFrame saved.store := Run.sameFrame_foldl (r := Run.start s) hk _
  have hkeyed : saved.store.Keyed := hframe.keyed hk
  have hkept : saved.store.comments = s.comments := by
    refine Run.comments_foldl_of_code (r := Run.start s) hk fun task htask => ?_
    exact code?_ne_none_of_mem (fun _ => code?_savingTask) htask
  have hrun : s.runSave today request =
      ((request.named.flatMap request.commentsOf).map CommentRecord.task).foldl (Run.apply today)
        saved := runSave_eq hk today request
  have ht : t = (s.runSave today request).store := Operation.store_of_perform h
  obtain ⟨added, hadded, hrecorded⟩ := Run.comments_foldl today hkeyed hframe
    (request.named.flatMap request.commentsOf)
  rw [← hrun, ← ht, hkept] at hadded
  -- whatever is to be stored of a comment has been added
  have hstored {id : Int} {c : CommentRecord} (hc : c ∈ request.commentsOf id) {x : Comment}
      (hx : s.recorded? c = some x) : ∃ y ∈ added, y.unnumbered = x := by
    have hmem := List.mem_flatMap.2 ⟨id, BulkRequest.named_of_mem_commentsOf hc, hc⟩
    exact List.mem_map.1 (hrecorded ▸ List.mem_filterMap.2 ⟨c, hmem, hx⟩)
  refine ⟨added, hadded, hrecorded, fun a ha c hc => ⟨?_, fun d hd hid hrange hfilled => ?_⟩⟩
  · cases hx : s.recorded? c with
    | some x =>
      obtain ⟨y, hy, rfl⟩ := hstored hc hx
      exact Or.inl ⟨y, hy, rfl⟩
    | none =>
      have hmem := List.mem_flatMap.2 ⟨a.id, BulkRequest.named_of_mem_commentsOf hc, hc⟩
      refine Or.inr ⟨rfl, ?_⟩
      rw [hrun]
      exact (Run.mem_errors_foldl_task hkeyed hframe _).2 (Or.inr ⟨c, hmem, rfl, hx⟩)
  · exact hstored hc (hk.recorded?_own ha hd hid hrange hfilled)

end Saving

/-- Two assessments with an attribute each, and a comment on the first. -/
def commentedStore : Store :=
  { Store.empty with
    assessments :=
      [⟨1, "A-1", "Backups", State.inProgress.name, "Control", none, none⟩,
        ⟨2, "A-2", "Passwords", State.inProgress.name, "Control", none, none⟩]
    definitions :=
      [⟨5, Definition.localType, some 1, "Note", "Text", false, none, none, none⟩,
        ⟨6, Definition.localType, some 2, "Note", "Text", false, none, none, none⟩]
    comments := [⟨3, 1, none, "old"⟩] }

/-- A note with a comment, for the definition with an id. -/
def commentedNote (definitionId : Int) (comment : String) : Submission :=
  ⟨.string "done", "Note", "Text", some 1, definitionId, some ⟨some (some comment), [], []⟩⟩

/-- Comments for the first assessment: on its own definition, on that of the second, on one that
there is not, and a blank one. -/
def commentedRequest : BulkRequest :=
  ⟨[], [⟨1, "A-1", [commentedNote 5 " mine ", commentedNote 6 "yours", commentedNote 999 "lost",
    commentedNote 5 " "]⟩]⟩

/-- The first two comments are stored on the owners of their definitions. -/
theorem comments_on_owners :
    ∃ t o, Operation.save.perform commentedStore "" ⟨2024, 5, 17⟩ commentedRequest = .ok (t, o) ∧
      ∃ added, t.comments = ⟨3, 1, none, "old"⟩ :: added ∧
        added.map Comment.unnumbered = [⟨0, 1, some 5, "mine"⟩, ⟨0, 2, some 6, "yours"⟩] ∧
        "cad:999" ∈ (commentedStore.runSave ⟨2024, 5, 17⟩ commentedRequest).report.errors := by
  have hkeyed : commentedStore.Keyed := ⟨by decide, by decide, by decide⟩
  obtain ⟨t, o, h⟩ : ∃ t o,
      Operation.save.perform commentedStore "" ⟨2024, 5, 17⟩ commentedRequest = .ok (t, o) :=
    ⟨_, _, rfl⟩
  obtain ⟨added, hadded, hrecorded, hall⟩ := comments_after_save hkeyed h
  refine ⟨t, o, h, added, hadded, hrecorded.trans (by decide +kernel), ?_⟩
  obtain ⟨⟨x, -, hx⟩ | ⟨-, hreported⟩, -⟩ := hall
    ⟨1, "A-1", "Backups", State.inProgress.name, "Control", none, none⟩ (by decide)
    ⟨"lost", 999⟩ (by decide)
  · have hnone : commentedStore.recorded? ⟨"lost", 999⟩ = none := by decide +kernel
    rw [hnone] at hx
    cases hx
  · exact hreported

/-- Not every comment is stored on the assessment that it is submitted for, or reported with it. -/
theorem not_all_comments_own :
    ¬ ∀ (s t : Store) (appUrl : String) (today : Date) (request : BulkRequest) (o : Outcome),
        s.Keyed → Operation.save.perform s appUrl today request = .ok (t, o) →
        ∀ a ∈ s.assessments, ∀ v ∈ request.submissionsOf a.id, ∀ description,
          v.comment? = some description →
          (∃ added, t.comments = s.comments ++ added ∧
            ∃ x ∈ added, x.assessmentId = a.id ∧ x.description = Text.trim description) ∨
          a.mention appUrl ∈ o.updateErrors ∨ a.mention appUrl ∈ o.partialErrors := by
  intro hall
  have hkeyed : commentedStore.Keyed := ⟨by decide, by decide, by decide⟩
  rcases hall commentedStore _ "" ⟨2024, 5, 17⟩ commentedRequest _ hkeyed rfl
    ⟨1, "A-1", "Backups", State.inProgress.name, "Control", none, none⟩ (by decide)
    (commentedNote 6 "yours") (List.mem_cons_of_mem _ List.mem_cons_self) "yours" rfl with
    ⟨added, hadded, x, hx, howner, hdescription⟩ | hreported
  · have hmem := hadded ▸ List.mem_append_right _ hx
    have hnone : ∀ x ∈ (commentedStore.runSave ⟨2024, 5, 17⟩ commentedRequest).store.comments,
        ¬ (x.assessmentId = 1 ∧ x.description = Text.trim "yours") := by decide +kernel
    exact hnone x hmem ⟨howner, hdescription⟩
  · exact absurd hreported (by decide +kernel)

end BulkAssessment
