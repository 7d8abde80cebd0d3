import BulkAssessment.Proofs.Stores
import Mathlib.Data.List.Chain

/-!
# Histories

A history is any sequence of bulk operations and imports, whatever is requested and whichever rows
are rejected. Its trace lists the stores between any two of its rows (`Store.trace`).

Of what is recorded nothing is taken back. An earlier store of a trace *precedes* a later one
(`Store.Precedes`): evidence and comments are only added, at the end; who and what there is stays
the same; and a date that was set is never unset. What a single row can do to the date of an
assessment is `Assessment.Becomes`: it sets the finished date only with completion, and the verified
date only in review.
-/

namespace BulkAssessment

/-- A step of a history. -/
inductive Action where
  | perform (op : Operation) (appUrl : String) (today : Date) (request : BulkRequest)
  | importBlocks (today : Date) (blocks : List Block)

/-- The rows that an operation imports. -/
def Operation.tasks (op : Operation) (s : Store) (today : Date) (request : BulkRequest) :
    List Task :=
  match op with
  | save => Block.tasks (s.assembleFlagged request).updateBlocks
  | complete =>
    Block.tasks (s.assembleFlagged request).updateBlocks ++
      Block.tasks ((s.assembleFlagged request).registry.completionBlock? request.ids
        (s.runSave today request).report.errors).toList
  | verify =>
    Block.tasks ((s.loadFlags (Registry.ofIds request.ids)).verificationBlock? today).toList

namespace Action

/-- The date of a step. -/
def today : Action → Date
  | perform _ _ today _ => today
  | importBlocks today _ => today

/-- The rows of a step. A request that does not suit its operation has none. -/
def tasks (s : Store) : Action → List Task
  | perform op _ today request =>
    match op.admit request with
    | .ok _ => op.tasks s today request
    | .error _ => []
  | importBlocks _ blocks => Block.tasks blocks

end Action

namespace Store

/-- The store after a step. A request that is not taken changes nothing. -/
def act (s : Store) : Action → Store
  | .perform op appUrl today request =>
    match op.perform s appUrl today request with
    | .ok (t, _) => t
    | .error _ => s
  | .importBlocks today blocks => (s.importBlocks today blocks).store

/-- The stores of a history, before and after each of its rows. -/
def trace : Store → List Action → List Store
  | s, [] => [s]
  | s, action :: actions =>
    (action.tasks s).scanl (afterRow action.today) s ++ (s.act action).trace actions

end Store

/-- The status is, letter for letter, the name of a state. -/
def Assessment.Canonical (a : Assessment) : Prop :=
  ∃ state : State, a.status = state.name

/-- What a single row can make of an assessment. -/
structure Assessment.Becomes (a b : Assessment) : Prop where
  status : b.status = a.status ∨ b.Canonical
  finishedDate : b.finishedDate = a.finishedDate ∨
    b.finishedDate.isSome = true ∧ b.status = State.completed.name
  verifiedDate : b.verifiedDate = a.verifiedDate ∨
    b.verifiedDate.isSome = true ∧ a.status = State.inReview.name

namespace Store

/-- What the rows of a history keep, any number of them. -/
structure Precedes (s t : Store) : Prop where
  frame : s.SameFrame t
  evidence : s.evidence <+: t.evidence
  comments : s.comments <+: t.comments
  finishedDates : ∀ a ∈ s.assessments, ∀ b ∈ t.assessments, b.id = a.id →
    a.finishedDate ≠ none → b.finishedDate ≠ none
  verifiedDates : ∀ a ∈ s.assessments, ∀ b ∈ t.assessments, b.id = a.id →
    a.verifiedDate ≠ none → b.verifiedDate ≠ none
  canonical : (∀ a ∈ s.assessments, a.Canonical) → ∀ b ∈ t.assessments, b.Canonical

/-- What a single row does to the dates: it changes a finished date only if it leaves the status
`Completed`, and a verified date only if it finds the status `In Review`. -/
structure RowDates (s t : Store) : Prop where
  finishedDate : ∀ a ∈ s.assessments, ∀ b ∈ t.assessments, b.id = a.id →
    b.finishedDate ≠ a.finishedDate → b.status = State.completed.name
  verifiedDate : ∀ a ∈ s.assessments, ∀ b ∈ t.assessments, b.id = a.id →
    b.verifiedDate ≠ a.verifiedDate → a.status = State.inReview.name

end Store

/-! ## What a row makes of an assessment -/

section Rows

variable {s t : Store} {today : Date}

theorem Assessment.Becomes.refl (a : Assessment) : a.Becomes a :=
  ⟨.inl rfl, .inl rfl, .inl rfl⟩

/-- A transition that is not refused leads to a state. It brings a finished date if this is
completion, and a verified date if it started in review. -/
theorem Assessment.becomes_after {a : Assessment} {o : Order} {filled : Bool} {u : Transition}
    (hu : o.transition filled today a.status = .ok u) : a.Becomes (a.after u) := by
  unfold Order.transition at hu
  cases hstate : State.ofName? o.state with
  | none =>
    rw [hstate] at hu
    cases hu
  | some target =>
    simp only [hstate] at hu
    split at hu
    · -- a move without verification
      split at hu
      · cases hu
      · obtain rfl := Except.ok.inj hu
        refine ⟨.inr ⟨target, rfl⟩, ?_, .inl rfl⟩
        by_cases hcompleted : target = .completed
        · exact .inr ⟨by simp [after, hcompleted], by simp [after, hcompleted]⟩
        · exact .inl (by simp [after, hcompleted])
    · split at hu
      · cases hu
      · rename_i hreview
        cases hdate : Date.ofCell? o.date with
        | none =>
          rw [hdate] at hu
          cases hu
        | some d =>
          rw [hdate] at hu
          obtain rfl := Except.ok.inj hu
          exact ⟨.inr ⟨target, rfl⟩, .inl rfl, .inr ⟨rfl, not_not.1 hreview⟩⟩

theorem Assessment.KeptOrReopened.becomes {a b : Assessment} (h : a.KeptOrReopened b) :
    a.Becomes b := by
  rcases h with rfl | ⟨-, rfl⟩
  · exact .refl _
  · exact ⟨.inr ⟨.inProgress, rfl⟩, .inl rfl, .inl rfl⟩

theorem Dossier.becomes_after (x : Dossier) (task : Task) :
    x.assessment.Becomes (x.after s today task).assessment := by
  obtain ⟨layout, row⟩ := task
  cases layout with
  | attributes l => exact (x.keptOrReopened_after_attributes l row).becomes
  | state l =>
    unfold after
    rw [apply_of_order today (o := ⟨cell row l.state, cellOf row l.verifiedDate⟩) rfl]
    cases hu : Order.transition (x.isFilled s) today x.assessment.status
        ⟨cell row l.state, cellOf row l.verifiedDate⟩ with
    | error e => exact .refl _
    | ok u => exact Assessment.becomes_after hu
  | comment l => exact .refl _

namespace Store

theorem sameFrame_afterRow (hk : s.Keyed) (today : Date) (task : Task) :
    s.SameFrame (s.afterRow today task) :=
  sameFrame_foldl hk today [task]

theorem becomes_afterRow (hk : s.Keyed) (today : Date) (task : Task) {a b : Assessment}
    (ha : a ∈ s.assessments) (hb : b ∈ (s.afterRow today task).assessments) (hid : b.id = a.id) :
    a.Becomes b := by
  obtain ⟨x, hx, rfl⟩ := hk.exists_dossier ha
  have hrow := Run.dossier?_apply (r := Run.start s) today hk hx task
  rw [Run.store_apply] at hrow
  have hfound := ((sameFrame_afterRow hk today task).keyed hk).assessment?_eq_some_iff.2 ⟨hb, hid⟩
  -- the row that is looked up is that of the dossier
  obtain rfl : _ = b := Option.some.inj ((dossier?_eq_some_iff.1 hrow).1.symm.trans hfound)
  split
  · exact x.becomes_after task
  · exact .refl _

/-! ## Evidence -/

theorem Edits.evidence_prefix (h : s.Edits t) : s.evidence <+: t.evidence := by
  cases h with
  | evidence e => exact List.prefix_append _ _
  | _ => exact List.prefix_rfl

/-- Rows add evidence at the end. -/
theorem evidence_afterRow (s : Store) (today : Date) (task : Task) :
    s.evidence <+: (s.afterRow today task).evidence := by
  have hedits := s.edits_afterRow today task
  generalize s.afterRow today task = t at hedits ⊢
  induction hedits with
  | refl => exact List.prefix_rfl
  | tail _ hedit ih => exact ih.trans hedit.evidence_prefix

/-- Rows add comments at the end. -/
theorem comments_afterRow (hk : s.Keyed) (today : Date) (task : Task) :
    s.comments <+: (s.afterRow today task).comments := by
  unfold afterRow
  cases h : s.applyRow today task.row task.layout with
  | error e => exact List.prefix_rfl
  | ok p =>
    show s.comments <+: p.1.comments
    obtain ⟨_, _, _, _, _, _, hamends⟩ | ⟨-, c, hc⟩ := applyRow_cases hk h
    · rw [hamends.comments]
    · rw [hc]
      exact List.prefix_append _ _

/-! ## What rows keep -/

theorem Precedes.refl (hk : s.Keyed) : s.Precedes s := by
  have hsame {a b : Assessment} (ha : a ∈ s.assessments) (hb : b ∈ s.assessments)
      (hid : b.id = a.id) : b = a := hk.eq_of_id hb ha hid
  refine ⟨.refl s, List.prefix_rfl, List.prefix_rfl, ?_, ?_, id⟩
  · rintro a ha b hb hid
    exact hsame ha hb hid ▸ id
  · rintro a ha b hb hid
    exact hsame ha hb hid ▸ id

theorem Precedes.trans {u : Store} (h : s.Precedes t) (k : t.Precedes u) : s.Precedes u := by
  refine ⟨h.frame.trans k.frame, h.evidence.trans k.evidence, h.comments.trans k.comments, ?_, ?_,
    fun hs => k.canonical (h.canonical hs)⟩
  · intro a ha c hc hid hset
    obtain ⟨b, hb, hcb, -⟩ := k.frame.exists_before hc
    exact k.finishedDates b hb c hc hcb (h.finishedDates a ha b hb (hcb.symm.trans hid) hset)
  · intro a ha c hc hid hset
    obtain ⟨b, hb, hcb, -⟩ := k.frame.exists_before hc
    exact k.verifiedDates b hb c hc hcb (h.verifiedDates a ha b hb (hcb.symm.trans hid) hset)

instance : Trans Precedes Precedes Precedes := ⟨Precedes.trans⟩

theorem precedes_afterRow (hk : s.Keyed) (today : Date) (task : Task) :
    s.Precedes (s.afterRow today task) := by
  have hframe := sameFrame_afterRow hk today task
  refine ⟨hframe, s.evidence_afterRow today task, comments_afterRow hk today task, ?_, ?_, ?_⟩
  · intro a ha b hb hid hset hnone
    rcases (becomes_afterRow hk today task ha hb hid).finishedDate with hkept | ⟨hsome, -⟩
    · exact hset (hkept.symm.trans hnone)
    · rw [hnone] at hsome
      cases hsome
  · intro a ha b hb hid hset hnone
    rcases (becomes_afterRow hk today task ha hb hid).verifiedDate with hkept | ⟨hsome, -⟩
    · exact hset (hkept.symm.trans hnone)
    · rw [hnone] at hsome
      cases hsome
  · intro hs b hb
    obtain ⟨a, ha, hid, -⟩ := hframe.exists_before hb
    rcases (becomes_afterRow hk today task ha hb hid).status with hkept | hcanonical
    · obtain ⟨state, hstate⟩ := hs a ha
      exact ⟨state, hkept.trans hstate⟩
    · exact hcanonical

theorem rowDates_afterRow (hk : s.Keyed) (today : Date) (task : Task) :
    s.RowDates (s.afterRow today task) where
  finishedDate _ ha _ hb hid hne :=
    ((becomes_afterRow hk today task ha hb hid).finishedDate.resolve_left hne).2
  verifiedDate _ ha _ hb hid hne :=
    ((becomes_afterRow hk today task ha hb hid).verifiedDate.resolve_left hne).2

theorem RowDates.refl (hk : s.Keyed) : s.RowDates s where
  finishedDate _ ha _ hb hid hne :=
    absurd (congrArg _ (hk.eq_of_id hb ha hid)) hne
  verifiedDate _ ha _ hb hid hne :=
    absurd (congrArg _ (hk.eq_of_id hb ha hid)) hne

end Store

end Rows

/-! ## Histories -/

namespace Store

variable {s : Store}

/-- An operation does what its rows do, one after the other. -/
theorem store_run (s : Store) (op : Operation) (today : Date) (request : BulkRequest) :
    (op.run s today request).store = (op.tasks s today request).foldl (afterRow today) s := by
  cases op with
  | save => exact s.store_importBlocks today _
  | verify => exact s.store_importBlocks today _
  | complete =>
    rw [Operation.tasks, List.foldl_append, ← store_importBlocks, ← store_importBlocks]
    rfl

/-- A step does what its rows do, one after the other. -/
theorem act_eq (s : Store) (action : Action) :
    s.act action = (action.tasks s).foldl (afterRow action.today) s := by
  cases action with
  | importBlocks today blocks => exact s.store_importBlocks today blocks
  | perform op appUrl today request =>
    cases hallowed : op.admit request with
    | error e =>
      have hperform : op.perform s appUrl today request = .error e := by
        unfold Operation.perform
        rw [hallowed]
        rfl
      simp only [act, Action.tasks, hallowed, hperform, List.foldl_nil]
    | ok u =>
      simp only [act, Action.tasks, hallowed, Operation.perform_of_admitted hallowed]
      exact s.store_run op today request

/-- What each row keeps, and may do, along the rows of a step. -/
theorem isChain_scanl (hk : s.Keyed) (today : Date) (tasks : List Task) :
    (tasks.scanl (afterRow today) s).IsChain fun s t => s.Precedes t ∧ s.RowDates t := by
  induction tasks generalizing s with
  | nil => exact .singleton s
  | cons task tasks ih =>
    have hrest := ih ((sameFrame_afterRow hk today task).keyed hk)
    rw [List.scanl_cons]
    refine List.isChain_cons.2 ⟨fun t ht => ?_, hrest⟩
    rw [List.head?_scanl, Option.mem_def, Option.some.injEq] at ht
    subst ht
    exact ⟨precedes_afterRow hk today task, rowDates_afterRow hk today task⟩

/-- What each row keeps, any number of them keeps. -/
theorem precedes_foldl (hk : s.Keyed) (today : Date) (tasks : List Task) :
    s.Precedes (tasks.foldl (afterRow today) s) := by
  induction tasks generalizing s with
  | nil => exact .refl hk
  | cons task tasks ih =>
    have hrow := precedes_afterRow hk today task
    exact hrow.trans (ih (hrow.frame.keyed hk))

theorem precedes_act (hk : s.Keyed) (action : Action) : s.Precedes (s.act action) := by
  rw [act_eq]
  exact precedes_foldl hk action.today _

theorem head?_trace (s : Store) (actions : List Action) : (s.trace actions).head? = some s := by
  cases actions with
  | nil => rfl
  | cons action actions =>
    rw [trace, List.head?_append, List.head?_scanl, Option.some_or]

/-- The stores after the steps are among those after the rows. -/
theorem scanl_sublist_trace (s : Store) (actions : List Action) :
    (actions.scanl act s).Sublist (s.trace actions) := by
  induction actions generalizing s with
  | nil => exact .refl _
  | cons action actions ih =>
    have hstart : [s].Sublist ((action.tasks s).scanl (afterRow action.today) s) := by
      rw [List.singleton_sublist]
      exact List.mem_of_mem_head? List.head?_scanl
    rw [List.scanl_cons, trace]
    exact hstart.append (ih (s.act action))

theorem isChain_trace (hk : s.Keyed) (actions : List Action) :
    (s.trace actions).IsChain fun s t => s.Precedes t ∧ s.RowDates t := by
  induction actions generalizing s with
  | nil => exact .singleton s
  | cons action actions ih =>
    have hkt := (precedes_act hk action).frame.keyed hk
    refine List.isChain_append.2 ⟨isChain_scanl hk action.today _, ih hkt, fun t ht u hu => ?_⟩
    -- the rows of a step end where the next step starts
    rw [List.getLast?_scanl, ← act_eq, Option.mem_def, Option.some.injEq] at ht
    rw [head?_trace, Option.mem_def, Option.some.injEq] at hu
    subst ht hu
    exact ⟨.refl hkt, .refl hkt⟩

end Store

/-- Of what a history has recorded nothing is taken back: any earlier store of its trace precedes
any later one, and each row changes dates only as a row may. The stores between the steps of the
history are among those of the trace. -/
theorem history_never_rewritten {s : Store} (hk : s.Keyed) (actions : List Action) :
    (actions.scanl Store.act s).Sublist (s.trace actions) ∧
      (s.trace actions).Pairwise Store.Precedes ∧
      (s.trace actions).IsChain Store.RowDates := by
  have hchain := Store.isChain_trace hk actions
  exact ⟨s.scanl_sublist_trace actions, (hchain.imp fun _ _ h => h.1).pairwise,
    hchain.imp fun _ _ h => h.2⟩

/-- An assessment is verified, and edited afterwards. -/
def reopeningHistory : List Action :=
  [.importBlocks ⟨2024, 5, 17⟩
      [⟨[Column.assessment, Column.code, Column.state, Column.verifiedDate],
        [["", "A-1", "completed", "5/17/2024"], ["", "A-2", "completed", "5/17/2024"]]⟩],
    .perform .save "" ⟨2024, 5, 20⟩
      ⟨[], [⟨1, "A-1", [⟨.string "undone", "Note", "Text", some 1, 5, none⟩]⟩]⟩]

/-- The edit reopens the assessment, but the date of its verification stays. -/
theorem history_never_rewritten_reopening :
    ((reopeningHistory.foldl Store.act reviewedStore).assessments.map fun a =>
        (a.status, a.verifiedDate)) = [(State.inProgress.name, some "2024-05-17")] ∧
      (reopeningHistory.scanl Store.act reviewedStore).Pairwise Store.Precedes := by
  have hkeyed : reviewedStore.Keyed := ⟨by decide, by decide, by decide⟩
  obtain ⟨hsteps, hprecedes, -⟩ := history_never_rewritten hkeyed reopeningHistory
  exact ⟨by decide +kernel, hprecedes.sublist hsteps⟩

end BulkAssessment
