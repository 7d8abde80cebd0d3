import BulkAssessment.Proofs.Comments
import BulkAssessment.Proofs.MandatoryGate

/-!
# Rejected rows

What a store must look like for a row to be rejected can be said without following the row
through its checks: `Store.Refuses` lists the reasons, each by what is missing, and a row is
rejected exactly if one of them holds of the store that it meets (`Store.accepts_eq_false_iff`).

A rejected row leaves nothing behind but its key. So the errors of an import are the keys of its
rejected rows (`Run.mem_errors_foldl_iff`), and the import of the other rows alone ends in the
same store, with the same warnings (`Store.importBlocks_sift`).
-/

namespace BulkAssessment

/-- A row has no place on a store. -/
inductive Store.Refuses (s : Store) : Task → Prop where
  /-- No assessment has its code. -/
  | unknownAssessment {task : Task} {code : String} (hcode : task.code? = some code)
      (h : ∀ a ∈ s.assessments, a.slug ≠ code) : s.Refuses task
  /-- Its text names no state. -/
  | unknownState {l : StateLayout} {row : Row} (h : State.ofName? (cell row l.state) = none) :
      s.Refuses ⟨.state l, row⟩
  /-- It verifies an assessment that is not in review. -/
  | notInReview {l : StateLayout} {row : Row} {a : Assessment} (ha : a ∈ s.assessments)
      (hcode : a.slug = cell row l.code) (hdate : cellOf row l.verifiedDate ≠ "")
      (h : a.status ≠ State.inReview.name) : s.Refuses ⟨.state l, row⟩
  /-- It verifies on what is no date. -/
  | badDate {l : StateLayout} {row : Row} (hdate : cellOf row l.verifiedDate ≠ "")
      (h : Date.ofCell? (cellOf row l.verifiedDate) = none) : s.Refuses ⟨.state l, row⟩
  /-- It completes an assessment, or sends it to review, without all its mandatory values. -/
  | unfilled {l : StateLayout} {row : Row} {a : Assessment} {target : State}
      (ha : a ∈ s.assessments) (hcode : a.slug = cell row l.code)
      (hdate : cellOf row l.verifiedDate = "")
      (htarget : State.ofName? (cell row l.state) = some target)
      (hneeds : target = .completed ∨ target = .inReview) (h : ¬ s.Filled a.id) :
      s.Refuses ⟨.state l, row⟩
  /-- What should be the id of a definition is no id. -/
  | badDefinition {l : CommentLayout} {row : Row}
      (h : Text.readId? (cell row l.definition) = none) : s.Refuses ⟨.comment l, row⟩
  /-- The comment is blank. -/
  | emptyComment {l : CommentLayout} {row : Row} (h : cell row l.description = "") :
      s.Refuses ⟨.comment l, row⟩
  /-- No definition of a single assessment has the id. -/
  | unknownDefinition {l : CommentLayout} {row : Row} {id : Int}
      (hid : Text.readId? (cell row l.definition) = some id)
      (h : ∀ d ∈ s.definitions, d.id = id → d.ownerType ≠ Definition.localType) :
      s.Refuses ⟨.comment l, row⟩
  /-- The definition has no owner, or one that does not exist. -/
  | ownerless {l : CommentLayout} {row : Row} {d : Definition}
      (hid : Text.readId? (cell row l.definition) = some d.id) (hd : d ∈ s.definitions)
      (hlocal : d.ownerType = Definition.localType)
      (h : ∀ owner, d.ownerId = some owner → ∀ a ∈ s.assessments, a.id ≠ owner) :
      s.Refuses ⟨.comment l, row⟩

namespace Store

/-- Whether a row is accepted. -/
def accepts (today : Date) (s : Store) (task : Task) : Bool :=
  match s.applyRow today task.row task.layout with
  | .ok _ => true
  | .error _ => false

/-- The store after a row, accepted or rejected. -/
def afterRow (today : Date) (s : Store) (task : Task) : Store :=
  match s.applyRow today task.row task.layout with
  | .ok (t, _) => t
  | .error _ => s

/-- The rows of a block that its import accepts. -/
def acceptedRows (today : Date) (layout : BlockLayout) : Store → List Row → List Row
  | _, [] => []
  | s, row :: rows =>
    let rest := acceptedRows today layout (s.afterRow today ⟨layout, row⟩) rows
    if s.accepts today ⟨layout, row⟩ then row :: rest else rest

/-- A block without the rows that its import rejects. -/
def siftBlock (today : Date) (s : Store) (b : Block) : Block :=
  match b.layout? with
  | none => b
  | some layout => { b with rows := s.acceptedRows today layout b.rows }

/-- Blocks without the rows that their import rejects. -/
def sift (today : Date) : Store → List Block → List Block
  | _, [] => []
  | s, b :: bs => s.siftBlock today b :: sift today (s.importBlocks today [b]).store bs

end Store

/-! ## The reasons -/

section Reasons

variable {s : Store} {today : Date} {id : Int} {x : Dossier}

/-- A state row about the assessment of a dossier is rejected for its state, for its date or for
a mandatory value. -/
theorem Dossier.rejects_state_iff {l : StateLayout} {row : Row} :
    x.rejects s today ⟨.state l, row⟩ = true ↔
      State.ofName? (cell row l.state) = none ∨
        cellOf row l.verifiedDate ≠ "" ∧
          (x.assessment.status ≠ State.inReview.name ∨
            Date.ofCell? (cellOf row l.verifiedDate) = none) ∨
        cellOf row l.verifiedDate = "" ∧ x.isFilled s = false ∧
          ∃ target, State.ofName? (cell row l.state) = some target ∧
            target.needsValues = true := by
  rw [rejects_of_order (o := ⟨cell row l.state, cellOf row l.verifiedDate⟩) rfl, Order.transition]
  cases State.ofName? (cell row l.state) with
  | none => simp
  | some target =>
    by_cases hdate : cellOf row l.verifiedDate = ""
    · cases hneeds : target.needsValues <;> cases x.isFilled s <;> simp [hdate, hneeds]
    · by_cases hreview : x.assessment.status = State.inReview.name
      · cases Date.ofCell? (cellOf row l.verifiedDate) <;> simp [hdate, hreview]
      · simp [hdate, hreview]

namespace Store

theorem accepts_eq_false_iff_error {task : Task} :
    s.accepts today task = false ↔
      ∃ e, s.applyRow today task.row task.layout = .error e := by
  unfold accepts
  cases s.applyRow today task.row task.layout <;> simp

theorem accepts_of_code (today : Date) (hk : s.Keyed) (hx : s.dossier? id = some x) {task : Task}
    (hcode : task.code? = some x.assessment.slug) :
    s.accepts today task = !x.rejects s today task := by
  have hrow := applyRow_of_code today hk hx hcode
  unfold accepts Dossier.rejects
  cases hy : x.apply s today task with
  | error e =>
    simp only [hy] at hrow
    rw [hrow]
    rfl
  | ok r =>
    simp only [hy] at hrow
    obtain ⟨t, ht, -⟩ := hrow
    rw [ht]
    rfl

theorem not_refuses_attributes {l : AttributesLayout} {row : Row} {a : Assessment}
    (ha : a ∈ s.assessments) (hcode : a.slug = cell row l.code) :
    ¬ s.Refuses ⟨.attributes l, row⟩ := by
  intro hrefuses
  cases hrefuses with
  | unknownAssessment hother h =>
    obtain rfl := Option.some.inj hother
    exact h a ha hcode

theorem refuses_state_iff (hk : s.Keyed) (hx : s.dossier? id = some x) {l : StateLayout} {row : Row}
    (hcode : cell row l.code = x.assessment.slug) :
    s.Refuses ⟨.state l, row⟩ ↔ x.rejects s today ⟨.state l, row⟩ = true := by
  have hmem := mem_of_dossier? hx
  -- the assessment that a reason speaks of is that of the dossier
  have hsame {a : Assessment} (ha : a ∈ s.assessments) (h : a.slug = cell row l.code) :
      a = x.assessment := hk.eq_of_slug ha hmem (h.trans hcode)
  have hfilled : s.Filled x.assessment.id ↔ x.isFilled s = true := by
    rw [filled_iff, id_of_dossier? hx, isFilled_eq hx]
  rw [Dossier.rejects_state_iff]
  constructor
  · intro hrefuses
    cases hrefuses with
    | unknownAssessment hother h =>
      obtain rfl := Option.some.inj hother
      exact absurd hcode.symm (h _ hmem)
    | unknownState h => exact Or.inl h
    | notInReview ha hslug hdate h =>
      obtain rfl := hsame ha hslug
      exact Or.inr (Or.inl ⟨hdate, Or.inl h⟩)
    | badDate hdate h => exact Or.inr (Or.inl ⟨hdate, Or.inr h⟩)
    | unfilled ha hslug hdate htarget hneeds h =>
      obtain rfl := hsame ha hslug
      refine Or.inr (Or.inr ⟨hdate, ?_, _, htarget, ?_⟩)
      · simpa [hfilled] using h
      · rcases hneeds with rfl | rfl <;> rfl
  · rintro (h | ⟨hdate, h | h⟩ | ⟨hdate, h, target, htarget, hneeds⟩)
    · exact .unknownState h
    · exact .notInReview hmem hcode.symm hdate h
    · exact .badDate hdate h
    · refine .unfilled hmem hcode.symm hdate htarget ?_ (by simpa [hfilled] using h)
      simpa [State.needsValues] using hneeds

theorem localDefinition?_eq_some {n : Int} {d : Definition} (h : s.localDefinition? n = some d) :
    d ∈ s.definitions ∧ d.id = n ∧ d.ownerType = Definition.localType := by
  have hfound := List.find?_some h
  simp only [Bool.and_eq_true, beq_iff_eq] at hfound
  exact ⟨List.mem_of_find?_eq_some h, hfound⟩

theorem refuses_comment_iff (hk : s.Keyed) {l : CommentLayout} {row : Row} :
    s.Refuses ⟨.comment l, row⟩ ↔ ∃ e, s.applyComment l row = .error e := by
  unfold applyComment
  cases hid : Text.readId? (cell row l.definition) with
  | none => exact iff_of_true (.badDefinition hid) ⟨_, rfl⟩
  | some n =>
    by_cases hblank : cell row l.description = ""
    · exact iff_of_true (.emptyComment hblank) (by simp [hblank])
    cases hd : s.localDefinition? n with
    | none =>
      refine iff_of_true (.unknownDefinition hid fun d hmem hdn hlocal => ?_) (by simp [hblank, hd])
      have hnone := List.find?_eq_none.1 hd d hmem
      simp [hdn, hlocal] at hnone
    | some d =>
      obtain ⟨hmem, rfl, hlocal⟩ := localDefinition?_eq_some hd
      cases howner : d.ownerId with
      | none =>
        refine iff_of_true (.ownerless hid hmem hlocal fun owner h => ?_) ?_
        · rw [howner] at h
          cases h
        · simp [hblank, hd, howner]
      | some owner =>
        cases hexists : s.hasAssessment owner with
        | false =>
          refine iff_of_true (.ownerless hid hmem hlocal fun o ho a ha hao => ?_) ?_
          · rw [howner, Option.some.injEq] at ho
            have hnone := List.any_eq_false.1 hexists a ha
            simp [hao, ho] at hnone
          · simp [hblank, hd, howner, comment_eq_error hexists, asRejection, Except.map]
        | true =>
          refine iff_of_false (fun hrefuses => ?_) ?_
          · cases hrefuses with
            | unknownAssessment hcode => cases hcode
            | badDefinition h => rw [hid] at h; cases h
            | emptyComment h => exact hblank h
            | unknownDefinition hother h =>
              rw [hid, Option.some.injEq] at hother
              exact h d hmem hother hlocal
            | ownerless hother hc _ h =>
              rw [hid, Option.some.injEq] at hother
              obtain rfl := hk.eq_of_definitionId hmem hc hother
              obtain ⟨a, ha, hao⟩ := List.any_eq_true.1 hexists
              exact h owner howner a ha (by simpa using hao)
          · simp [hblank, hd, howner, comment_eq_ok hexists hmem, asRejection, Except.map]

/-- A row is rejected exactly if it has no place on the store. -/
theorem accepts_eq_false_iff (hk : s.Keyed) (today : Date) (task : Task) :
    s.accepts today task = false ↔ s.Refuses task := by
  cases hcode : task.code? with
  | none =>
    obtain ⟨layout, row⟩ := task
    cases layout with
    | attributes l => cases hcode
    | state l => cases hcode
    | comment l =>
      rw [accepts_eq_false_iff_error, refuses_comment_iff hk, applyRow]
      cases s.applyComment l row <;> simp [Except.map]
  | some code =>
    cases ha : s.assessmentBySlug? code with
    | none =>
      refine iff_of_true ?_ (.unknownAssessment hcode fun a hmem hslug => ?_)
      · rw [accepts_eq_false_iff_error]
        exact ⟨_, applyRow_of_unknown_code hcode ha⟩
      · simpa [hslug] using List.find?_eq_none.1 ha a hmem
    | some a =>
      obtain ⟨hmem, rfl⟩ := hk.assessmentBySlug?_eq_some_iff.1 ha
      obtain ⟨x, hx, rfl⟩ := hk.exists_dossier hmem
      rw [accepts_of_code today hk hx hcode, Bool.not_eq_false']
      obtain ⟨layout, row⟩ := task
      cases layout with
      | attributes l =>
        refine iff_of_false (by simp [Dossier.rejects_attributes]) ?_
        exact not_refuses_attributes hmem (Option.some.inj hcode).symm
      | state l => exact (refuses_state_iff hk hx (Option.some.inj hcode)).symm
      | comment l => cases hcode

end Store

end Reasons

/-! ## Runs -/

theorem Run.store_foldl (today : Date) (tasks : List Task) (r : Run) :
    (tasks.foldl (Run.apply today) r).store = tasks.foldl (Store.afterRow today) r.store :=
  (List.foldl_hom Run.store fun r task => (r.store_apply today task).symm).symm

namespace Store

theorem store_importBlocks (s : Store) (today : Date) (blocks : List Block) :
    (s.importBlocks today blocks).store = (Block.tasks blocks).foldl (afterRow today) s := by
  rw [importBlocks_eq, Run.store_foldl]
  rfl

theorem sameFrame_foldl {s : Store} (hk : s.Keyed) (today : Date) (tasks : List Task) :
    s.SameFrame (tasks.foldl (afterRow today) s) := by
  have hframe : s.SameFrame (tasks.foldl (Run.apply today) (Run.start s)).store :=
    Run.sameFrame_foldl (r := Run.start s) hk tasks
  rwa [Run.store_foldl] at hframe

end Store

namespace Run

variable {r : Run} {today : Date} {key : String}

theorem mem_errors_apply_iff (hk : r.store.Keyed) (task : Task) :
    key ∈ (r.apply today task).report.errors ↔
      key ∈ r.report.errors ∨ r.store.Refuses task ∧ task.layout.key task.row = key := by
  rw [← Store.accepts_eq_false_iff hk today, apply, step, Store.accepts]
  cases r.store.applyRow today task.row task.layout with
  | error e => simp [or_comm, eq_comm]
  | ok p =>
    obtain ⟨t, _ | _⟩ := p <;> simp

/-- The errors of a run are the keys of the rows that have no place on the store that they
meet. -/
theorem mem_errors_foldl_iff (hk : r.store.Keyed) (tasks : List Task) :
    key ∈ (tasks.foldl (Run.apply today) r).report.errors ↔
      key ∈ r.report.errors ∨ ∃ before task after, tasks = before ++ task :: after ∧
        (before.foldl (Store.afterRow today) r.store).Refuses task ∧
          task.layout.key task.row = key := by
  induction tasks generalizing r with
  | nil => simp
  | cons first tasks ih =>
    have hkt := (sameFrame_apply today hk first).keyed hk
    rw [List.foldl_cons, ih hkt, mem_errors_apply_iff hk, store_apply, or_assoc]
    refine or_congr_right ⟨?_, ?_⟩
    · rintro (⟨hrefuses, hkey⟩ | ⟨before, task, after, rfl, hrefuses, hkey⟩)
      · exact ⟨[], first, tasks, rfl, hrefuses, hkey⟩
      · exact ⟨first :: before, task, after, rfl, hrefuses, hkey⟩
    · rintro ⟨before, task, after, hsplit, hrefuses, hkey⟩
      cases before with
      | nil =>
        obtain ⟨rfl, rfl⟩ := List.cons.inj hsplit
        exact Or.inl ⟨hrefuses, hkey⟩
      | cons row before =>
        obtain ⟨rfl, rfl⟩ := List.cons.inj hsplit
        exact Or.inr ⟨before, task, after, rfl, hrefuses, hkey⟩

/-- Without its rejected rows a block leaves the same store and the same warnings, and adds no
error. -/
theorem foldl_acceptedRows (today : Date) (layout : BlockLayout) (rows : List Row) (s : Store)
    (errors errors' warnings : TextSet) :
    (s.acceptedRows today layout rows).foldl (step today layout) ⟨s, ⟨errors, warnings⟩⟩ =
      let r := rows.foldl (step today layout) ⟨s, ⟨errors', warnings⟩⟩
      ⟨r.store, ⟨errors, r.report.warnings⟩⟩ := by
  induction rows generalizing s errors' warnings with
  | nil => rfl
  | cons row rows ih =>
    rw [Store.acceptedRows, List.foldl_cons]
    cases hrow : s.applyRow today row layout with
    | error e =>
      have haccepts : s.accepts today ⟨layout, row⟩ = false := by simp only [Store.accepts, hrow]
      have hafter : s.afterRow today ⟨layout, row⟩ = s := by simp only [Store.afterRow, hrow]
      have hstep : step today layout ⟨s, ⟨errors', warnings⟩⟩ row =
          ⟨s, ⟨errors'.insert (layout.key row), warnings⟩⟩ := by simp only [step, hrow]
      simp only [haccepts, hafter, hstep]
      exact ih s _ _
    | ok p =>
      obtain ⟨t, warned⟩ := p
      have haccepts : s.accepts today ⟨layout, row⟩ = true := by simp only [Store.accepts, hrow]
      have hafter : s.afterRow today ⟨layout, row⟩ = t := by simp only [Store.afterRow, hrow]
      have hstep (e : TextSet) : step today layout ⟨s, ⟨e, warnings⟩⟩ row =
          ⟨t, ⟨e, if warned then warnings.insert (layout.key row) else warnings⟩⟩ := by
        simp only [step, hrow]
        cases warned <;> rfl
      simp only [haccepts, hafter, hstep, if_true, List.foldl_cons]
      exact ih t _ _

theorem store_block (today : Date) (r : Run) (b : Block) :
    (r.block today b).store = (r.store.importBlocks today [b]).store := by
  rw [block_eq, store_foldl, Store.store_importBlocks]

theorem block_siftBlock (today : Date) (b : Block) (s : Store)
    (errors errors' warnings : TextSet) :
    Run.block today ⟨s, ⟨errors, warnings⟩⟩ (s.siftBlock today b) =
      let r := Run.block today ⟨s, ⟨errors', warnings⟩⟩ b
      ⟨r.store, ⟨errors, r.report.warnings⟩⟩ := by
  cases hlayout : b.layout? with
  | none => simp only [Store.siftBlock, block, hlayout]
  | some layout =>
    have hsame : ({ b with rows := s.acceptedRows today layout b.rows } : Block).layout? =
        some layout := hlayout
    simp only [Store.siftBlock, hlayout]
    unfold block
    rw [hsame, hlayout]
    exact foldl_acceptedRows today layout b.rows s errors errors' warnings

theorem foldl_sift (today : Date) (blocks : List Block) (s : Store)
    (errors errors' warnings : TextSet) :
    (s.sift today blocks).foldl (Run.block today) ⟨s, ⟨errors, warnings⟩⟩ =
      let r := blocks.foldl (Run.block today) ⟨s, ⟨errors', warnings⟩⟩
      ⟨r.store, ⟨errors, r.report.warnings⟩⟩ := by
  induction blocks generalizing s errors' warnings with
  | nil => rfl
  | cons b blocks ih =>
    have hfirst := block_siftBlock today b s errors errors' warnings
    have hstore := store_block today ⟨s, ⟨errors', warnings⟩⟩ b
    rw [Store.sift, List.foldl_cons, hfirst, List.foldl_cons, ← hstore]
    exact ih _ _ _

end Run

theorem Store.importBlocks_sift (s : Store) (today : Date) (blocks : List Block) :
    s.importBlocks today (s.sift today blocks) =
      ⟨(s.importBlocks today blocks).store, ⟨∅, (s.importBlocks today blocks).report.warnings⟩⟩ :=
  Run.foldl_sift today blocks s ∅ ∅ ∅

/-- An import rejects a row exactly if it has no place on the store that the rows before it leave,
and reports the keys of these rows as its errors. Without them it leaves the same store, with the
same warnings and no errors. -/
theorem rejections_exact {s : Store} (hk : s.Keyed) (today : Date) (blocks : List Block) :
    (∀ before task after, Block.tasks blocks = before ++ task :: after →
      ((before.foldl (Store.afterRow today) s).accepts today task = false ↔
        (before.foldl (Store.afterRow today) s).Refuses task)) ∧
    (∀ key, key ∈ (s.importBlocks today blocks).report.errors ↔
      ∃ before task after, Block.tasks blocks = before ++ task :: after ∧
        (before.foldl (Store.afterRow today) s).Refuses task ∧
          task.layout.key task.row = key) ∧
    s.importBlocks today (s.sift today blocks) =
      ⟨(s.importBlocks today blocks).store,
        ⟨∅, (s.importBlocks today blocks).report.warnings⟩⟩ := by
  refine ⟨fun before task after _ => ?_, fun key => ?_, s.importBlocks_sift today blocks⟩
  · exact Store.accepts_eq_false_iff ((Store.sameFrame_foldl hk today before).keyed hk) today task
  · rw [Store.importBlocks_eq, Run.mem_errors_foldl_iff (r := Run.start s) hk]
    exact or_iff_right (TextSet.not_mem_empty key)

/-- An assessment with a mandatory value that is missing, and a definition whose owner is gone. -/
def unfinishedStore : Store :=
  { Store.empty with
    assessments := [⟨1, "A-1", "Backups", State.inProgress.name, "Control", none, none⟩]
    definitions :=
      [⟨5, Definition.localType, some 1, "Note", "Text", true, none, none, none⟩,
        ⟨6, Definition.localType, some 9, "Note", "Text", false, none, none, none⟩] }

/-- Rows of each kind, among them some for which there is no place. -/
def mixedBlocks : List Block :=
  [⟨[Column.assessment, Column.code, Column.state],
      [["", "A-1", "completed"], ["", "A-1", "done"]]⟩,
    ⟨[Column.assessment, Column.code, "Note", "Owner"], [["", "A-2", "lost"], ["", "A-1", "kept"]]⟩,
    ⟨[Column.comment, Column.description, Column.definition],
      [["", "why", "5"], ["", "why", "6"], ["", " ", "5"]]⟩,
    ⟨[Column.assessment, Column.code, Column.state], [["", "A-1", "completed"]]⟩]

/-- The comment on a definition without owner is rejected, and without it and the other rejected
rows the import goes through. -/
theorem rejections_exact_of_mixed :
    "cad:6" ∈ (unfinishedStore.importBlocks ⟨2024, 5, 17⟩ mixedBlocks).report.errors ∧
      (unfinishedStore.importBlocks ⟨2024, 5, 17⟩
        (unfinishedStore.sift ⟨2024, 5, 17⟩ mixedBlocks)).report.errors = ∅ := by
  have hkeyed : unfinishedStore.Keyed := ⟨by decide, by decide, by decide⟩
  obtain ⟨-, herrors, hsift⟩ := rejections_exact hkeyed ⟨2024, 5, 17⟩ mixedBlocks
  constructor
  · refine (herrors "cad:6").2 ⟨(Block.tasks mixedBlocks).take 5,
      ⟨.comment ⟨1, 2⟩, ["", "why", "6"]⟩, (Block.tasks mixedBlocks).drop 6, rfl, ?_,
      by decide +kernel⟩
    refine .ownerless
      (d := ⟨6, Definition.localType, some 9, "Note", "Text", false, none, none, none⟩)
      (by decide +kernel) (by decide +kernel) rfl ?_
    decide +kernel
  · rw [hsift]

end BulkAssessment
