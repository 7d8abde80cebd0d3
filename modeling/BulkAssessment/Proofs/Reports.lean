import BulkAssessment.Proofs.Review

/-!
# What a run reports

A row is reported under its key: the code of its assessment, or `cad:` and a definition. So the
slug of an assessment is among the errors of a run exactly if one of the rows with that code was
rejected (`Run.mem_errors_foldl`), as long as no comment has the slug for its key, and among the
warnings exactly if one of them left a cell out (`Run.mem_warnings_foldl`).

Whether an attributes row leaves a cell out depends on the definitions and the people alone
(`Store.leavesOut`), so it can be told for a row of a request before anything is imported
(`Store.rowWarns`).
-/

namespace BulkAssessment

namespace Dossier

/-- A row about the assessment is rejected. -/
def rejects (s : Store) (today : Date) (x : Dossier) (task : Task) : Bool :=
  match x.apply s today task with
  | .ok _ => false
  | .error _ => true

/-- A row about the assessment leaves a cell out. -/
def warns (s : Store) (today : Date) (x : Dossier) (task : Task) : Bool :=
  match x.apply s today task with
  | .ok (_, warned) => warned
  | .error _ => false

/-- Of rows that are applied one after the other, some row passes a test. -/
def someRow (s : Store) (today : Date) (test : Dossier → Task → Bool) :
    Dossier → List Task → Bool
  | _, [] => false
  | x, task :: tasks => test x task || someRow s today test (x.after s today task) tasks

end Dossier

/-- Done in part is what left a cell out and did not fail. -/
theorem Report.mem_partials {r : Report} {key : String} :
    key ∈ r.partials ↔ key ∈ r.warnings ∧ key ∉ r.errors :=
  TextSet.mem_diff

/-! ## Rows -/

theorem Task.key_of_code {task : Task} {code : String} (h : task.code? = some code) :
    task.layout.key task.row = code := by
  obtain ⟨layout, row⟩ := task
  cases layout with
  | attributes l => exact Option.some.inj h
  | state l => exact Option.some.inj h
  | comment l => cases h

theorem Task.key_of_not_code {task : Task} (h : task.code? = none) :
    ∃ definition, task.layout.key task.row = "cad:" ++ definition := by
  obtain ⟨layout, row⟩ := task
  cases layout with
  | attributes l => cases h
  | state l => cases h
  | comment l => exact ⟨cell row l.definition, rfl⟩

namespace Run

variable {s : Store} {r : Run} {today : Date} {id : Int} {x : Dossier} {task : Task} {key : String}

theorem mem_errors_apply_of_ne (h : task.layout.key task.row ≠ key) :
    key ∈ (r.apply today task).report.errors ↔ key ∈ r.report.errors := by
  rw [apply, step]
  split
  · exact Iff.rfl
  · exact Iff.rfl
  · rw [TextSet.mem_insert, or_iff_right (Ne.symm h)]

theorem mem_warnings_apply_of_ne (h : task.layout.key task.row ≠ key) :
    key ∈ (r.apply today task).report.warnings ↔ key ∈ r.report.warnings := by
  rw [apply, step]
  split
  · exact Iff.rfl
  · rw [TextSet.mem_insert, or_iff_right (Ne.symm h)]
  · exact Iff.rfl

/-- A comment is added or rejected, but never in part. -/
theorem warnings_apply_of_comment (h : task.code? = none) :
    (r.apply today task).report.warnings = r.report.warnings := by
  obtain ⟨layout, row⟩ := task
  cases layout with
  | attributes l => cases h
  | state l => cases h
  | comment l =>
    rw [apply, step]
    dsimp only [Store.applyRow]
    cases r.store.applyComment l row <;> rfl

theorem report_apply_of_code (hk : r.store.Keyed) (hx : r.store.dossier? id = some x)
    (hc : task.code? = some x.assessment.slug) :
    (r.apply today task).report =
      match x.apply r.store today task with
      | .ok (_, false) => r.report
      | .ok (_, true) =>
        { r.report with warnings := r.report.warnings.insert x.assessment.slug }
      | .error _ => { r.report with errors := r.report.errors.insert x.assessment.slug } := by
  have hrow := Store.applyRow_of_code today hk hx hc
  rw [apply, step, Task.key_of_code hc]
  cases hy : x.apply r.store today task with
  | error e =>
    simp only [hy] at hrow
    rw [hrow]
  | ok p =>
    simp only [hy] at hrow
    obtain ⟨t, ht, -⟩ := hrow
    rw [ht]
    obtain ⟨y, warned⟩ := p
    cases warned <;> rfl

theorem mem_errors_apply (hk : r.store.Keyed) (hf : s.SameFrame r.store)
    (hx : r.store.dossier? id = some x)
    (hkey : task.code? = none → task.layout.key task.row ≠ x.assessment.slug) :
    x.assessment.slug ∈ (r.apply today task).report.errors ↔
      x.assessment.slug ∈ r.report.errors ∨
        task.code? = some x.assessment.slug ∧ x.rejects s today task = true := by
  by_cases hc : task.code? = some x.assessment.slug
  · rw [report_apply_of_code hk hx hc, x.apply_congr hf, Dossier.rejects]
    rcases x.apply s today task with e | ⟨y, _ | _⟩ <;> simp [hc]
  · have hne : task.layout.key task.row ≠ x.assessment.slug := by
      cases hcode : task.code? with
      | none => exact hkey hcode
      | some code =>
        rw [Task.key_of_code hcode]
        rintro rfl
        exact hc hcode
    rw [mem_errors_apply_of_ne hne]
    simp [hc]

theorem mem_warnings_apply (hk : r.store.Keyed) (hf : s.SameFrame r.store)
    (hx : r.store.dossier? id = some x) (task : Task) :
    x.assessment.slug ∈ (r.apply today task).report.warnings ↔
      x.assessment.slug ∈ r.report.warnings ∨
        task.code? = some x.assessment.slug ∧ x.warns s today task = true := by
  by_cases hc : task.code? = some x.assessment.slug
  · rw [report_apply_of_code hk hx hc, x.apply_congr hf, Dossier.warns]
    rcases x.apply s today task with e | ⟨y, _ | _⟩ <;> simp [hc]
  · cases hcode : task.code? with
    | none =>
      rw [warnings_apply_of_comment hcode]
      simp
    | some code =>
      have hne : task.layout.key task.row ≠ x.assessment.slug := by
        rw [Task.key_of_code hcode]
        rintro rfl
        exact hc hcode
      rw [mem_warnings_apply_of_ne hne, ← hcode]
      simp [hc]

/-! ## Runs -/

/-- What one row after the other puts into a set of the report, told from the dossier. -/
theorem mem_report_foldl (notes : Report → TextSet) {test : Dossier → Task → Bool}
    {tasks : List Task} {slug : String}
    (hstep : ∀ (r : Run) (x : Dossier), ∀ task ∈ tasks, r.store.Keyed → s.SameFrame r.store →
      r.store.dossier? id = some x → x.assessment.slug = slug →
        (slug ∈ notes (r.apply today task).report ↔
          slug ∈ notes r.report ∨ task.code? = some slug ∧ test x task = true))
    (hk : s.Keyed) (hf : s.SameFrame r.store) (hx : r.store.dossier? id = some x)
    (hslug : x.assessment.slug = slug) :
    slug ∈ notes (tasks.foldl (Run.apply today) r).report ↔
      slug ∈ notes r.report ∨ x.someRow s today test (Task.under slug tasks) = true := by
  induction tasks generalizing r x with
  | nil => simp [Task.under, Dossier.someRow]
  | cons task tasks ih =>
    have hkr := hf.keyed hk
    have hframe := hf.trans (sameFrame_apply today hkr task)
    have hlater := fun (r : Run) (x : Dossier) (u : Task) (hu : u ∈ tasks) =>
      hstep r x u (List.mem_cons_of_mem _ hu)
    have happly := dossier?_apply today hkr hx task
    have hfirst := hstep r x task List.mem_cons_self hkr hf hx hslug
    rw [List.foldl_cons]
    by_cases hc : task.code? = some slug
    · rw [hslug, if_pos hc, Dossier.after_congr x hf] at happly
      rw [ih hlater hframe happly ((x.slug_after task).trans hslug), hfirst]
      simp [Task.under, hc, Dossier.someRow, or_assoc]
    · rw [hslug, if_neg hc] at happly
      rw [ih hlater hframe happly hslug, hfirst]
      simp [Task.under, hc]

theorem mem_errors_foldl (hk : s.Keyed) (hf : s.SameFrame r.store)
    (hx : r.store.dossier? id = some x) {tasks : List Task}
    (hkey : ∀ task ∈ tasks, task.code? = none → task.layout.key task.row ≠ x.assessment.slug) :
    x.assessment.slug ∈ (tasks.foldl (Run.apply today) r).report.errors ↔
      x.assessment.slug ∈ r.report.errors ∨
        x.someRow s today (Dossier.rejects s today)
          (Task.under x.assessment.slug tasks) = true := by
  refine mem_report_foldl Report.errors ?_ hk hf hx rfl
  intro r y task htask hkr hf hy hslug
  rw [← hslug]
  exact mem_errors_apply hkr hf hy (hslug ▸ hkey task htask)

theorem mem_warnings_foldl (hk : s.Keyed) (hf : s.SameFrame r.store)
    (hx : r.store.dossier? id = some x) (tasks : List Task) :
    x.assessment.slug ∈ (tasks.foldl (Run.apply today) r).report.warnings ↔
      x.assessment.slug ∈ r.report.warnings ∨
        x.someRow s today (Dossier.warns s today)
          (Task.under x.assessment.slug tasks) = true := by
  refine mem_report_foldl Report.warnings ?_ hk hf hx rfl
  intro r y task _ hkr hf hy hslug
  rw [← hslug]
  exact mem_warnings_apply hkr hf hy task

/-! ## Imports -/

theorem mem_errors_importBlocks {t : Store} {slug : String} (today : Date) (hk : s.Keyed)
    (hf : s.SameFrame t) (hx : t.dossier? id = some x) (hslug : x.assessment.slug = slug)
    {blocks : List Block}
    (hkey : ∀ task ∈ Block.tasks blocks, task.code? = none → task.layout.key task.row ≠ slug) :
    slug ∈ (t.importBlocks today blocks).report.errors ↔
      x.someRow s today (Dossier.rejects s today) (Task.under slug (Block.tasks blocks)) =
        true := by
  subst hslug
  rw [Store.importBlocks_eq, mem_errors_foldl (r := Run.start t) hk hf hx hkey]
  exact or_iff_right (TextSet.not_mem_empty _)

theorem mem_warnings_importBlocks {t : Store} {slug : String} (today : Date) (hk : s.Keyed)
    (hf : s.SameFrame t) (hx : t.dossier? id = some x) (hslug : x.assessment.slug = slug)
    (blocks : List Block) :
    slug ∈ (t.importBlocks today blocks).report.warnings ↔
      x.someRow s today (Dossier.warns s today) (Task.under slug (Block.tasks blocks)) = true := by
  subst hslug
  rw [Store.importBlocks_eq, mem_warnings_foldl (r := Run.start t) hk hf hx]
  exact or_iff_right (TextSet.not_mem_empty _)

end Run

namespace Dossier

variable {s : Store} {today : Date} {test : Dossier → Task → Bool}

/-- A test that depends on whose row it is alone does not depend on the rows before. -/
theorem someRow_eq_any (x : Dossier) {tasks : List Task} {p : Task → Bool}
    (h : ∀ task ∈ tasks, ∀ y : Dossier, y.assessment.id = x.assessment.id → test y task = p task) :
    x.someRow s today test tasks = tasks.any p := by
  induction tasks generalizing x with
  | nil => rfl
  | cons task tasks ih =>
    rw [someRow, h task List.mem_cons_self x rfl, List.any_cons]
    refine congrArg _ (ih _ fun u hu y hy => ?_)
    exact h u (List.mem_cons_of_mem _ hu) y (hy.trans (x.id_after task))

theorem someRow_eq_false (x : Dossier) {tasks : List Task}
    (h : ∀ task ∈ tasks, ∀ y, test y task = false) : x.someRow s today test tasks = false :=
  (x.someRow_eq_any fun task htask y _ => h task htask y).trans (by simp)

theorem someRow_ite (x : Dossier) (task : Task) (p : Prop) [Decidable p] :
    x.someRow s today test (if p then [task] else []) = true ↔ p ∧ test x task = true := by
  by_cases hp : p
  · rw [if_pos hp, and_iff_right hp, someRow, someRow, Bool.or_false]
  · rw [if_neg hp]
    exact iff_of_false Bool.false_ne_true fun h => hp h.1

end Dossier

/-! ## Cells that are left out -/

/-- A cell under a title is left out: the title stands for no definition of the assessment, or
for one that does not allow the text. -/
def Store.leavesOut (s : Store) (id : Int) (title raw : String) : Bool :=
  match s.definitionTitled? id title with
  | none => true
  | some d => (s.cellValue? d raw).isNone

/-- The row that stores the values of an assessment leaves a cell out. -/
def Store.rowWarns (s : Store) (request : BulkRequest) (id : Int) : Bool :=
  request.hasValues id &&
    (request.titles.filter fun title => decide (title ∉ Block.fixedColumns)).any fun title =>
      s.leavesOut id title (s.cellText request id title)

section LeftOut

variable {s : Store} {p : Draft} {today : Date} {x : Dossier} {request : BulkRequest}

theorem warned_applyCell (title raw : String) :
    (p.applyCell s title raw).warned =
      (p.warned || s.leavesOut p.dossier.assessment.id title raw) := by
  have hput (d : Definition) (c : CellValue) : (p.put d c).warned = p.warned := by
    unfold Draft.put
    split <;> rfl
  unfold Draft.applyCell Store.leavesOut
  cases s.definitionTitled? p.dossier.assessment.id title with
  | none => exact (Bool.or_true _).symm
  | some d =>
    dsimp only
    cases s.cellValue? d raw with
    | none => exact (Bool.or_true _).symm
    | some c => exact (hput d c).trans (Bool.or_false _).symm

theorem warned_foldl_applyCell (row : Row) (columns : List (Nat × String)) :
    (columns.foldl (fun p c => p.applyCell s c.2 (cell row c.1)) p).warned =
      (p.warned || columns.any fun c =>
        s.leavesOut p.dossier.assessment.id c.2 (cell row c.1)) := by
  induction columns generalizing p with
  | nil => exact (Bool.or_false _).symm
  | cons c columns ih =>
    rw [List.foldl_cons, ih, warned_applyCell, Draft.assessment_applyCell, List.any_cons,
      Bool.or_assoc]

theorem warned_applyEvidence (l : AttributesLayout) (row : Row) :
    (Dossier.applyEvidence p l row).warned = p.warned := by
  have hattach (kind : EvidenceKind) (p : Draft) (link : String) :
      (p.attach kind link).warned = p.warned := by
    unfold Draft.attach
    split <;> rfl
  exact (foldl_keeps (f := Draft.warned) (fun p link _ => hattach .file p link) _).trans
    (foldl_keeps (f := Draft.warned) (fun p link _ => hattach .url p link) _)

/-- An attributes row leaves out what its cells say to leave out. -/
theorem Dossier.warns_attributes (l : AttributesLayout) (row : Row) :
    x.warns s today ⟨.attributes l, row⟩ =
      l.attributes.any fun c => s.leavesOut x.assessment.id c.2 (cell row c.1) := by
  have hwarned : (applyEvidence (x.applyCells s l row) l row).warned =
      l.attributes.any fun c => s.leavesOut x.assessment.id c.2 (cell row c.1) := by
    rw [warned_applyEvidence, applyCells, warned_foldl_applyCell, Bool.false_or]
  rw [← hwarned]
  rfl

theorem Dossier.rejects_attributes (l : AttributesLayout) (row : Row) :
    x.rejects s today ⟨.attributes l, row⟩ = false := rfl

/-- The row that stores the values of an id leaves out what its cells say to leave out. -/
theorem Dossier.warns_savingTask (hstate : Column.state ∉ request.titles) (id : Int) :
    x.warns s today (s.savingTask request id) =
      (request.titles.filter fun title => decide (title ∉ Block.fixedColumns)).any fun title =>
        s.leavesOut x.assessment.id title (s.cellText request id title) := by
  rw [savingTask_of_not_state hstate, warns_attributes, ← titles_attributeColumns 4, List.any_map,
    Bool.eq_iff_iff, List.any_eq_true, List.any_eq_true]
  refine exists_congr fun column => and_congr_right fun hcolumn => ?_
  obtain ⟨i, hi, hget⟩ := getElem?_of_mem_attributeColumns hcolumn
  rw [hi, cell_savingTask hget]
  rfl

end LeftOut

/-! ## State rows -/

section StateRows

variable {s : Store} {today : Date} {x : Dossier} {task : Task} {o : Order}

theorem Dossier.rejects_of_order (ho : task.order? = some o) :
    x.rejects s today task =
      match o.transition (x.isFilled s) today x.assessment.status with
      | .ok _ => false
      | .error _ => true := by
  unfold rejects
  rw [apply_of_order today ho]
  cases o.transition (x.isFilled s) today x.assessment.status <;> rfl

theorem Dossier.warns_of_order (ho : task.order? = some o) : x.warns s today task = false := by
  unfold warns
  rw [apply_of_order today ho]
  cases o.transition (x.isFilled s) today x.assessment.status <;> rfl

end StateRows

/-! ## What saving reports -/

section Saving

variable {s : Store} {today : Date} {id : Int} {x : Dossier} {request : BulkRequest}

theorem mem_warnings_runSave (today : Date) (hk : s.Keyed) (hx : s.dossier? id = some x)
    (request : BulkRequest) :
    x.assessment.slug ∈ (s.runSave today request).report.warnings ↔
      x.someRow s today (Dossier.warns s today)
        (Operation.rowsUnder x.assessment.slug (s.savingRows request)) = true := by
  rw [Store.runSave, Run.mem_warnings_importBlocks today hk (.refl s) hx rfl,
    under_tasks_updateBlocks hk]

/-- The rows that store values are not rejected as long as no title is `State`, so an assessment
is among the errors only if its slug is the key of a comment. -/
theorem not_mem_errors_runSave (today : Date) (hk : s.Keyed) (hx : s.dossier? id = some x)
    (hstate : Column.state ∉ request.titles)
    (hcad : ∀ definition, x.assessment.slug ≠ "cad:" ++ definition) :
    x.assessment.slug ∉ (s.runSave today request).report.errors := by
  have hkey : ∀ task ∈ Block.tasks (s.assembleFlagged request).updateBlocks, task.code? = none →
      task.layout.key task.row ≠ x.assessment.slug := by
    intro task _ hcode heq
    obtain ⟨definition, hdefinition⟩ := Task.key_of_not_code hcode
    exact hcad definition (heq.symm.trans hdefinition)
  rw [Store.runSave, Run.mem_errors_importBlocks today hk (.refl s) hx rfl hkey,
    under_tasks_updateBlocks hk, rowsUnder_savingRows, Dossier.someRow_eq_false]
  · exact Bool.false_ne_true
  · intro task htask y
    obtain ⟨i, -, rfl⟩ := List.mem_map.1 htask
    rw [savingTask_of_not_state hstate]
    exact Dossier.rejects_attributes _ _

end Saving

end BulkAssessment
