import BulkAssessment.Proofs.Rejections

/-!
# Rows in another order

A row reads and writes the dossier of the assessment that has its code, and apart from that it
reads what no row writes. So the order of rows with different codes does not matter: what an import
makes of an assessment, and what it reports under its slug, comes from the list of the rows with
that code (`Run.sameOn_of_under`, `Run.report_of_under`), and a code that no assessment has is
reported if there is a row with it.

Comments are the exception. They have no code, and their order is that of their rows.
-/

namespace BulkAssessment

namespace Block

/-- The cell of a row in the code column. -/
def codeOf (b : Block) (row : Row) : String := cellOf row (b.column? Column.code)

/-- The rows of a block with a code. -/
def rowsUnder (b : Block) (code : String) : List Row :=
  b.rows.filter fun row => b.codeOf row == code

/-- The second block has the same rows with each code as the first, in the same order. So it is
the first with its rows in another order (`Block.Rearranged.perm`). -/
structure Rearranged (b c : Block) : Prop where
  header : c.header = b.header
  rows : ∀ code, c.rowsUnder code = b.rowsUnder code

/-- The block is not recognized as one of comments. -/
def Coded (b : Block) : Prop := ∀ l, b.layout? ≠ some (.comment l)

end Block

/-! ## Rows by their codes -/

section Codes

variable {b c : Block} {blocks blocks' : List Block} {layout : BlockLayout}

namespace Block

theorem mem_rowsUnder {row : Row} {code : String} :
    row ∈ b.rowsUnder code ↔ row ∈ b.rows ∧ b.codeOf row = code := by
  rw [rowsUnder, List.mem_filter, beq_iff_eq]

/-- Only the codes that there are need be looked at. -/
theorem rearranged_iff :
    b.Rearranged c ↔ c.header = b.header ∧
      ∀ row ∈ b.rows ++ c.rows, c.rowsUnder (b.codeOf row) = b.rowsUnder (b.codeOf row) := by
  refine ⟨fun h => ⟨h.header, fun row _ => h.rows _⟩, fun ⟨hheader, hrows⟩ => ⟨hheader, ?_⟩⟩
  intro code
  have hcodeOf (row : Row) : c.codeOf row = b.codeOf row := by
    rw [codeOf, codeOf, column?, column?, hheader]
  by_cases hcode : ∃ row ∈ b.rows ++ c.rows, b.codeOf row = code
  · obtain ⟨row, hrow, rfl⟩ := hcode
    exact hrows row hrow
  · have hnone {d : Block} (hd : ∀ row ∈ d.rows, d.codeOf row ≠ code) : d.rowsUnder code = [] :=
      List.eq_nil_iff_forall_not_mem.2 fun row hrow =>
        hd row (mem_rowsUnder.1 hrow).1 (mem_rowsUnder.1 hrow).2
    rw [hnone fun row hrow h => hcode ⟨row, List.mem_append_left _ hrow, h⟩, hnone]
    intro row hrow h
    exact hcode ⟨row, List.mem_append_right _ hrow, (hcodeOf row).symm.trans h⟩

instance (b c : Block) : Decidable (b.Rearranged c) :=
  decidable_of_iff _ rearranged_iff.symm

instance (b : Block) : Decidable b.Coded :=
  decidable_of_iff (b.layout?.all (fun | .comment _ => false | _ => true) = true) <| by
    unfold Coded
    rcases b.layout? with _ | _ | _ | _ <;> simp

theorem Rearranged.perm (h : b.Rearranged c) : c.rows.Perm b.rows := by
  rw [List.perm_iff_count]
  intro row
  -- a row is counted among those with its code
  have hcount {d : Block} : (d.rowsUnder (d.codeOf row)).count row = d.rows.count row :=
    List.count_filter (beq_self_eq_true _)
  have hcodeOf : c.codeOf row = b.codeOf row := by
    rw [codeOf, codeOf, column?, column?, h.header]
  rw [← hcount, ← hcount, h.rows, hcodeOf]

theorem layout?_eq (b : Block) : b.layout? = layoutOf? b.header := rfl

theorem Rearranged.layout? (h : b.Rearranged c) : c.layout? = b.layout? := by
  rw [c.layout?_eq, b.layout?_eq, h.header]

theorem coded_of_rearranged (h : List.Forall₂ Rearranged blocks blocks')
    (hblocks : ∀ b ∈ blocks, b.Coded) : ∀ c ∈ blocks', c.Coded := by
  induction h with
  | nil => exact hblocks
  | cons hbc _ ih =>
    obtain ⟨hb, hbs⟩ := List.forall_mem_cons.1 hblocks
    exact List.forall_mem_cons.2 ⟨fun l => hbc.layout? ▸ hb l, ih hbs⟩

/-- The rows of a block that is not about comments have their codes in the code column. -/
theorem Coded.code?_eq (hb : b.Coded) (h : b.layout? = some layout) (row : Row) :
    Task.code? ⟨layout, row⟩ = some (b.codeOf row) := by
  have hlayout : b.assessmentLayout? = some layout := by
    have hcomment := hb
    unfold Coded at hcomment
    rw [h] at hcomment
    unfold Block.layout? at h
    split at h
    · exact h
    · split at h
      · simp only [commentLayout?, bind, Option.bind_eq_some_iff, pure, Option.some.injEq] at h
        obtain ⟨_, -, _, -, rfl⟩ := h
        exact absurd rfl (hcomment _)
      · cases h
  obtain ⟨column, hcolumn, rfl⟩ := Option.map_eq_some_iff.1 hlayout
  rw [codeOf, hcolumn]
  cases b.column? Column.state <;> rfl

theorem code?_ne_none_of_coded (hblocks : ∀ b ∈ blocks, b.Coded) :
    ∀ task ∈ tasks blocks, task.code? ≠ none := by
  intro task htask
  obtain ⟨b, hb, hmem⟩ := List.mem_flatMap.1 htask
  cases hlayout : b.layout? with
  | none =>
    rw [hlayout] at hmem
    cases hmem
  | some layout =>
    rw [hlayout] at hmem
    obtain ⟨row, -, rfl⟩ := List.mem_map.1 hmem
    rw [(hblocks b hb).code?_eq hlayout row]
    exact Option.some_ne_none _

theorem Coded.under_tasks (hb : b.Coded) (code : String) :
    Task.under code (tasks [b]) =
      match b.layout? with
      | none => []
      | some layout => (b.rowsUnder code).map fun row => (⟨layout, row⟩ : Task) := by
  rw [tasks, List.flatMap_singleton]
  cases hlayout : b.layout? with
  | none => rfl
  | some layout =>
    have hcode : (fun task : Task => task.code? == some code) ∘ (fun row => ⟨layout, row⟩) =
        fun row => b.codeOf row == code := by
      funext row
      rw [Function.comp_apply, hb.code?_eq hlayout]
      rfl
    dsimp only
    rw [Task.under, List.filter_map, hcode, rowsUnder]

theorem under_tasks_of_rearranged (h : List.Forall₂ Rearranged blocks blocks')
    (hblocks : ∀ b ∈ blocks, b.Coded) (code : String) :
    Task.under code (tasks blocks') = Task.under code (tasks blocks) := by
  induction h with
  | nil => rfl
  | @cons b c bs cs hbc _ ih =>
    obtain ⟨hb, hbs⟩ := List.forall_mem_cons.1 hblocks
    have hc : c.Coded := fun l => hbc.layout? ▸ hb l
    rw [tasks_cons c, tasks_cons b, under_append, under_append, ih hbs, hb.under_tasks,
      hc.under_tasks, hbc.layout?, hbc.rows]

end Block

end Codes

/-! ## Codes that no assessment has -/

namespace Run

variable {s : Store} {r : Run} {today : Date} {key : String} {tasks : List Task}

theorem mem_errors_foldl_of_unknown (hk : r.store.Keyed)
    (hn : ∀ a ∈ r.store.assessments, a.slug ≠ key) (hcodes : ∀ task ∈ tasks, task.code? ≠ none) :
    key ∈ (tasks.foldl (Run.apply today) r).report.errors ↔
      key ∈ r.report.errors ∨ Task.under key tasks ≠ [] := by
  rw [mem_errors_foldl_iff hk]
  refine or_congr_right ⟨?_, fun hunder => ?_⟩
  · rintro ⟨before, task, after, rfl, -, hkey⟩
    obtain ⟨code, hcode⟩ := Option.ne_none_iff_exists'.1
      (hcodes task (List.mem_append_right _ List.mem_cons_self))
    have hown : code = key := (Task.key_of_code hcode).symm.trans hkey
    exact List.ne_nil_of_mem (List.mem_filter.2
      ⟨List.mem_append_right _ List.mem_cons_self, by simp [hcode, hown]⟩)
  · obtain ⟨task, htask⟩ := List.exists_mem_of_ne_nil _ hunder
    obtain ⟨hmem, hcode⟩ := List.mem_filter.1 htask
    replace hcode : task.code? = some key := by simpa using hcode
    obtain ⟨before, after, rfl⟩ := List.append_of_mem hmem
    refine ⟨before, task, after, rfl, .unknownAssessment hcode fun a ha => ?_,
      Task.key_of_code hcode⟩
    -- the slugs are those before the first row
    obtain ⟨b, hb, -, hslug, -⟩ := (Store.sameFrame_foldl hk today before).exists_before ha
    exact hslug ▸ hn b hb

theorem not_mem_warnings_foldl_of_unknown (hk : r.store.Keyed)
    (hn : ∀ a ∈ r.store.assessments, a.slug ≠ key) (h : key ∉ r.report.warnings)
    (tasks : List Task) : key ∉ (tasks.foldl (Run.apply today) r).report.warnings := by
  induction tasks generalizing r with
  | nil => exact h
  | cons task tasks ih =>
    have hframe := sameFrame_apply today hk task
    refine ih (hframe.keyed hk) (fun a ha => ?_) ?_
    · obtain ⟨b, hb, -, hslug, -⟩ := hframe.exists_before ha
      exact hslug ▸ hn b hb
    · by_cases hkey : task.layout.key task.row = key
      · cases hcode : task.code? with
        | none => rwa [warnings_apply_of_comment hcode]
        | some code =>
          obtain rfl : code = key := (Task.key_of_code hcode).symm.trans hkey
          have hnone : r.store.assessmentBySlug? code = none := by
            rw [Store.assessmentBySlug?, List.find?_eq_none]
            intro a ha
            simpa using hn a ha
          rw [apply, step, Store.applyRow_of_unknown_code hcode hnone]
          exact h
      · rwa [mem_warnings_apply_of_ne hkey]

end Run

/-! ## Runs over the same rows with each code -/

namespace Store

variable {s t u : Store} {id : Int} {x : Dossier}

theorem SameOn.symm (h : s.SameOn t id) : t.SameOn s id :=
  ⟨h.assessment.symm, h.held.symm, h.evidence.symm⟩

theorem sameOn_of_dossier? (hs : s.dossier? id = some x) (ht : t.dossier? id = some x) :
    s.SameOn t id := by
  obtain ⟨has, hhs, hes⟩ := dossier?_eq_some_iff.1 hs
  obtain ⟨hat, hht, het⟩ := dossier?_eq_some_iff.1 ht
  exact ⟨hat.trans has.symm, hht.symm.trans hhs, het.symm.trans hes⟩

/-- Over one frame the table of assessments is told by the look-ups. -/
theorem SameFrame.assessments_eq (h : s.SameFrame t) (hk : s.Keyed)
    (hsame : ∀ a ∈ s.assessments, t.assessment? a.id = s.assessment? a.id) :
    t.assessments = s.assessments := by
  have hmap := h.assessments_eq_map hk (f := fun a => a) fun a ha =>
    (hsame a ha).trans (hk.assessment?_eq_some_iff.2 ⟨ha, rfl⟩)
  rwa [List.map_id'] at hmap

end Store

namespace Run

variable {s : Store} {today : Date} {blocks blocks' : List Block}

/-- Imports with the same rows under each code make the same of each assessment. -/
theorem sameOn_of_under (hk : s.Keyed) (today : Date)
    (hunder : ∀ code, Task.under code (Block.tasks blocks') = Task.under code (Block.tasks blocks))
    (id : Int) :
    (s.importBlocks today blocks).store.SameOn (s.importBlocks today blocks').store id := by
  cases ha : s.assessment? id with
  | none =>
    have hleft : s.SameOn (s.importBlocks today blocks).store id :=
      sameOn_importBlocks_of_unknown hk ha blocks
    exact hleft.symm.trans (sameOn_importBlocks_of_unknown hk ha blocks')
  | some a =>
    have hx := Store.dossier?_of_assessment? ha
    have hright := dossier?_importBlocks today hk (.refl s) hx blocks'
    rw [hunder] at hright
    exact Store.sameOn_of_dossier? (dossier?_importBlocks today hk (.refl s) hx blocks) hright

/-- Imports of the same rows under each code, none of them a comment, report the same if they
report the same slugs. -/
theorem report_eq_of_slugs {t : Store} {again : Date} (hk : s.Keyed) (hf : s.SameFrame t)
    (hunder : ∀ code, Task.under code (Block.tasks blocks') = Task.under code (Block.tasks blocks))
    (hcodes : ∀ task ∈ Block.tasks blocks, task.code? ≠ none)
    (hcodes' : ∀ task ∈ Block.tasks blocks', task.code? ≠ none)
    (herrors : ∀ a ∈ s.assessments, a.slug ∈ (t.importBlocks again blocks').report.errors ↔
      a.slug ∈ (s.importBlocks today blocks).report.errors)
    (hwarnings : ∀ a ∈ s.assessments, a.slug ∈ (t.importBlocks again blocks').report.warnings ↔
      a.slug ∈ (s.importBlocks today blocks).report.warnings) :
    (t.importBlocks again blocks').report = (s.importBlocks today blocks).report := by
  have hkt := hf.keyed hk
  have hunknown {key : String} (hn : ¬ ∃ a ∈ s.assessments, a.slug = key) :
      (∀ a ∈ s.assessments, a.slug ≠ key) ∧ ∀ b ∈ t.assessments, b.slug ≠ key := by
    refine ⟨fun a ha hslug => hn ⟨a, ha, hslug⟩, fun b hb hslug => ?_⟩
    obtain ⟨a, ha, -, hab, -⟩ := hf.exists_before hb
    exact hn ⟨a, ha, hab.symm.trans hslug⟩
  have hsets : (t.importBlocks again blocks').report.errors =
        (s.importBlocks today blocks).report.errors ∧
      (t.importBlocks again blocks').report.warnings =
        (s.importBlocks today blocks).report.warnings := by
    refine ⟨TextSet.ext_mem fun key => ?_, TextSet.ext_mem fun key => ?_⟩
    · by_cases hkey : ∃ a ∈ s.assessments, a.slug = key
      · obtain ⟨a, ha, rfl⟩ := hkey
        exact herrors a ha
      · obtain ⟨hns, hnt⟩ := hunknown hkey
        rw [Store.importBlocks_eq, Store.importBlocks_eq,
          mem_errors_foldl_of_unknown (r := Run.start t) hkt hnt hcodes',
          mem_errors_foldl_of_unknown (r := Run.start s) hk hns hcodes, hunder]
        rfl
    · by_cases hkey : ∃ a ∈ s.assessments, a.slug = key
      · obtain ⟨a, ha, rfl⟩ := hkey
        exact hwarnings a ha
      · obtain ⟨hns, hnt⟩ := hunknown hkey
        have hempty := TextSet.not_mem_empty key
        rw [Store.importBlocks_eq, Store.importBlocks_eq]
        exact iff_of_false
          (not_mem_warnings_foldl_of_unknown (r := Run.start t) hkt hnt hempty _)
          (not_mem_warnings_foldl_of_unknown (r := Run.start s) hk hns hempty _)
  calc (t.importBlocks again blocks').report
      = ⟨(t.importBlocks again blocks').report.errors,
          (t.importBlocks again blocks').report.warnings⟩ := rfl
    _ = (s.importBlocks today blocks).report := by rw [hsets.1, hsets.2]

theorem report_of_under (hk : s.Keyed) (today : Date)
    (hunder : ∀ code, Task.under code (Block.tasks blocks') = Task.under code (Block.tasks blocks))
    (hcodes : ∀ task ∈ Block.tasks blocks, task.code? ≠ none)
    (hcodes' : ∀ task ∈ Block.tasks blocks', task.code? ≠ none) :
    (s.importBlocks today blocks').report = (s.importBlocks today blocks).report := by
  refine report_eq_of_slugs hk (.refl s) hunder hcodes hcodes' (fun a ha => ?_) (fun a ha => ?_)
  · obtain ⟨x, hx, rfl⟩ := hk.exists_dossier ha
    rw [mem_errors_importBlocks today hk (.refl s) hx rfl
        fun task htask hcode => absurd hcode (hcodes' task htask),
      mem_errors_importBlocks today hk (.refl s) hx rfl
        fun task htask hcode => absurd hcode (hcodes task htask), hunder]
  · obtain ⟨x, hx, rfl⟩ := hk.exists_dossier ha
    rw [mem_warnings_importBlocks today hk (.refl s) hx rfl,
      mem_warnings_importBlocks today hk (.refl s) hx rfl, hunder]

end Run

/-- Rows of different assessments are independent: in whatever order the rows of each block come,
as long as those with one code keep theirs, an import without comments leaves the same assessments,
the same values and the same evidence of each, in the same order, and reports the same. -/
theorem rows_independent {s : Store} (hk : s.Keyed) (today : Date) {blocks blocks' : List Block}
    (hblocks : ∀ b ∈ blocks, b.Coded) (h : List.Forall₂ Block.Rearranged blocks blocks') :
    (s.importBlocks today blocks').store.assessments =
        (s.importBlocks today blocks).store.assessments ∧
      (∀ id, (s.importBlocks today blocks).store.SameOn (s.importBlocks today blocks').store id) ∧
      (s.importBlocks today blocks').report = (s.importBlocks today blocks).report := by
  have hunder := Block.under_tasks_of_rearranged h hblocks
  have hsame := Run.sameOn_of_under hk today hunder
  have hframe : s.SameFrame (s.importBlocks today blocks).store := Run.sameFrame_importBlocks hk _
  have hframe' : s.SameFrame (s.importBlocks today blocks').store :=
    Run.sameFrame_importBlocks hk _
  refine ⟨?_, hsame, ?_⟩
  · exact (hframe.symm.trans hframe').assessments_eq (hframe.keyed hk) fun a _ =>
      (hsame a.id).assessment
  · exact Run.report_of_under hk today hunder (Block.code?_ne_none_of_coded hblocks)
      (Block.code?_ne_none_of_coded (Block.coded_of_rearranged h hblocks))

/-- Rows of two assessments by turns, with one that has no assessment. -/
def interleavedBlocks : List Block :=
  [⟨[Column.assessment, Column.code, "Note", Column.evidenceUrl],
      [["", "A-1", "first", "a.example"], ["", "A-2", "other", "b.example"], ["", "A-3", "lost", ""],
        ["", " A-1", "second", "c.example"]]⟩,
    ⟨[Column.assessment, Column.code, Column.state],
      [["", "A-1", "completed"], ["", "A-2", "done"]]⟩]

/-- The same rows, those of the second assessment first. -/
def regroupedBlocks : List Block :=
  [⟨[Column.assessment, Column.code, "Note", Column.evidenceUrl],
      [["", "A-2", "other", "b.example"], ["", "A-1", "first", "a.example"],
        ["", " A-1", "second", "c.example"], ["", "A-3", "lost", ""]]⟩,
    ⟨[Column.assessment, Column.code, Column.state],
      [["", "A-2", "done"], ["", "A-1", "completed"]]⟩]

/-- The rows of the table of evidence are numbered otherwise, but what it holds of each assessment
is the same, and so is the report. -/
theorem rows_independent_of_turns :
    (verifiedStore.importBlocks ⟨2024, 5, 17⟩ regroupedBlocks).store.evidence ≠
        (verifiedStore.importBlocks ⟨2024, 5, 17⟩ interleavedBlocks).store.evidence ∧
      (∀ id, (verifiedStore.importBlocks ⟨2024, 5, 17⟩ interleavedBlocks).store.SameOn
        (verifiedStore.importBlocks ⟨2024, 5, 17⟩ regroupedBlocks).store id) ∧
      (verifiedStore.importBlocks ⟨2024, 5, 17⟩ regroupedBlocks).report =
        (verifiedStore.importBlocks ⟨2024, 5, 17⟩ interleavedBlocks).report := by
  have hkeyed : verifiedStore.Keyed := ⟨by decide, by decide, by decide⟩
  have hmoved : List.Forall₂ Block.Rearranged interleavedBlocks regroupedBlocks :=
    .cons (by decide +kernel) (.cons (by decide +kernel) .nil)
  obtain ⟨-, hsame, hreport⟩ :=
    rows_independent hkeyed ⟨2024, 5, 17⟩ (by decide +kernel) hmoved
  exact ⟨by decide +kernel, hsame, hreport⟩

end BulkAssessment
