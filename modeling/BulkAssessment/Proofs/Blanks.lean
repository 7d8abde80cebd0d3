import BulkAssessment.Proofs.Review

/-!
# What saving does to a single value

The attributes block has a column for each title of the request, and each of its rows has a
cell in each of these columns. The cell of a title under which nothing was submitted for the
assessment is empty, and an empty cell is a value like any other (`CellValue.blank`).

So a definition can lose its value although nothing was submitted for it: exactly if another
assessment of the request has a submission under its title (`Store.HasColumn`). The value is then
that of an empty cell, unless it was that in effect already; otherwise it stays.
-/

namespace BulkAssessment

/-- What an empty cell says for a definition. -/
def CellValue.blank (d : Definition) : CellValue :=
  match AttributeKind.ofName d.typeName with
  | .checkbox => .ofText "0"
  | .person => .none
  | _ => .ofText ""

/-- What is held for a definition after a cell with a text. -/
def Store.heldAfterCell (s : Store) (objectId : Int) (d : Definition) (raw : String)
    (before : Option StoredValue) : Option StoredValue :=
  match s.cellValue? d raw with
  | none => before
  | some c => overwrite objectId d.id before c

theorem cellValue?_empty (s : Store) (d : Definition) :
    s.cellValue? d "" = some (CellValue.blank d) := by
  have hcheckbox : checkbox? "" = some "0" := by decide
  unfold Store.cellValue? CellValue.blank
  cases AttributeKind.ofName d.typeName with
  | checkbox =>
    dsimp only
    rw [hcheckbox, Option.map_some]
  | _ => rfl

/-! ## Cells -/

section Cells

variable {s : Store} {p : Draft} {c : Definition}

theorem held_put (d : Definition) (v : CellValue) (definitionId : Int) :
    (p.put d v).dossier.held definitionId =
      if definitionId = d.id then
        overwrite p.dossier.assessment.id d.id (p.dossier.held d.id) v
      else p.dossier.held definitionId := by
  unfold Draft.put
  split
  · rename_i hsame
    split
    · rename_i hid
      rw [overwrite, if_pos hsame, hid]
    · rfl
  · show (Function.update p.dossier.held d.id _) definitionId = _
    rw [Function.update_apply]

/-- A cell concerns the definition that its title stands for, and no other. -/
theorem held_applyCell (hk : s.Keyed) (hc : c ∈ s.definitions) (title raw : String) :
    (p.applyCell s title raw).dossier.held c.id =
      if s.definitionTitled? p.dossier.assessment.id title = some c then
        s.heldAfterCell p.dossier.assessment.id c raw (p.dossier.held c.id)
      else p.dossier.held c.id := by
  unfold Draft.applyCell
  cases hd : s.definitionTitled? p.dossier.assessment.id title with
  | none => rfl
  | some d =>
    dsimp only
    unfold Store.heldAfterCell
    by_cases hdc : d = c
    · subst hdc
      rw [if_pos rfl]
      cases s.cellValue? d raw with
      | none => rfl
      | some v =>
        dsimp only
        rw [held_put, if_pos rfl]
    · -- the value of another definition is another entry, since ids are unique
      have hid : c.id ≠ d.id := by
        intro hid
        have hmem := (Store.of_definitionTitled?_eq_some hd).1
        exact hdc (hk.eq_of_definitionId hmem hc hid.symm)
      have hsome : some d ≠ some c := fun h => hdc (Option.some.inj h)
      rw [if_neg hsome]
      cases s.cellValue? d raw with
      | none => rfl
      | some v =>
        dsimp only
        rw [held_put, if_neg hid]

theorem held_foldl_applyCell (hk : s.Keyed) (hc : c ∈ s.definitions) {row : Row}
    {columns : List (Nat × String)} (hnodup : (columns.map Prod.snd).Nodup) {raw : String}
    (hraw : ∀ column ∈ columns, column.2 = c.title → cell row column.1 = raw) :
    (columns.foldl (fun p column => p.applyCell s column.2 (cell row column.1)) p).dossier.held
        c.id =
      if c.title ∈ columns.map Prod.snd ∧
          s.definitionTitled? p.dossier.assessment.id c.title = some c then
        s.heldAfterCell p.dossier.assessment.id c raw (p.dossier.held c.id)
      else p.dossier.held c.id := by
  induction columns generalizing p with
  | nil => simp
  | cons column columns ih =>
    obtain ⟨j, title⟩ := column
    obtain ⟨hfresh, hrest⟩ := List.nodup_cons.1 hnodup
    have hstep := held_applyCell (p := p) hk hc title (cell row j)
    have hlater : ∀ column ∈ columns, column.2 = c.title → cell row column.1 = raw :=
      fun column hcolumn => hraw column (List.mem_cons_of_mem _ hcolumn)
    rw [List.foldl_cons, ih hrest hlater, Draft.assessment_applyCell, hstep]
    simp only [List.map_cons, List.mem_cons]
    by_cases htitle : title = c.title
    · subst htitle
      -- no later column has this title, so what this cell stores is there at the end
      rw [if_neg fun h => hfresh h.1, hraw _ List.mem_cons_self rfl]
      simp only [true_or, true_and]
    · have hother : s.definitionTitled? p.dossier.assessment.id title ≠ some c := fun h =>
        htitle (Store.of_definitionTitled?_eq_some h).2.symm
      rw [if_neg hother]
      simp only [Ne.symm htitle, false_or]

end Cells

/-! ## Rows -/

section Rows

variable {s : Store} {request : BulkRequest} {today : Date} {id : Int} {x : Dossier}
  {c : Definition}

theorem held_after_attributes (l : AttributesLayout) (row : Row) :
    (x.after s today ⟨.attributes l, row⟩).held = (x.applyCells s l row).dossier.held := by
  have hattach : ∀ (kind : EvidenceKind) (p : Draft) (link : String),
      (p.attach kind link).dossier.held = p.dossier.held := by
    intro kind p link
    unfold Draft.attach
    split <;> rfl
  have hevidence : (Dossier.applyEvidence (x.applyCells s l row) l row).dossier.held =
      (x.applyCells s l row).dossier.held :=
    (foldl_keeps (f := fun p : Draft => p.dossier.held) (fun p link _ => hattach .file p link)
      _).trans
        (foldl_keeps (f := fun p : Draft => p.dossier.held) (fun p link _ => hattach .url p link) _)
  rw [Dossier.after_attributes, ← hevidence]
  unfold Dossier.applyAttributes Draft.finish
  dsimp only
  split <;> rfl

theorem held_after_of_order {task : Task} {o : Order} (ho : task.order? = some o) :
    (x.after s today task).held = x.held := by
  rw [Dossier.after_of_order today ho, Dossier.held_obey]

/-- One of the attribute columns of a request stands for a definition of an assessment: there
are attribute columns, since no title is that of the state column, and the title of the
definition heads one of them and stands for it. -/
def Store.HasColumn (s : Store) (request : BulkRequest) (id : Int) (c : Definition) : Prop :=
  Column.state ∉ request.titles ∧ c.title ∈ request.titles ∧ c.title ∉ Block.fixedColumns ∧
    s.definitionTitled? id c.title = some c

instance : Decidable (s.HasColumn request id c) :=
  inferInstanceAs (Decidable (_ ∧ _))

theorem held_after_savingTask (hk : s.Keyed) (hc : c ∈ s.definitions) (id : Int) (x : Dossier) :
    (x.after s today (s.savingTask request id)).held c.id =
      if s.HasColumn request x.assessment.id c then
        s.heldAfterCell x.assessment.id c (s.cellText request id c.title) (x.held c.id)
      else x.held c.id := by
  by_cases hstate : Column.state ∈ request.titles
  · rw [held_after_of_order (order?_savingTask hstate id), if_neg fun h => h.1 hstate]
  have hnodup : ((Block.attributeColumns 4 request.titles).map Prod.snd).Nodup := by
    rw [titles_attributeColumns]
    exact BulkRequest.nodup_titles.filter _
  have hraw : ∀ column ∈ Block.attributeColumns 4 request.titles, column.2 = c.title →
      cell (s.savingTask request id).row column.1 = s.cellText request id c.title := by
    intro column hcolumn htitle
    obtain ⟨i, hi, hget⟩ := getElem?_of_mem_attributeColumns hcolumn
    rw [hi, ← htitle]
    exact cell_savingTask hget
  have hcells := held_foldl_applyCell (p := ⟨x, false, false⟩) hk hc hnodup hraw
  simp only [titles_attributeColumns, List.mem_filter, decide_eq_true_eq, and_assoc] at hcells
  rw [savingTask_of_not_state hstate, held_after_attributes]
  unfold Store.HasColumn
  simp only [hstate, not_false_eq_true, true_and]
  exact hcells

/-- The value after saving is what the cells of the rows that reach the assessment make of it,
one after the other. -/
theorem held_afterSaving (today : Date) (request : BulkRequest) (hk : s.Keyed)
    (hc : c ∈ s.definitions) (x : Dossier) :
    (x.afterSaving s today request).held c.id =
      if s.HasColumn request x.assessment.id c then
        (request.named.filter fun i =>
          s.leadsTo request x.assessment.slug i && request.hasValues i).foldl
            (fun v i => s.heldAfterCell x.assessment.id c (s.cellText request i c.title) v)
            (x.held c.id)
      else x.held c.id := by
  rw [Dossier.afterSaving, rowsUnder_savingRows]
  generalize request.named.filter _ = ids
  induction ids generalizing x with
  | nil => simp
  | cons i ids ih =>
    rw [List.map_cons, List.foldl_cons, ih, x.id_after, held_after_savingTask hk hc,
      List.foldl_cons]
    split <;> rfl

theorem held_run (today : Date) (hk : s.Keyed) (hx : s.dossier? id = some x) {op : Operation}
    (hop : op ≠ .verify) (request : BulkRequest) :
    ∃ z, (op.run s today request).store.dossier? id = some z ∧
      z.held = (x.afterSaving s today request).held := by
  cases op with
  | save => exact ⟨_, dossier?_runSave today hk hx request, rfl⟩
  | verify => exact absurd rfl hop
  | complete =>
    have hrun := Operation.complete.dossier?_run today hk hx request
    rw [Operation.rows, Operation.rowsUnder, List.map_append, under_append,
      List.foldl_append] at hrun
    refine ⟨_, hrun, ?_⟩
    rw [← Operation.rowsUnder, ← Operation.rowsUnder, rowsUnder_completionRows]
    refine foldl_keeps (f := Dossier.held) (fun y task htask => ?_) _
    obtain ⟨i, -, rfl⟩ := List.mem_map.1 htask
    exact held_after_of_order (order?_completionTask i)

end Rows

/-! ## Values for which nothing was submitted -/

section Unsubmitted

variable {s t : Store} {request : BulkRequest} {today : Date} {op : Operation} {appUrl : String}
  {o : Outcome} {id : Int} {a : Assessment} {c : Definition}

theorem filter_leadsTo (ha : s.assessment? id = some a)
    (hothers : ∀ i ∈ request.named, i ≠ id → Text.trim (s.slugOf request i) ≠ a.slug) :
    (request.named.filter fun i => s.leadsTo request a.slug i && request.hasValues i) =
      if request.hasValues id = true ∧ Text.trim a.slug = a.slug then [id] else [] := by
  rw [filter_leadsTo_and BulkRequest.nodup_named ha fun i hi hne _ => hothers i hi hne]
  congr 1
  rw [eq_iff_iff]
  constructor
  · rintro ⟨-, hleads, hvalues⟩
    exact ⟨hvalues, hleads⟩
  · rintro ⟨hvalues, hleads⟩
    exact ⟨named_of_hasValues hvalues, hleads, hvalues⟩

/-- Saving and completing leave alone the value for a definition for which nothing is submitted,
as long as no attribute column stands for it. If one does, because of a submission for another
assessment, then the cell of the assessment is empty, and so is the value after it, unless the
assessment has no row of its own. -/
theorem unsubmitted_value (hk : s.Keyed)
    (h : op.perform s appUrl today request = .ok (t, o)) (hop : op ≠ .verify)
    (ha : s.assessment? id = some a) (hc : c ∈ s.definitions)
    (hnone : ¬ request.Submits id c.title) :
    (¬ s.HasColumn request id c → t.heldBy id c.id = s.heldBy id c.id) ∧
    (s.HasColumn request id c →
      (∀ i ∈ request.named, i ≠ id → Text.trim (s.slugOf request i) ≠ a.slug) →
      t.heldBy id c.id =
        if request.hasValues id = true ∧ Text.trim a.slug = a.slug then
          overwrite id c.id (s.heldBy id c.id) (CellValue.blank c)
        else s.heldBy id c.id) := by
  have hx : s.dossier? id = some ⟨a, s.heldBy id, s.evidenceOf id⟩ :=
    Store.dossier?_eq_some_iff.2 ⟨ha, rfl, rfl⟩
  obtain ⟨-, rfl⟩ := Store.mem_of_assessment?_eq_some ha
  obtain ⟨z, hz, hheld⟩ := held_run today hk hx hop request
  have hrun := (Store.dossier?_eq_some_iff.1 hz).2.1
  rw [← Operation.store_of_perform h] at hrun
  have hvalue := held_afterSaving today request hk hc ⟨a, s.heldBy a.id, s.evidenceOf a.id⟩
  rw [← hrun, hheld, hvalue]
  refine ⟨fun hcolumn => if_neg hcolumn, fun hcolumn hothers => ?_⟩
  rw [if_pos hcolumn, filter_leadsTo ha hothers]
  split
  · rw [List.foldl_cons, List.foldl_nil, cellText_of_not_submits hnone]
    unfold Store.heldAfterCell
    rw [cellValue?_empty]
  · rfl

/-- Two assessments with an attribute of one title, for one of which a value is stored. -/
def sharedTitleStore : Store :=
  { Store.empty with
    assessments :=
      [⟨1, "A-1", "Backups", State.inProgress.name, "Control", none, none⟩,
        ⟨2, "A-2", "Passwords", State.inProgress.name, "Control", none, none⟩]
    definitions :=
      [⟨5, Definition.localType, some 1, "Note", "Text", false, none, none, none⟩,
        ⟨6, Definition.localType, some 2, "Note", "Text", false, none, none, none⟩,
        ⟨7, Definition.localType, some 2, "Owner", "Text", false, none, none, none⟩]
    values := [⟨1, 6, 2, some "kept", none, none⟩] }

/-- A note for the one without, and another value for the one with a note. -/
def sharedTitleRequest : BulkRequest :=
  ⟨[], [⟨1, "A-1", [⟨.string "new", "Note", "Text", some 1, 5, none⟩]⟩,
    ⟨2, "A-2", [⟨.string "me", "Owner", "Text", some 2, 7, none⟩]⟩]⟩

/-- The stored note is cleared. -/
theorem unsubmitted_value_cleared :
    ∃ t o, Operation.save.perform sharedTitleStore "" ⟨2024, 5, 17⟩ sharedTitleRequest =
        .ok (t, o) ∧
      sharedTitleStore.heldBy 2 6 = some ⟨0, 6, 2, some "kept", none, none⟩ ∧
      t.heldBy 2 6 = some ⟨0, 6, 2, some "", none, none⟩ := by
  have hkeyed : sharedTitleStore.Keyed := ⟨by decide, by decide, by decide⟩
  have ha : sharedTitleStore.assessment? 2 =
      some ⟨2, "A-2", "Passwords", State.inProgress.name, "Control", none, none⟩ := rfl
  have hc : (⟨6, Definition.localType, some 2, "Note", "Text", false, none, none, none⟩ :
      Definition) ∈ sharedTitleStore.definitions := by decide
  have hnone : ¬ sharedTitleRequest.Submits 2 "Note" := by
    unfold BulkRequest.Submits
    decide
  obtain ⟨t, o, h⟩ : ∃ t o,
      Operation.save.perform sharedTitleStore "" ⟨2024, 5, 17⟩ sharedTitleRequest = .ok (t, o) :=
    ⟨_, _, rfl⟩
  refine ⟨t, o, h, by decide, ?_⟩
  exact ((unsubmitted_value hkeyed h (by decide) ha hc hnone).2 (by decide) (by decide)).trans
    (by decide)

/-- Not every value for which nothing was submitted is kept. -/
theorem not_all_unsubmitted_kept :
    ¬ ∀ (s t : Store) (op : Operation) (appUrl : String) (today : Date) (request : BulkRequest)
        (o : Outcome), s.Keyed → op ≠ .verify →
        op.perform s appUrl today request = .ok (t, o) →
        ∀ a ∈ s.assessments, (∃ e ∈ request.entries, e.assessmentId = a.id) →
        ∀ c ∈ s.definitions, c.isLocalTo a.id = true → ¬ request.Submits a.id c.title →
          (t.value? c.id a.id).map (fun v => (v.value, v.personId)) =
            (s.value? c.id a.id).map fun v => (v.value, v.personId) := by
  intro hall
  have hkeyed : sharedTitleStore.Keyed := ⟨by decide, by decide, by decide⟩
  have hnone : ¬ sharedTitleRequest.Submits 2 "Note" := by
    unfold BulkRequest.Submits
    decide
  have hkept := hall sharedTitleStore _ .save "" ⟨2024, 5, 17⟩ sharedTitleRequest _ hkeyed
    (by decide) rfl
    ⟨2, "A-2", "Passwords", State.inProgress.name, "Control", none, none⟩ (by decide) (by decide)
    ⟨6, Definition.localType, some 2, "Note", "Text", false, none, none, none⟩ (by decide)
    (by decide) hnone
  exact absurd hkept (by decide +kernel)

end Unsubmitted

end BulkAssessment
