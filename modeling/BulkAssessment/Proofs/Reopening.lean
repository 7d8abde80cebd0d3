import BulkAssessment.Proofs.Effects

/-!
# When an attributes row reopens an assessment

While a row is applied, a flag keeps track of whether the assessment is affected: it is raised by a
cell that is not the same in effect as what is held, and by a link that is attached. As long as the
titles of the row differ, no cell undoes what an earlier one has done, and so the flag tells in the
end whether the values or the evidence of the assessment differ from those before the row
(`Dossier.affected_iff`). So a row reopens an assessment exactly if it changed it
(`reopened_iff_changed`).
-/

namespace BulkAssessment

namespace Draft

variable {s : Store} {p : Draft} {row : Row}

/-- A cell says something else in effect than what is held. -/
def Differs (s : Store) (p : Draft) (title raw : String) : Prop :=
  ∃ definitionId c, s.writes? p.dossier.assessment.id definitionId title raw = some c ∧
    (CellValue.ofStored (p.dossier.held definitionId)).effective ≠ c.effective

theorem affected_put (d : Definition) (c : CellValue) :
    (p.put d c).affected = true ↔ p.affected = true ∨
      (CellValue.ofStored (p.dossier.held d.id)).effective ≠ c.effective := by
  unfold put
  split
  · rename_i hsame
    simp [hsame]
  · rename_i hdiffers
    exact iff_of_true rfl (.inr hdiffers)

theorem affected_applyCell (title raw : String) :
    (p.applyCell s title raw).affected = true ↔ p.affected = true ∨ p.Differs s title raw := by
  simp only [Differs, writes?_eq_some_iff]
  unfold applyCell
  cases s.definitionTitled? p.dossier.assessment.id title with
  | none => simp [skip]
  | some d =>
    dsimp only
    cases hc : s.cellValue? d raw with
    | none => simp [skip, hc]
    | some c => simp [affected_put, hc]

/-- A cell has no part in whether a cell under another title says something else than what is
held. -/
theorem differs_applyCell (hk : s.Keyed) {column other : Nat × String}
    (hother : other.2 ≠ column.2) :
    (p.applyCell s column.2 (cell row column.1)).Differs s other.2 (cell row other.1) ↔
      p.Differs s other.2 (cell row other.1) := by
  unfold Differs
  rw [assessment_applyCell]
  refine exists_congr fun definitionId => exists_congr fun c => and_congr_right fun hc => ?_
  have hnone : s.writes? p.dossier.assessment.id definitionId column.2 (cell row column.1) =
      none := by
    exact Option.eq_none_iff_forall_ne_some.2 fun e he => hother (title_eq_of_writes? hk he hc)
  rw [held_applyCell_writes, hnone]

/-- Cells under different titles raise the flag if one of them says something else than what is held
at first. -/
theorem affected_foldl_applyCell (hk : s.Keyed) {columns : List (Nat × String)}
    (hnodup : (columns.map Prod.snd).Nodup) :
    (columns.foldl (fun p column => p.applyCell s column.2 (cell row column.1)) p).affected = true ↔
      p.affected = true ∨ ∃ column ∈ columns, p.Differs s column.2 (cell row column.1) := by
  induction columns generalizing p with
  | nil => simp
  | cons column columns ih =>
    obtain ⟨hfresh, hrest⟩ := List.nodup_cons.1 hnodup
    have hlater : (∃ other ∈ columns, (p.applyCell s column.2 (cell row column.1)).Differs s other.2
        (cell row other.1)) ↔ ∃ other ∈ columns, p.Differs s other.2 (cell row other.1) := by
      refine exists_congr fun other => and_congr_right fun hmem => differs_applyCell hk ?_
      exact fun htitle => hfresh (htitle ▸ List.mem_map_of_mem hmem)
    rw [List.foldl_cons, ih hrest, affected_applyCell, hlater]
    simp only [List.mem_cons, exists_eq_or_imp, or_assoc]

theorem attach_cases (p : Draft) (kind : EvidenceKind) (link : String) :
    p.attach kind link = p ∨ (p.attach kind link).affected = true ∧
      (p.attach kind link).dossier.evidence.length = p.dossier.evidence.length + 1 := by
  unfold attach
  split
  · exact .inl rfl
  · exact .inr ⟨rfl, List.length_append⟩

theorem length_evidence_foldl_attach (p : Draft) (kind : EvidenceKind) (links : List String) :
    p.dossier.evidence.length ≤ (links.foldl (attach kind) p).dossier.evidence.length := by
  induction links generalizing p with
  | nil => exact Nat.le_refl _
  | cons link links ih =>
    refine Nat.le_trans ?_ (ih _)
    rcases p.attach_cases kind link with hsame | ⟨-, hlength⟩
    · rw [hsame]
    · omega

theorem affected_foldl_attach (p : Draft) (kind : EvidenceKind) (links : List String) :
    (links.foldl (attach kind) p).affected = true ↔ p.affected = true ∨
      p.dossier.evidence.length < (links.foldl (attach kind) p).dossier.evidence.length := by
  induction links generalizing p with
  | nil => simp
  | cons link links ih =>
    rw [List.foldl_cons, ih]
    rcases p.attach_cases kind link with hsame | ⟨haffected, hlength⟩
    · rw [hsame]
    · have hgrown := length_evidence_foldl_attach (p.attach kind link) kind links
      exact iff_of_true (.inl haffected) (.inr (by omega))

end Draft

namespace Dossier

/-- A dossier holds another value in effect, or more evidence, than another one. -/
def ChangedTo (x y : Dossier) : Prop :=
  (∃ definitionId, (CellValue.ofStored (y.held definitionId)).effective ≠
    (CellValue.ofStored (x.held definitionId)).effective) ∨ x.evidence.length < y.evidence.length

variable {s : Store} {today : Date} {x : Dossier} {l : AttributesLayout} {row : Row}

/-- If the titles of a row differ, a cell says something else than what is held exactly if a value
is another one after the row. -/
theorem exists_differs_iff (hk : s.Keyed) (hnodup : (l.attributes.map Prod.snd).Nodup) :
    (∃ column ∈ l.attributes,
        Draft.Differs s ⟨x, false, false⟩ column.2 (cell row column.1)) ↔
      ∃ definitionId,
        (CellValue.ofStored ((x.after s today ⟨.attributes l, row⟩).held definitionId)).effective ≠
          (CellValue.ofStored (x.held definitionId)).effective := by
  constructor
  · rintro ⟨column, hcolumn, definitionId, c, hc, hdiffers⟩
    refine ⟨definitionId, fun hsame => hdiffers ?_⟩
    rw [← hsame, held_after, writes_of_distinct hk hnodup hcolumn hc, List.foldl_cons,
      List.foldl_nil, effective_overwrite]
  · rintro ⟨definitionId, hdiffers⟩
    rw [held_after] at hdiffers
    obtain ⟨column, hcolumn, c, hc, hwrites⟩ | ⟨-, hwrites⟩ :=
      writes_cases hk hnodup x.assessment.id definitionId
    · rw [hwrites, List.foldl_cons, List.foldl_nil, effective_overwrite] at hdiffers
      exact ⟨column, hcolumn, definitionId, c, hc, hdiffers.symm⟩
    · rw [hwrites] at hdiffers
      exact absurd rfl hdiffers

theorem affected_iff (hk : s.Keyed) (hnodup : (l.attributes.map Prod.snd).Nodup) :
    (applyEvidence (x.applyCells s l row) l row).affected = true ↔
      x.ChangedTo (x.after s today ⟨.attributes l, row⟩) := by
  have hevidence : (x.after s today ⟨.attributes l, row⟩).evidence =
      (applyEvidence (x.applyCells s l row) l row).dossier.evidence := by
    rw [after_attributes, applyAttributes, evidence_finish]
  have hflag : (x.applyCells s l row).affected = true ↔ ∃ column ∈ l.attributes,
      Draft.Differs s ⟨x, false, false⟩ column.2 (cell row column.1) := by
    rw [applyCells, Draft.affected_foldl_applyCell hk hnodup]
    exact or_iff_right Bool.false_ne_true
  have hcells : (x.applyCells s l row).dossier.evidence = x.evidence := evidence_applyCells x l row
  have hurls := Draft.length_evidence_foldl_attach (x.applyCells s l row) .url
    (evidenceLines (cellOf row l.urls))
  have hfiles := Draft.length_evidence_foldl_attach
    ((evidenceLines (cellOf row l.urls)).foldl (Draft.attach .url) (x.applyCells s l row)) .file
    (evidenceLines (cellOf row l.files))
  rw [ChangedTo, ← exists_differs_iff hk hnodup, hevidence, ← hflag, ← hcells, applyEvidence,
    Draft.affected_foldl_attach, Draft.affected_foldl_attach, or_assoc]
  -- the evidence grows in all if it grows by the links or by the files
  refine or_congr_right ?_
  omega

theorem assessment_after_attributes (hk : s.Keyed) (hnodup : (l.attributes.map Prod.snd).Nodup) :
    (reopens x.assessment.status = true ∧ x.ChangedTo (x.after s today ⟨.attributes l, row⟩) →
      (x.after s today ⟨.attributes l, row⟩).assessment =
        { x.assessment with status := State.inProgress.name }) ∧
    (¬ (reopens x.assessment.status = true ∧
        x.ChangedTo (x.after s today ⟨.attributes l, row⟩)) →
      (x.after s today ⟨.attributes l, row⟩).assessment = x.assessment) := by
  have hsame : (applyEvidence (x.applyCells s l row) l row).dossier.assessment =
      x.assessment := by simp
  rw [← affected_iff hk hnodup, after_attributes, applyAttributes, Draft.finish, hsame,
    ← Bool.and_eq_true_iff]
  constructor
  · intro hreopened
    rw [if_pos hreopened, transit, hsame]
    rfl
  · intro hkept
    rw [if_neg hkept, hsame]

end Dossier

namespace Store

/-- What is stored on an object differs in effect, or there is more evidence of it. -/
def ChangedOn (s t : Store) (id : Int) : Prop :=
  (∃ definitionId, (CellValue.ofStored (t.value? definitionId id)).effective ≠
    (CellValue.ofStored (s.value? definitionId id)).effective) ∨
  (s.evidenceOf id).length < (t.evidenceOf id).length

theorem changedOn_iff {s t : Store} {id : Int} {x y : Dossier} (hx : s.dossier? id = some x)
    (hy : t.dossier? id = some y) : s.ChangedOn t id ↔ x.ChangedTo y := by
  obtain ⟨-, hxheld, hxevidence⟩ := dossier?_eq_some_iff.1 hx
  obtain ⟨-, hyheld, hyevidence⟩ := dossier?_eq_some_iff.1 hy
  simp only [ChangedOn, Dossier.ChangedTo, hxheld, hyheld, hxevidence, hyevidence, ofStored_heldBy]

end Store

theorem reopens_iff {status : String} : reopens status = true ↔
    status ∈ [State.notStarted, .inReview, .verified, .completed].map State.name := by
  simp only [reopens, isDone, State.done, List.map_cons, List.map_nil, List.contains_eq_mem,
    Bool.or_eq_true, decide_eq_true_eq, beq_iff_eq, List.mem_cons, List.not_mem_nil, or_false]
  tauto

/-- An accepted attributes row with different titles reopens its assessment exactly if that was not
started or finished and the row has changed a value in effect or added evidence. Nothing else about
the assessment changes, its dates included. -/
theorem reopened_iff_changed {s t : Store} {today : Date} {l : AttributesLayout} {row : Row}
    {warned : Bool} (hk : s.Keyed) (hnodup : (l.attributes.map Prod.snd).Nodup)
    (h : s.applyRow today row (.attributes l) = .ok (t, warned)) :
    ∃ a ∈ s.assessments, a.slug = cell row l.code ∧ ∃ b, t.assessment? a.id = some b ∧
      (a.status ∈ [State.notStarted, .inReview, .verified, .completed].map State.name ∧
        s.ChangedOn t a.id → b = { a with status := State.inProgress.name }) ∧
      (¬ (a.status ∈ [State.notStarted, .inReview, .verified, .completed].map State.name ∧
        s.ChangedOn t a.id) → b = a) := by
  obtain ⟨x, hx, hcode, hamends, -⟩ := Store.applyRow_attributes_eq_ok hk h
  refine ⟨x.assessment, Store.mem_of_dossier? hx, hcode, _,
    (Store.dossier?_eq_some_iff.1 hamends.own).1, ?_⟩
  rw [← reopens_iff, Store.changedOn_iff hx hamends.own]
  exact Dossier.assessment_after_attributes hk hnodup

/-- The row that fills in the form has changed something, for the assessment was completed. -/
theorem reopened_iff_changed_form :
    formStore.ChangedOn formStoreAfter 1 ∧
      (formStoreAfter.assessment? 1).map Assessment.status = some State.inProgress.name := by
  have hkeyed : formStore.Keyed := ⟨by decide, by decide, by decide⟩
  have h : formStore.applyRow ⟨2024, 5, 17⟩ formRow (.attributes formLayout) =
      .ok (formStoreAfter, true) := by decide +kernel
  obtain ⟨a, ha, -, b, hb, -, hkept⟩ := reopened_iff_changed hkeyed (by decide) h
  obtain rfl := List.mem_singleton.1 ha
  have hstatus : (formStoreAfter.assessment? 1).map Assessment.status =
      some State.inProgress.name := by decide
  refine ⟨?_, hstatus⟩
  by_contra hsame
  rw [hb, hkept fun hchanged => hsame hchanged.2] at hstatus
  exact absurd hstatus (by decide)

end BulkAssessment
