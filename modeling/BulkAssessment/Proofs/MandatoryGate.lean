import BulkAssessment.Proofs.Runs

/-!
# The mandatory gate

An assessment is sound if it is in review or completed only with all its mandatory values
(`Store.Sound`). Rows keep it so, for two reasons:

* an attributes row that changes anything takes a finished assessment back to `In Progress`,
  and one that changes nothing leaves the whole dossier as it was (`Draft.IdleFrom`);
* a state row moves an assessment to one of these states only with all mandatory values, or
  it verifies one that was in review, and so had them.

Soundness hence holds between any two rows of any interleaving of imports, and a verification
never completes an assessment with a mandatory value missing, although it does not ask.

Without soundness a row that verifies an assessment in review lets it pass without its mandatory
values, and no other state row does (`state_row_gate`).
-/

namespace BulkAssessment

/-- Every mandatory definition of an assessment is filled. -/
def Store.Filled (s : Store) (id : Int) : Prop :=
  ∀ d ∈ s.definitions, d.isLocalTo id = true → d.mandatory = true →
    ∃ v, s.value? d.id id = some v ∧ d.filledBy v = true

/-- The status is, letter for letter, one of those that need the mandatory values. -/
def Assessment.Gated (a : Assessment) : Prop :=
  a.status = State.inReview.name ∨ a.status = State.completed.name

/-- The assessment is in review or completed only with all its mandatory values. -/
def Store.Sound (s : Store) (a : Assessment) : Prop :=
  a.Gated → s.Filled a.id

/-- The assessment of the dossier is in review or completed only with all its mandatory
values. -/
def Dossier.Sound (s : Store) (x : Dossier) : Prop :=
  x.assessment.Gated → x.isFilled s = true

/-! ## Statuses -/

theorem reopens_of_gated {a : Assessment} (h : a.Gated) : reopens a.status = true := by
  rcases h with h | h <;> rw [h] <;> decide

theorem gated_iff {a : Assessment} {target : State} (ha : a.status = target.name) :
    a.Gated ↔ target.needsValues = true := by
  rw [Assessment.Gated, ha]
  cases target <;> decide

theorem not_gated_inProgress {a : Assessment} (ha : a.status = State.inProgress.name) :
    ¬ a.Gated := by
  rw [Assessment.Gated, ha]
  decide

/-! ## Attributes rows -/

/-- The row has changed nothing, or the assessment counts as affected. -/
def Draft.IdleFrom (x : Dossier) (p : Draft) : Prop :=
  p.affected = false → p.dossier = x

namespace Draft.IdleFrom

variable {s : Store} {x : Dossier} {p : Draft}

theorem put (h : p.IdleFrom x) (d : Definition) (c : CellValue) : (p.put d c).IdleFrom x := by
  unfold Draft.put
  split
  · exact h
  · intro haffected
    cases haffected

theorem applyCell (h : p.IdleFrom x) (title raw : String) :
    (p.applyCell s title raw).IdleFrom x := by
  unfold Draft.applyCell
  split
  · exact h
  · split
    · exact h
    · exact h.put _ _

theorem attach (h : p.IdleFrom x) (kind : EvidenceKind) (link : String) :
    (p.attach kind link).IdleFrom x := by
  unfold Draft.attach
  split
  · exact h
  · intro haffected
    cases haffected

theorem foldl {α : Type} {g : Draft → α → Draft}
    (hstep : ∀ p a, p.IdleFrom x → (g p a).IdleFrom x) (h : p.IdleFrom x) (as : List α) :
    (as.foldl g p).IdleFrom x := by
  induction as generalizing p with
  | nil => exact h
  | cons a as ih => exact ih (hstep p a h)

end Draft.IdleFrom

namespace Dossier

variable {s t : Store} {today : Date} {x y : Dossier}

/-- An attributes row that does not affect the assessment leaves its dossier as it was. -/
theorem idleFrom_applyAttributes (l : AttributesLayout) (row : Row) :
    (applyEvidence (x.applyCells s l row) l row).IdleFrom x := by
  have hstart : Draft.IdleFrom x ⟨x, false, false⟩ := fun _ => rfl
  have hcells := hstart.foldl (g := fun p c => p.applyCell s c.2 (cell row c.1))
    (fun p c h => h.applyCell c.2 (cell row c.1)) l.attributes
  have hurls := hcells.foldl (fun p link h => h.attach .url link)
    (evidenceLines (cellOf row l.urls))
  exact hurls.foldl (fun p link h => h.attach .file link) (evidenceLines (cellOf row l.files))

theorem Sound.applyAttributes (h : x.Sound s) (l : AttributesLayout) (row : Row) :
    (x.applyAttributes s l row).1.Sound s := by
  have hidle := idleFrom_applyAttributes (s := s) (x := x) l row
  have hassessment : (applyEvidence (x.applyCells s l row) l row).dossier.assessment =
      x.assessment := by simp
  unfold Dossier.applyAttributes Draft.finish
  generalize applyEvidence (x.applyCells s l row) l row = p at hidle hassessment
  dsimp only
  split
  · exact fun hgated => absurd hgated (not_gated_inProgress rfl)
  · rename_i hkept
    intro hgated
    -- an assessment that is not reopened though it could be was not affected
    have hreopens := reopens_of_gated hgated
    have hunaffected : p.affected = false := by simpa [hreopens] using hkept
    rw [hidle hunaffected] at hgated ⊢
    exact h hgated

/-! ## State rows -/

theorem isFilled_transit (t : Transition) : (x.transit t).isFilled s = x.isFilled s := rfl

/-- A state row takes the assessment to one of the gated states with all mandatory values, or,
if it has a verified date, with the assessment in review. -/
theorem gated_transit_iff {l : StateLayout} {row : Row} :
    (∃ u, x.transition s today l row = .ok u ∧ (x.transit u).assessment.Gated) ↔
      ∃ target, State.ofName? (cell row l.state) = some target ∧ target.needsValues = true ∧
        ((cellOf row l.verifiedDate).isEmpty = true ∧ x.isFilled s = true ∨
          (cellOf row l.verifiedDate).isEmpty = false ∧
            x.assessment.status = State.inReview.name ∧
            (Date.ofCell? (cellOf row l.verifiedDate)).isSome = true) := by
  have hgated (target : State) (finished verified : Option String) :
      (x.transit ⟨target.name, finished, verified⟩).assessment.Gated ↔
        target.needsValues = true := gated_iff rfl
  unfold transition
  cases State.ofName? (cell row l.state) with
  | none => simp
  | some target =>
    cases (cellOf row l.verifiedDate).isEmpty with
    | true => cases hneeds : target.needsValues <;> cases x.isFilled s <;> simp [hgated, hneeds]
    | false =>
      by_cases hreview : x.assessment.status = State.inReview.name
      · cases Date.ofCell? (cellOf row l.verifiedDate) <;> simp [hreview, hgated]
      · simp [hreview]

theorem Sound.transit (h : x.Sound s) {l : StateLayout} {row : Row} {u : Transition}
    (hu : x.transition s today l row = .ok u) : (x.transit u).Sound s := by
  intro hgated
  rw [isFilled_transit]
  obtain ⟨-, -, -, ⟨-, hfilled⟩ | ⟨-, hreview, -⟩⟩ := gated_transit_iff.1 ⟨u, hu, hgated⟩
  · exact hfilled
  · exact h (Or.inl hreview)

/-! ## Rows -/

theorem Sound.apply (h : x.Sound s) {task : Task} {warned : Bool}
    (ha : x.apply s today task = .ok (y, warned)) : y.Sound s := by
  obtain ⟨layout, row⟩ := task
  unfold Dossier.apply at ha
  cases layout with
  | attributes l =>
    simp only [Except.ok.injEq, Prod.ext_iff] at ha
    rw [← ha.1]
    exact h.applyAttributes l row
  | state l =>
    obtain ⟨u, hu, hy⟩ := Store.map_eq_ok ha
    rw [Prod.mk.injEq] at hy
    rw [← hy.1]
    exact h.transit hu
  | comment l =>
    simp only [Except.ok.injEq, Prod.mk.injEq] at ha
    rw [← ha.1]
    exact h

theorem sound_congr (h : s.SameFrame t) : x.Sound t ↔ x.Sound s := by
  unfold Sound
  rw [x.isFilled_congr h]

end Dossier

namespace Store

variable {s t : Store} {today : Date} {id : Int} {x : Dossier}

theorem filled_iff : s.Filled id ↔ s.isFilled id = true := by
  simp only [Filled, isFilled, mandatoryValues, definitionsOf, List.all_map, List.all_eq_true,
    List.mem_filter, Function.comp_apply, Option.any_eq_true, and_imp]

theorem sound_iff (hx : s.dossier? id = some x) : s.Sound x.assessment ↔ x.Sound s := by
  rw [Sound, Dossier.Sound, filled_iff, id_of_dossier? hx, isFilled_eq hx]

theorem sound_applyRow (hk : s.Keyed) (hs : ∀ a ∈ s.assessments, s.Sound a) {task : Task}
    {warned : Bool} (h : s.applyRow today task.row task.layout = .ok (t, warned)) :
    ∀ a ∈ t.assessments, t.Sound a := by
  obtain ⟨id, x, y, hx, -, hy, hamends⟩ | ⟨-, c, rfl⟩ := applyRow_cases hk h
  · have hkt := hamends.frame.keyed hk
    intro a ha
    obtain ⟨z, hz, rfl⟩ := hkt.exists_dossier ha
    rw [sound_iff hz, Dossier.sound_congr hamends.frame]
    by_cases hid : z.assessment.id = id
    · -- the assessment that the row is about
      rw [hid, hamends.own, Option.some.injEq] at hz
      subst hz
      exact ((sound_iff hx).1 (hs _ (mem_of_dossier? hx))).apply hy
    · rw [(hamends.others _ hid).dossier?] at hz
      exact (sound_iff hz).1 (hs _ (mem_of_dossier? hz))
  · exact hs

end Store

/-! ## Interleaved imports -/

namespace Imports

/-- What holds between two rows: the keys are unique and every assessment is sound. -/
structure Gate (m : Imports) : Prop where
  keyed : m.store.Keyed
  sound : ∀ a ∈ m.store.assessments, m.store.Sound a

theorem Gate.reaches {m n : Imports} (h : m.Gate) (hreach : m.Reaches n) : n.Gate := by
  have hkeeps (r : Run) (hk : r.store.Keyed) (hs : ∀ a ∈ r.store.assessments, r.store.Sound a)
      (today : Date) (task : Task) :
      ∀ a ∈ (r.apply today task).store.assessments, (r.apply today task).store.Sound a := by
    rw [Run.store_apply]
    cases hrow : r.store.applyRow today task.row task.layout with
    | error e => exact hs
    | ok p => exact Store.sound_applyRow hk hs hrow
  obtain ⟨hkeyed, hsound⟩ := reaches_keeps (P := fun s => ∀ a ∈ s.assessments, s.Sound a) hkeeps
    hreach h.keyed h.sound
  exact ⟨hkeyed, hsound⟩

end Imports

theorem Store.sound_importBlocks {s : Store} (hk : s.Keyed) (hs : ∀ a ∈ s.assessments, s.Sound a)
    (today : Date) (blocks : List Block) :
    ∀ a ∈ (s.importBlocks today blocks).store.assessments,
      (s.importBlocks today blocks).store.Sound a := by
  have hstart : (Imports.start s [(today, blocks)]).Gate := ⟨hk, hs⟩
  exact (hstart.reaches (Imports.reaches_importBlocks s today blocks)).sound

theorem Operation.sound_run {s : Store} (hk : s.Keyed) (hs : ∀ a ∈ s.assessments, s.Sound a)
    (op : Operation) (today : Date) (request : BulkRequest) :
    ∀ a ∈ (op.run s today request).store.assessments,
      (op.run s today request).store.Sound a := by
  cases op with
  | save => exact Store.sound_importBlocks hk hs today _
  | verify => exact Store.sound_importBlocks hk hs today _
  | complete =>
    have hframe : s.SameFrame (s.runSave today request).store := Run.sameFrame_importBlocks hk _
    have hsaved := Store.sound_importBlocks hk hs today (s.assembleFlagged request).updateBlocks
    exact Store.sound_importBlocks (hframe.keyed hk) hsaved today _

/-- A verification is accepted only for an assessment in review, and changes no value. -/
theorem Store.filled_of_verified {s t : Store} {today : Date} {l : StateLayout} {row : Row}
    {a : Assessment} (hk : s.Keyed) (hs : ∀ b ∈ s.assessments, s.Sound b)
    (ha : s.subject (cell row l.code) = .ok a) (hdate : (cellOf row l.verifiedDate).isEmpty = false)
    (h : s.applyState today l row = .ok t) : s.Filled a.id ∧ t.Filled a.id := by
  obtain ⟨hm, hcode⟩ := hk.subject_eq_ok_iff.1 ha
  obtain ⟨x, hx, rfl⟩ := hk.exists_dossier hm
  rw [Store.applyState_of_code today hk hx hcode.symm] at h
  obtain ⟨u, hu, rfl⟩ := Store.map_eq_ok h
  have hreview : x.assessment.status = State.inReview.name := by
    unfold Dossier.transition at hu
    cases htarget : State.ofName? (cell row l.state) with
    | none =>
      rw [htarget] at hu
      cases hu
    | some target =>
      rw [htarget] at hu
      simp only [hdate, Bool.false_eq_true, if_false] at hu
      by_contra hne
      rw [if_pos hne] at hu
      cases hu
  -- it is sound in review, and a change of state leaves the values alone
  have hfilled := hs _ hm (Or.inl hreview)
  exact ⟨hfilled, hfilled⟩

/-- If all assessments are sound, then they are sound between any two rows of any interleaving
of imports, and every verification that is accepted there is of an assessment with all its
mandatory values. -/
theorem mandatory_gate {s : Store} (hk : s.Keyed) (hs : ∀ a ∈ s.assessments, s.Sound a)
    (jobs : List (Date × List Block)) {m : Imports} (hm : (Imports.start s jobs).Reaches m) :
    (∀ a ∈ m.store.assessments, m.store.Sound a) ∧
      ∀ (today : Date) (l : StateLayout) (row : Row) (a : Assessment) (t : Store),
        m.store.subject (cell row l.code) = .ok a →
        (cellOf row l.verifiedDate).isEmpty = false →
        m.store.applyState today l row = .ok t →
        m.store.Filled a.id ∧ t.Filled a.id := by
  have hstart : (Imports.start s jobs).Gate := ⟨hk, hs⟩
  have hgate := hstart.reaches hm
  refine ⟨hgate.sound, fun today l row a t ha hdate h => ?_⟩
  exact Store.filled_of_verified hgate.keyed hgate.sound ha hdate h

/-- An assessment in review with its mandatory value. -/
def reviewedStore : Store :=
  { Store.empty with
    assessments := [⟨1, "A-1", "Backups", State.inReview.name, "Control", none, none⟩]
    definitions := [⟨5, Definition.localType, some 1, "Note", "Text", true, none, none, none⟩]
    values := [⟨7, 5, 1, some "done", none, none⟩] }

/-- Two imports: one clears the mandatory value, one verifies the assessment. -/
def clearingAndVerifying : List (Date × List Block) :=
  [(⟨2024, 5, 17⟩, [⟨[Column.assessment, Column.code, "Note"], [["", "A-1", ""]]⟩]),
    (⟨2024, 5, 17⟩,
      [⟨[Column.assessment, Column.code, Column.state, Column.verifiedDate],
        [["", "A-1", State.completed.name, "05/17/2024"]]⟩])]

/-- Once the value is cleared the assessment is no longer in review, so it is still sound and
the verification that follows is rejected. -/
theorem mandatory_gate_cleared :
    ∃ m, (Imports.start reviewedStore clearingAndVerifying).Reaches m ∧
      m.running.map Import.report = [Report.empty, ⟨TextSet.ofList ["A-1"], ∅⟩] ∧
      m.store.assessments.map Assessment.status = [State.inProgress.name] ∧
      ¬ m.store.Filled 1 ∧ ∀ a ∈ m.store.assessments, m.store.Sound a := by
  have hkeyed : reviewedStore.Keyed := ⟨by decide, by decide, by decide⟩
  have hsound : ∀ a ∈ reviewedStore.assessments, reviewedStore.Sound a := by
    intro a ha _
    obtain rfl := List.mem_singleton.1 ha
    exact Store.filled_iff.2 (by decide)
  let clearing : Task := ⟨.attributes ⟨1, none, none, [(2, "Note")]⟩, ["", "A-1", ""]⟩
  let verifying : Task :=
    ⟨.state ⟨1, 2, some 3⟩, ["", "A-1", State.completed.name, "05/17/2024"]⟩
  let today : Date := ⟨2024, 5, 17⟩
  let cleared : Run := Run.apply today ⟨reviewedStore, Report.empty⟩ clearing
  have hclearing : (Imports.start reviewedStore clearingAndVerifying).Reaches _ :=
    .single (Imports.Step.row reviewedStore [] _ today clearing [] Report.empty)
  have hreach : (Imports.start reviewedStore clearingAndVerifying).Reaches _ :=
    hclearing.tail (Imports.Step.row cleared.store [⟨today, [], cleared.report⟩] [] today
      verifying [] Report.empty)
  refine ⟨_, hreach, by decide +kernel, by decide +kernel, ?_, ?_⟩
  · rw [Store.filled_iff]
    decide +kernel
  · exact (mandatory_gate hkeyed hsound clearingAndVerifying hreach).1

/-! ## The gate of a single row -/

/-- What a state row that is accepted does to the assessment with its code. -/
theorem Store.applyState_gated_iff {s : Store} {x : Dossier} {id : Int} (today : Date)
    (hk : s.Keyed) (hx : s.dossier? id = some x) {l : StateLayout} {row : Row}
    (hcode : cell row l.code = x.assessment.slug) :
    (∃ t b, s.applyState today l row = .ok t ∧ t.assessment? id = some b ∧ b.Gated) ↔
      ∃ u, x.transition s today l row = .ok u ∧ (x.transit u).assessment.Gated := by
  rw [applyState_of_code today hk hx hcode]
  cases x.transition s today l row with
  | error e => simp [Except.map]
  | ok u =>
    have hown : (s.transit id u).assessment? id = some (x.transit u).assessment :=
      (dossier?_eq_some_iff.1 (amends_transit hx u).own).1
    simp [Except.map, hown]

/-- A state row leaves its assessment in review or completed exactly if it names one of these
states and either has no verified date, with all mandatory values filled, or has one that can be
read, with the assessment in review. So a mandatory value can be missing exactly if the row
verifies an assessment that was in review without it. -/
theorem state_row_gate {s : Store} (hk : s.Keyed) (today : Date) {l : StateLayout} {row : Row}
    {a : Assessment} (ha : s.subject (cell row l.code) = .ok a) :
    ((∃ t b, s.applyState today l row = .ok t ∧ t.assessment? a.id = some b ∧ b.Gated) ↔
      ∃ target, State.ofName? (cell row l.state) = some target ∧ target.needsValues = true ∧
        ((cellOf row l.verifiedDate).isEmpty = true ∧ s.Filled a.id ∨
          (cellOf row l.verifiedDate).isEmpty = false ∧ a.status = State.inReview.name ∧
            (Date.ofCell? (cellOf row l.verifiedDate)).isSome = true)) ∧
    ((∃ t b, s.applyState today l row = .ok t ∧ t.assessment? a.id = some b ∧ b.Gated ∧
        ¬ s.Filled a.id) ↔
      ∃ target, State.ofName? (cell row l.state) = some target ∧ target.needsValues = true ∧
        (cellOf row l.verifiedDate).isEmpty = false ∧ a.status = State.inReview.name ∧
          (Date.ofCell? (cellOf row l.verifiedDate)).isSome = true ∧ ¬ s.Filled a.id) := by
  obtain ⟨hm, hcode⟩ := hk.subject_eq_ok_iff.1 ha
  obtain ⟨x, hx, rfl⟩ := hk.exists_dossier hm
  have hgate := (Store.applyState_gated_iff today hk hx (l := l) hcode.symm).trans
    Dossier.gated_transit_iff
  simp only [← Store.isFilled_eq hx, ← Store.filled_iff] at hgate
  refine ⟨hgate, ⟨?_, ?_⟩⟩
  · rintro ⟨t, b, ht, hb, hgated, hunfilled⟩
    obtain ⟨target, htarget, hneeds, ⟨-, hfilled⟩ | ⟨hdate, hreview, hread⟩⟩ :=
      hgate.1 ⟨t, b, ht, hb, hgated⟩
    · exact absurd hfilled hunfilled
    · exact ⟨target, htarget, hneeds, hdate, hreview, hread, hunfilled⟩
  · rintro ⟨target, htarget, hneeds, hdate, hreview, hread, hunfilled⟩
    obtain ⟨t, b, ht, hb, hgated⟩ :=
      hgate.2 ⟨target, htarget, hneeds, Or.inr ⟨hdate, hreview, hread⟩⟩
    exact ⟨t, b, ht, hb, hgated, hunfilled⟩

/-- An assessment in review without its mandatory value. -/
def unfilledStore : Store := { reviewedStore with values := [] }

/-- A row that verifies it. -/
def verifyingRow : Row := ["", "A-1", State.completed.name, "05/17/2024"]

/-- The verification is accepted although the mandatory value is missing. -/
theorem unfilled_verified :
    ∃ t b, unfilledStore.applyState ⟨2024, 5, 17⟩ ⟨1, 2, some 3⟩ verifyingRow = .ok t ∧
      t.assessment? 1 = some b ∧ b.Gated ∧ ¬ unfilledStore.Filled 1 := by
  have hkeyed : unfilledStore.Keyed := ⟨by decide, by decide, by decide⟩
  have hcode : cell verifyingRow 1 = "A-1" := by decide +kernel
  have ha : unfilledStore.subject (cell verifyingRow 1) =
      .ok ⟨1, "A-1", "Backups", State.inReview.name, "Control", none, none⟩ := by
    rw [hcode]
    rfl
  have hunfilled : ¬ unfilledStore.Filled 1 := by
    rw [Store.filled_iff]
    decide
  have hgate := state_row_gate hkeyed ⟨2024, 5, 17⟩ (l := ⟨1, 2, some 3⟩) ha
  exact hgate.2.2 ⟨.completed, by decide +kernel, rfl, by decide +kernel, rfl, by decide +kernel,
    hunfilled⟩

end BulkAssessment
