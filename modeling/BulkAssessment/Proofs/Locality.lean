import BulkAssessment.Proofs.Cells

/-!
# Rows act on dossiers

A row with the code of an assessment reads the definitions, the people and the dossier of that
assessment, and it changes nothing but the dossier. So a row has a meaning on the dossier
alone (`Dossier.apply`), which needs no store to be changed and cannot break a constraint.

`Store.applyRow_of_code` is the simulation: on a store with unique keys the row that carries
the code of an assessment is applied or rejected exactly as its meaning on the dossier is.
`Store.applyRow_cases` is the inversion: an accepted row did that to one dossier or added a
comment.
-/

namespace BulkAssessment

/-- How far an attributes row has got with a dossier. -/
structure Draft where
  dossier : Dossier
  /-- A cell was left out. -/
  warned : Bool
  /-- The assessment was affected by a change. -/
  affected : Bool

/-- What is held for a definition after a cell: a value that is the same in effect stays, an
empty one removes the row. -/
def overwrite (objectId definitionId : Int) (before : Option StoredValue) (c : CellValue) :
    Option StoredValue :=
  if (CellValue.ofStored before).effective = c.effective then before
  else if c = .none then none
  else some (Store.valueRow definitionId objectId c.value c.personId before)

namespace Draft

/-- Leave a cell out. -/
def skip (p : Draft) : Draft := { p with warned := true }

/-- Hold the value of a cell. -/
def put (p : Draft) (d : Definition) (c : CellValue) : Draft :=
  if (CellValue.ofStored (p.dossier.held d.id)).effective = c.effective then p
  else
    { p with
      dossier := p.dossier.hold d.id
        (overwrite p.dossier.assessment.id d.id (p.dossier.held d.id) c)
      affected := true }

/-- Apply the cell of a title; definitions and people are those of a store. -/
def applyCell (s : Store) (p : Draft) (title raw : String) : Draft :=
  match s.definitionTitled? p.dossier.assessment.id title with
  | none => p.skip
  | some d => match s.cellValue? d raw with
    | none => p.skip
    | some c => p.put d c

/-- Attach a link unless it is attached already. -/
def attach (kind : EvidenceKind) (p : Draft) (link : String) : Draft :=
  if p.dossier.evidence.any fun e => e.kind == kind.name && e.link == link then p
  else { p with dossier := p.dossier.attach kind link, affected := true }

/-- The dossier in the end: an assessment that was affected is reopened. -/
def finish (p : Draft) : Dossier :=
  if reopens p.dossier.assessment.status && p.affected then
    p.dossier.transit ⟨State.inProgress.name, none, none⟩
  else p.dossier

end Draft

/-- A row with the layout of its block. -/
structure Task where
  layout : BlockLayout
  row : Row

/-- The code of the assessment that a row is about, if it is about one. -/
def Task.code? (task : Task) : Option String :=
  match task.layout with
  | .attributes l => some (cell task.row l.code)
  | .state l => some (cell task.row l.code)
  | .comment _ => none

namespace Dossier

/-- The cells of an attributes row, from left to right. -/
def applyCells (s : Store) (x : Dossier) (l : AttributesLayout) (row : Row) : Draft :=
  l.attributes.foldl (fun p c => p.applyCell s c.2 (cell row c.1)) ⟨x, false, false⟩

/-- The evidence of an attributes row, links before files. -/
def applyEvidence (p : Draft) (l : AttributesLayout) (row : Row) : Draft :=
  (evidenceLines (cellOf row l.files)).foldl (Draft.attach .file)
    ((evidenceLines (cellOf row l.urls)).foldl (Draft.attach .url) p)

/-- An attributes row: the dossier after it, and whether a cell was left out. -/
def applyAttributes (s : Store) (x : Dossier) (l : AttributesLayout) (row : Row) :
    Dossier × Bool :=
  let p := applyEvidence (x.applyCells s l row) l row
  (p.finish, p.warned)

/-- Whether all mandatory definitions are filled. -/
def isFilled (s : Store) (x : Dossier) : Bool :=
  ((s.definitionsOf x.assessment.id).filter Definition.mandatory).all fun d =>
    (x.held d.id).any d.filledBy

/-- The transition that a state row asks for. -/
def transition (s : Store) (today : Date) (x : Dossier) (l : StateLayout) (row : Row) :
    Except Rejection Transition :=
  match State.ofName? (cell row l.state) with
  | none => .error (.unknownState (cell row l.state))
  | some target =>
    if (cellOf row l.verifiedDate).isEmpty then
      if target.needsValues && !x.isFilled s then .error .unfilled
      else .ok ⟨target.name, if target = .completed then some today.storedText else none, none⟩
    else if x.assessment.status ≠ State.inReview.name then
      .error (.notInReview x.assessment.status)
    else match Date.ofCell? (cellOf row l.verifiedDate) with
      | none => .error (.badDate (cellOf row l.verifiedDate))
      | some d => .ok ⟨target.name, none, some d.storedText⟩

/-- A row about the assessment of the dossier. -/
def apply (s : Store) (today : Date) (x : Dossier) (task : Task) :
    Except Rejection (Dossier × Bool) :=
  match task.layout with
  | .attributes l => .ok (x.applyAttributes s l task.row)
  | .state l => (x.transition s today l task.row).map fun t => (x.transit t, false)
  | .comment _ => .ok (x, false)

end Dossier

/-! ## Attributes rows -/

/-- A row has got as far with the store as with the dossier of one assessment. -/
structure Progress.Drafts (s : Store) (id : Int) (p : Progress) (x : Draft) : Prop where
  store : s.Amends p.store id x.dossier
  warned : p.warned = x.warned
  affected : p.affected = x.affected

namespace Progress.Drafts

variable {s : Store} {id : Int} {p : Progress} {x : Draft}

theorem id_eq (h : p.Drafts s id x) : x.dossier.assessment.id = id :=
  Store.id_of_dossier? h.store.own

theorem skip (h : p.Drafts s id x) : p.skip.Drafts s id x.skip :=
  ⟨h.store, rfl, h.affected⟩

theorem put (h : p.Drafts s id x) {d : Definition} (hd : s.hasDefinition d.id = true)
    (c : CellValue) : ∃ q, p.put id d c = .ok q ∧ q.Drafts s id (x.put d c) := by
  have hheld : CellValue.ofStored (p.store.value? d.id id) =
      CellValue.ofStored (x.dossier.held d.id) := by
    rw [(Store.dossier?_eq_some_iff.1 h.store.own).2.1, Store.heldBy]
    cases p.store.value? d.id id <;> rfl
  have hd' : p.store.hasDefinition d.id = true := by
    rwa [Store.hasDefinition, h.store.frame.definitions]
  rw [put_eq, hheld, Draft.put]
  by_cases hsame : (CellValue.ofStored (x.dossier.held d.id)).effective = c.effective
  · exact ⟨p, if_pos hsame, by rwa [if_pos hsame]⟩
  · simp only [if_neg hsame, Store.putCell, overwrite, h.id_eq]
    by_cases hc : c = .none
    · refine ⟨{ p with store := p.store.removeValue d.id id, affected := true }, ?_, ?_, ?_, rfl⟩
      · rw [if_pos hc]
        rfl
      · rw [if_pos hc]
        exact h.store.trans (Store.amends_removeValue h.store.own d.id)
      · exact h.warned
    · obtain ⟨t, ht, ha⟩ := Store.amends_setValue h.store.own hd' c.value c.personId
      refine ⟨{ p with store := t, affected := true }, ?_, ?_, ?_, rfl⟩
      · rw [if_neg hc, ht]
        rfl
      · rw [if_neg hc]
        exact h.store.trans ha
      · exact h.warned

theorem applyCell (h : p.Drafts s id x) (title raw : String) :
    ∃ q, p.applyCell id title raw = .ok q ∧ q.Drafts s id (x.applyCell s title raw) := by
  rw [Progress.applyCell, Draft.applyCell, h.id_eq, h.store.frame.definitionTitled?]
  cases hd : s.definitionTitled? id title with
  | none => exact ⟨_, rfl, h.skip⟩
  | some d =>
    obtain ⟨hmem, -⟩ := Store.of_definitionTitled?_eq_some hd
    simp only [h.store.frame.cellValue?]
    cases s.cellValue? d raw with
    | none => exact ⟨_, rfl, h.skip⟩
    | some c =>
      exact h.put (by simpa [Store.hasDefinition] using ⟨d, hmem, rfl⟩) c

theorem attach (h : p.Drafts s id x) (kind : EvidenceKind) (link : String) :
    ∃ q, p.attach id kind link = .ok q ∧ q.Drafts s id (x.attach kind link) := by
  rw [Progress.attach, Draft.attach, Store.hasEvidence_eq h.store.own]
  split
  · exact ⟨p, rfl, h⟩
  · obtain ⟨t, n, ht, ha⟩ := Store.amends_attach h.store.own kind link
    exact ⟨{ p with store := t, affected := true }, by rw [ht]; rfl,
      ⟨h.store.trans ha, h.warned, rfl⟩⟩

/-- Loops keep step if their bodies do. -/
theorem foldlM {α : Type} {f : Progress → α → Except Violation Progress} {g : Draft → α → Draft}
    (hstep : ∀ p x a, p.Drafts s id x → ∃ q, f p a = .ok q ∧ q.Drafts s id (g x a))
    (h : p.Drafts s id x) (as : List α) :
    ∃ q, as.foldlM f p = .ok q ∧ q.Drafts s id (as.foldl g x) := by
  induction as generalizing p x with
  | nil => exact ⟨p, rfl, h⟩
  | cons a as ih =>
    obtain ⟨q, hq, hd⟩ := hstep p x a h
    obtain ⟨r, hr, he⟩ := ih hd
    exact ⟨r, by rw [List.foldlM_cons, hq]; exact hr, he⟩

end Progress.Drafts

namespace Draft

variable {s : Store} {p : Draft}

@[simp] theorem assessment_put (d : Definition) (c : CellValue) :
    (p.put d c).dossier.assessment = p.dossier.assessment := by
  unfold put
  split <;> rfl

@[simp] theorem assessment_applyCell (title raw : String) :
    (p.applyCell s title raw).dossier.assessment = p.dossier.assessment := by
  unfold applyCell
  split
  · rfl
  · split
    · rfl
    · exact assessment_put _ _

@[simp] theorem assessment_attach (kind : EvidenceKind) (link : String) :
    (p.attach kind link).dossier.assessment = p.dossier.assessment := by
  unfold attach
  split <;> rfl

end Draft

namespace Dossier

variable (s : Store) (x : Dossier) (l : AttributesLayout) (row : Row)

@[simp] theorem assessment_applyCells :
    (x.applyCells s l row).dossier.assessment = x.assessment :=
  foldl_keeps (f := fun p : Draft => p.dossier.assessment)
    (fun _ _ _ => Draft.assessment_applyCell _ _) _

@[simp] theorem assessment_applyEvidence (p : Draft) :
    (applyEvidence p l row).dossier.assessment = p.dossier.assessment :=
  (foldl_keeps (f := fun p : Draft => p.dossier.assessment)
    (fun _ _ _ => Draft.assessment_attach _ _) _).trans
      (foldl_keeps (f := fun p : Draft => p.dossier.assessment)
        (fun _ _ _ => Draft.assessment_attach _ _) _)

end Dossier

namespace Store

variable {s t : Store} {today : Date} {id : Int} {x : Dossier}

/-- An attributes row with the code of an assessment is applied to its dossier. -/
theorem applyAttributes_of_code (hk : s.Keyed) (hx : s.dossier? id = some x)
    {l : AttributesLayout} {row : Row} (hc : cell row l.code = x.assessment.slug) :
    ∃ t, s.applyAttributes l row = .ok (t, (x.applyAttributes s l row).2) ∧
      s.Amends t id (x.applyAttributes s l row).1 := by
  have hid := id_of_dossier? hx
  have hsub : s.subject (cell row l.code) = .ok x.assessment :=
    hk.subject_eq_ok_iff.2 ⟨mem_of_dossier? hx, hc.symm⟩
  -- cells, then links, then files, each a loop that keeps the store and the draft together
  have hstart : Progress.Drafts s id ⟨s, false, false⟩ ⟨x, false, false⟩ :=
    ⟨.refl hx, rfl, rfl⟩
  obtain ⟨p, hp, hpd⟩ := hstart.foldlM
    (f := fun p c => p.applyCell id c.2 (cell row c.1))
    (g := fun p c => p.applyCell s c.2 (cell row c.1))
    (fun p x c h => h.applyCell c.2 (cell row c.1)) l.attributes
  obtain ⟨q, hq, hqd⟩ := hpd.foldlM (fun p x link h => h.attach .url link)
    (evidenceLines (cellOf row l.urls))
  obtain ⟨r, hr, hrd⟩ := hqd.foldlM (fun p x link h => h.attach .file link)
    (evidenceLines (cellOf row l.files))
  have hcells : s.applyCells l row id = .ok p := hp
  have hevidence : applyEvidence p l row id = .ok r := by
    rw [applyEvidence, hq]
    exact hr
  refine ⟨reopen r x.assessment, ?_, ?_⟩
  · rw [applyAttributes, hsub]
    simp only [bind, Except.bind, hid, hcells, asRejection, hevidence, pure, Except.pure]
    rw [hrd.warned]
    rfl
  · have hsame : ((Dossier.applyEvidence (x.applyCells s l row) l row).dossier).assessment =
        x.assessment := by simp
    simp only [Dossier.applyAttributes, Draft.finish, reopen, hsame, hrd.affected, hid]
    change s.Amends (if reopens x.assessment.status &&
      (Dossier.applyEvidence (x.applyCells s l row) l row).affected then _ else _) id _
    split
    · exact hrd.store.trans (amends_transit hrd.store.own _)
    · exact hrd.store

/-! ## State rows -/

theorem filledBy_unnumbered (d : Definition) (v : StoredValue) :
    d.filledBy v.unnumbered = d.filledBy v := by
  unfold Definition.filledBy
  cases AttributeKind.ofName d.typeName <;> rfl

theorem isFilled_eq (hx : s.dossier? id = some x) : s.isFilled id = x.isFilled s := by
  have hid := id_of_dossier? hx
  have hheld := (dossier?_eq_some_iff.1 hx).2.1
  rw [isFilled, mandatoryValues, List.all_map, Dossier.isFilled, hid]
  congr 1
  funext d
  rw [Function.comp_apply, hheld, heldBy, Option.any_map]
  simp only [filledBy_unnumbered]

/-- A state row with the code of an assessment makes the transition that it asks for. -/
theorem applyState_of_code (today : Date) (hk : s.Keyed) (hx : s.dossier? id = some x)
    {l : StateLayout} {row : Row} (hc : cell row l.code = x.assessment.slug) :
    s.applyState today l row = (x.transition s today l row).map (s.transit id) := by
  have hid := id_of_dossier? hx
  have hsub : s.subject (cell row l.code) = .ok x.assessment :=
    hk.subject_eq_ok_iff.2 ⟨mem_of_dossier? hx, hc.symm⟩
  unfold applyState Dossier.transition
  rw [hsub]
  simp only [bind, Except.bind]
  cases State.ofName? (cell row l.state) with
  | none => rfl
  | some target =>
    simp only [applyMove, applyVerification, hid, isFilled_eq hx]
    by_cases hdate : (cellOf row l.verifiedDate).isEmpty = true
    · simp only [if_pos hdate]
      by_cases hfilled : (target.needsValues && !x.isFilled s) = true
      · simp only [if_pos hfilled]
        rfl
      · simp only [if_neg hfilled]
        rfl
    · simp only [if_neg hdate]
      by_cases hreview : x.assessment.status ≠ State.inReview.name
      · simp only [if_pos hreview]
        rfl
      · simp only [if_neg hreview]
        cases Date.ofCell? (cellOf row l.verifiedDate) <;> rfl

/-! ## Comment rows -/

theorem map_eq_ok {ε α β : Type} {f : α → β} {r : Except ε α} {y : β} (h : r.map f = .ok y) :
    ∃ x, r = .ok x ∧ f x = y := by
  cases r with
  | error e => cases h
  | ok x => exact ⟨x, rfl, Except.ok.inj h⟩

theorem eq_ok_of_asRejection {α : Type} {r : Except Violation α} {y : α}
    (h : asRejection r = .ok y) : r = .ok y := by
  cases r with
  | error e => cases h
  | ok x => exact congrArg Except.ok (Except.ok.inj h)

theorem insertComment_eq_ok {c : NewComment} {r : Store × Int} (h : s.insertComment c = .ok r) :
    ∃ row, r.1 = { s with comments := s.comments ++ [row] } := by
  rw [insertComment] at h
  cases ha : c.assessmentId with
  | none => simp [ha, present, bind, Except.bind] at h
  | some a =>
    cases hd : c.description with
    | none => simp [ha, hd, present, bind, Except.bind] at h
    | some d =>
      simp only [ha, hd, present, require, bind, Except.bind, pure, Except.pure] at h
      split at h
      · simp at h
      · exact ⟨_, by rw [← Except.ok.inj h]⟩

/-- A comment row that is accepted inserts a comment. -/
theorem exists_insertComment {l : CommentLayout} {row : Row} (h : s.applyComment l row = .ok t) :
    ∃ c r, s.insertComment c = .ok r ∧ r.1 = t := by
  rw [applyComment] at h
  cases hid : Text.readId? (cell row l.definition) with
  | none => simp [hid] at h
  | some n =>
    cases hd : s.localDefinition? n with
    | none =>
      simp only [hid, hd] at h
      split at h <;> simp at h
    | some d =>
      cases ho : d.ownerId with
      | none =>
        simp only [hid, hd, ho] at h
        split at h <;> simp at h
      | some owner =>
        simp only [hid, hd, ho] at h
        split at h
        · simp at h
        · obtain ⟨r, hr, hrt⟩ := map_eq_ok h
          exact ⟨_, r, eq_ok_of_asRejection hr, hrt⟩

/-- A comment row that is accepted only adds to the comments. -/
theorem applyComment_eq_ok {l : CommentLayout} {row : Row} (h : s.applyComment l row = .ok t) :
    ∃ c, t = { s with comments := s.comments ++ [c] } := by
  obtain ⟨_, r, hr, rfl⟩ := exists_insertComment h
  exact insertComment_eq_ok hr

/-! ## Rows -/

/-- A row with the code of an assessment has its meaning on the dossier. -/
theorem applyRow_of_code (today : Date) (hk : s.Keyed) (hx : s.dossier? id = some x)
    {task : Task} (hc : task.code? = some x.assessment.slug) :
    match x.apply s today task with
    | .ok (y, warned) =>
      ∃ t, s.applyRow today task.row task.layout = .ok (t, warned) ∧ s.Amends t id y
    | .error e => s.applyRow today task.row task.layout = .error e := by
  obtain ⟨layout, row⟩ := task
  cases layout with
  | attributes l =>
    obtain ⟨t, ht, ha⟩ := applyAttributes_of_code hk hx (Option.some.inj hc)
    simp only [Dossier.apply, applyRow]
    exact ⟨t, ht, ha⟩
  | state l =>
    have hcode : cell row l.code = x.assessment.slug := Option.some.inj hc
    have h := applyState_of_code today hk hx hcode
    simp only [Dossier.apply, applyRow, h]
    cases x.transition s today l row with
    | error e => rfl
    | ok t => exact ⟨s.transit id t, rfl, amends_transit hx t⟩
  | comment l => cases hc

/-- A row with a code that no assessment has is rejected. -/
theorem applyRow_of_unknown_code {task : Task} {code : String} (hc : task.code? = some code)
    (hn : s.assessmentBySlug? code = none) :
    s.applyRow today task.row task.layout = .error (.unknownAssessment code) := by
  obtain ⟨layout, row⟩ := task
  cases layout with
  | attributes l =>
    cases hc
    simp only [applyRow, applyAttributes, subject, hn, bind, Except.bind]
  | state l =>
    cases hc
    simp only [applyRow, applyState, subject, hn, bind, Except.bind, Except.map]
  | comment l => cases hc

/-- All that an accepted row can do: it acts on the dossier of the assessment that has its
code, or it adds a comment. -/
theorem applyRow_cases (hk : s.Keyed) {task : Task} {warned : Bool}
    (h : s.applyRow today task.row task.layout = .ok (t, warned)) :
    (∃ id x y, s.dossier? id = some x ∧ task.code? = some x.assessment.slug ∧
      x.apply s today task = .ok (y, warned) ∧ s.Amends t id y) ∨
    (task.code? = none ∧ ∃ c, t = { s with comments := s.comments ++ [c] }) := by
  cases hc : task.code? with
  | some code =>
    left
    cases ha : s.assessmentBySlug? code with
    | none =>
      rw [applyRow_of_unknown_code hc ha] at h
      cases h
    | some a =>
      obtain ⟨hm, rfl⟩ := hk.assessmentBySlug?_eq_some_iff.1 ha
      obtain ⟨x, hx, rfl⟩ := hk.exists_dossier hm
      have hrow := applyRow_of_code today hk hx hc
      cases hy : x.apply s today task with
      | error e =>
        simp only [hy] at hrow
        rw [hrow] at h
        cases h
      | ok r =>
        simp only [hy] at hrow
        obtain ⟨u, hu, hamends⟩ := hrow
        rw [hu] at h
        cases h
        exact ⟨_, x, r.1, hx, rfl, hy, hamends⟩
  | none =>
    right
    refine ⟨rfl, ?_⟩
    obtain ⟨layout, row⟩ := task
    cases layout with
    | comment l =>
      simp only [applyRow] at h
      cases hr : s.applyComment l row with
      | error e =>
        rw [hr] at h
        cases h
      | ok u =>
        rw [hr] at h
        cases h
        exact applyComment_eq_ok hr
    | attributes l => cases hc
    | state l => cases hc

end Store

end BulkAssessment
