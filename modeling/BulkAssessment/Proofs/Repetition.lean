import BulkAssessment.Proofs.History
import BulkAssessment.Proofs.Reordering
import BulkAssessment.Proofs.Submissions

/-!
# The same import again

What rows do to the value for one definition is a list of writes, cell by cell (`Task.writes`), of
which those that are the same in effect as what is held are not made. A second pass over the list
may make writes that the first did not make, and so pass through other values. It still ends with
the same value, since what the last cell says is stored in one way only
(`content_foldl_overwrite_twice`).

Links are attached once (`foldl_exhibitOnce_twice`). And a second pass over attributes rows reopens
nothing: if the first pass left an assessment in a state that can be reopened, then it changed
nothing at all (`Dossier.foldl_after_cases`).

The flag of the preconditions is not among what stays: a second pass may remove a row of the table
of values that the first one kept, and store it anew.
-/

namespace BulkAssessment

/-- What a row of the table of values holds: a text and a person. -/
def StoredValue.content (v : StoredValue) : CellValue := ⟨v.value, v.personId⟩

/-- What is stored of a value: the empty one has no row. -/
def CellValue.row? (c : CellValue) : Option CellValue :=
  if c = .none then Option.none else some c

/-- What a cell under a title writes for the definition with an id. -/
def Store.writes? (s : Store) (assessmentId definitionId : Int) (title raw : String) :
    Option CellValue :=
  match s.definitionTitled? assessmentId title with
  | none => none
  | some d => if d.id = definitionId then s.cellValue? d raw else none

namespace Task

/-- What a row writes for a definition of an assessment, cell by cell. -/
def writes (s : Store) (assessmentId definitionId : Int) (task : Task) : List CellValue :=
  match task.layout with
  | .attributes l =>
    l.attributes.filterMap fun c => s.writes? assessmentId definitionId c.2 (cell task.row c.1)
  | _ => []

/-- The evidence that a row names. -/
def links (task : Task) : List (EvidenceKind × String) :=
  match task.layout with
  | .attributes l =>
    (evidenceLines (cellOf task.row l.urls)).map (Prod.mk .url) ++
      (evidenceLines (cellOf task.row l.files)).map (Prod.mk .file)
  | _ => []

/-- The row sets attributes. -/
def SetsAttributes (task : Task) : Prop := ∃ l, task.layout = .attributes l

end Task

/-- The block is recognized as one that sets attributes. -/
def Block.SetsAttributes (b : Block) : Prop := ∃ l, b.layout? = some (.attributes l)

/-- Two stores hold the same about one object, if the flags of its values do not count. -/
structure Store.SameContentOn (s t : Store) (id : Int) : Prop where
  assessment : t.assessment? id = s.assessment? id
  values : ∀ definitionId, (t.value? definitionId id).map StoredValue.content =
    (s.value? definitionId id).map StoredValue.content
  evidence : t.evidenceOf id = s.evidenceOf id

/-- A link is among the evidence. -/
def exhibits (es : List Evidence) (link : EvidenceKind × String) : Bool :=
  es.any fun e => e.kind == link.1.name && e.link == link.2

/-- The evidence with one more link, unless it is there. -/
def exhibitOnce (assessmentId : Int) (es : List Evidence) (link : EvidenceKind × String) :
    List Evidence :=
  if exhibits es link then es else es ++ [Dossier.exhibit assessmentId link.1 link.2]

/-! ## Values -/

section Values

variable {s : Store} {today : Date} {objectId definitionId : Int} {cs : List CellValue}

theorem CellValue.ofStored_eq (v : Option StoredValue) :
    ofStored v = (v.map StoredValue.content).getD .none := by
  cases v <;> rfl

theorem overwrite_cases (objectId definitionId : Int) (v : Option StoredValue) (c : CellValue) :
    overwrite objectId definitionId v c = v ∨
      (overwrite objectId definitionId v c).map StoredValue.content = c.row? := by
  unfold overwrite CellValue.row?
  split
  · exact .inl rfl
  · right
    by_cases hnone : c = .none
    · rw [if_pos hnone, if_pos hnone]
      rfl
    · rw [if_neg hnone, if_neg hnone]
      rfl

theorem foldl_overwrite_cases (cs : List CellValue) (v : Option StoredValue) :
    cs.foldl (overwrite objectId definitionId) v = v ∨
      ∃ c ∈ cs, (cs.foldl (overwrite objectId definitionId) v).map StoredValue.content =
        c.row? := by
  induction cs generalizing v with
  | nil => exact .inl rfl
  | cons c cs ih =>
    rw [List.foldl_cons]
    rcases ih (overwrite objectId definitionId v c) with hkept | ⟨w, hw, hrow⟩
    · rw [hkept]
      rcases overwrite_cases objectId definitionId v c with hsame | hrow
      · exact .inl hsame
      · exact .inr ⟨c, List.mem_cons_self, hrow⟩
    · exact .inr ⟨w, List.mem_cons_of_mem _ hw, hrow⟩

theorem effective_foldl_overwrite (objectId definitionId : Int) (hcs : cs ≠ [])
    (v w : Option StoredValue) :
    (CellValue.ofStored (cs.foldl (overwrite objectId definitionId) v)).effective =
      (CellValue.ofStored (cs.foldl (overwrite objectId definitionId) w)).effective := by
  obtain ⟨before, last, rfl⟩ := (List.eq_nil_or_concat' cs).resolve_left hcs
  rw [List.foldl_append, List.foldl_append, List.foldl_cons, List.foldl_cons, List.foldl_nil,
    List.foldl_nil, effective_overwrite, effective_overwrite]

theorem effective_of_row? {v : Option StoredValue} {c : CellValue}
    (h : v.map StoredValue.content = c.row?) : (CellValue.ofStored v).effective = c.effective := by
  rw [CellValue.ofStored_eq, h, CellValue.row?]
  split
  · rename_i hnone
    rw [hnone]
    rfl
  · rfl

/-- If the cells have no two ways to say the same in effect, then a second pass over them ends with
the value of the first. -/
theorem content_foldl_overwrite_twice
    (hcs : ∀ c ∈ cs, ∀ c' ∈ cs, c.effective = c'.effective → c = c') (v : Option StoredValue) :
    (cs.foldl (overwrite objectId definitionId)
        (cs.foldl (overwrite objectId definitionId) v)).map StoredValue.content =
      (cs.foldl (overwrite objectId definitionId) v).map StoredValue.content := by
  rcases foldl_overwrite_cases cs v with hkept | ⟨c, hc, hrow⟩
  · rw [hkept, hkept]
  · generalize hu : cs.foldl (overwrite objectId definitionId) v = u at hrow ⊢
    rcases foldl_overwrite_cases cs u with hkept | ⟨c', hc', hrow'⟩
    · rw [hkept]
    · -- both passes end with what the last cell says
      have hlast := effective_foldl_overwrite objectId definitionId (List.ne_nil_of_mem hc) u v
      rw [hu, effective_of_row? hrow, effective_of_row? hrow'] at hlast
      rw [hrow, hrow', hcs c' hc' c hc hlast]

/-- What cells say is a person or nothing, or a text, depending on the kind of the definition. -/
theorem cellValue?_cases {d : Definition} {raw : String} {c : CellValue}
    (h : s.cellValue? d raw = some c) :
    (AttributeKind.ofName d.typeName = .person ∧ (c = .none ∨ ∃ id, c = .ofPerson id)) ∨
      (AttributeKind.ofName d.typeName ≠ .person ∧ ∃ text, c = .ofText text) := by
  unfold Store.cellValue? at h
  generalize AttributeKind.ofName d.typeName = kind at h ⊢
  by_cases hperson : kind = .person
  · subst hperson
    refine .inl ⟨rfl, ?_⟩
    dsimp only at h
    split at h
    · exact .inl (Option.some.inj h).symm
    · obtain ⟨id, -, rfl⟩ := Option.map_eq_some_iff.1 h
      exact .inr ⟨id, rfl⟩
  · refine .inr ⟨hperson, ?_⟩
    have hmap {f : String → CellValue} {found : Option String} (h : found.map f = some c) :
        ∃ text, c = f text := by
      obtain ⟨text, -, htext⟩ := Option.map_eq_some_iff.1 h
      exact ⟨text, htext.symm⟩
    split at h
    · exact hmap h
    · contradiction
    · split at h
      · exact ⟨raw, (Option.some.inj h).symm⟩
      · exact hmap h
    · split at h
      · exact ⟨raw, (Option.some.inj h).symm⟩
      · exact hmap h
    · exact ⟨raw, (Option.some.inj h).symm⟩

theorem CellValue.ofText_inj {text text' : String}
    (h : (ofText text).effective = (ofText text').effective) : text = text' := by
  simp only [effective, ofText, Prod.mk.injEq, Option.filter_some, and_true] at h
  by_cases hempty : text = ""
  · by_cases hempty' : text' = ""
    · rw [hempty, hempty']
    · simp [hempty, hempty'] at h
  · by_cases hempty' : text' = ""
    · simp [hempty, hempty'] at h
    · simpa [hempty, hempty'] using h

theorem eq_of_cellValue? {d : Definition} {raw raw' : String} {c c' : CellValue}
    (h : s.cellValue? d raw = some c) (h' : s.cellValue? d raw' = some c')
    (heffective : c.effective = c'.effective) : c = c' := by
  have hid : c.personId = c'.personId := congrArg Prod.snd heffective
  rcases cellValue?_cases h with ⟨hperson, hc⟩ | ⟨hother, text, rfl⟩
  · rcases cellValue?_cases h' with ⟨-, hc'⟩ | ⟨hother, -⟩
    · rcases hc with rfl | ⟨i, rfl⟩ <;> rcases hc' with rfl | ⟨i', rfl⟩
      · rfl
      · cases hid
      · cases hid
      · exact congrArg CellValue.ofPerson (Option.some.inj hid)
    · exact absurd hperson hother
  · rcases cellValue?_cases h' with ⟨hperson, -⟩ | ⟨-, text', rfl⟩
    · exact absurd hperson hother
    · exact congrArg CellValue.ofText (CellValue.ofText_inj heffective)

theorem writes?_eq_some_iff {assessmentId : Int} {title raw : String} {c : CellValue} :
    s.writes? assessmentId definitionId title raw = some c ↔
      ∃ d, s.definitionTitled? assessmentId title = some d ∧ d.id = definitionId ∧
        s.cellValue? d raw = some c := by
  unfold Store.writes?
  cases s.definitionTitled? assessmentId title with
  | none => simp
  | some d => simp

theorem Task.exists_cell_of_mem_writes {assessmentId : Int} {task : Task} {c : CellValue}
    (hc : c ∈ task.writes s assessmentId definitionId) :
    ∃ d ∈ s.definitions, d.id = definitionId ∧
      ∃ column, s.cellValue? d (cell task.row column) = some c := by
  obtain ⟨layout, row⟩ := task
  cases layout with
  | attributes l =>
    obtain ⟨column, -, hwrites⟩ := List.mem_filterMap.1 hc
    obtain ⟨d, hd, hid, hvalue⟩ := writes?_eq_some_iff.1 hwrites
    exact ⟨d, (Store.of_definitionTitled?_eq_some hd).1, hid, column.1, hvalue⟩
  | state l => cases hc
  | comment l => cases hc

/-- The cells of rows have no two ways to say the same in effect for one definition. -/
theorem eq_of_mem_writes (hk : s.Keyed) {assessmentId : Int} {tasks : List Task} {c c' : CellValue}
    (hc : c ∈ tasks.flatMap (Task.writes s assessmentId definitionId))
    (hc' : c' ∈ tasks.flatMap (Task.writes s assessmentId definitionId))
    (heffective : c.effective = c'.effective) : c = c' := by
  obtain ⟨task, -, hc⟩ := List.mem_flatMap.1 hc
  obtain ⟨task', -, hc'⟩ := List.mem_flatMap.1 hc'
  obtain ⟨d, hd, hid, column, hvalue⟩ := Task.exists_cell_of_mem_writes hc
  obtain ⟨d', hd', hid', column', hvalue'⟩ := Task.exists_cell_of_mem_writes hc'
  -- the definition is known by its id
  obtain rfl := hk.eq_of_definitionId hd hd' (hid.trans hid'.symm)
  exact eq_of_cellValue? hvalue hvalue' heffective

theorem held_applyCell_writes (p : Draft) (title raw : String) (definitionId : Int) :
    (p.applyCell s title raw).dossier.held definitionId =
      match s.writes? p.dossier.assessment.id definitionId title raw with
      | none => p.dossier.held definitionId
      | some c =>
        overwrite p.dossier.assessment.id definitionId (p.dossier.held definitionId) c := by
  unfold Draft.applyCell Store.writes?
  cases s.definitionTitled? p.dossier.assessment.id title with
  | none => rfl
  | some d =>
    dsimp only
    by_cases hd : d.id = definitionId
    · subst hd
      rw [if_pos rfl]
      cases s.cellValue? d raw with
      | none => rfl
      | some c =>
        dsimp only
        rw [held_put, if_pos rfl]
    · rw [if_neg hd]
      cases s.cellValue? d raw with
      | none => rfl
      | some c =>
        dsimp only
        rw [held_put, if_neg (Ne.symm hd)]

theorem held_foldl_applyCell_writes (p : Draft) (row : Row) (columns : List (Nat × String))
    (definitionId : Int) :
    (columns.foldl (fun p c => p.applyCell s c.2 (cell row c.1)) p).dossier.held definitionId =
      (columns.filterMap fun c => s.writes? p.dossier.assessment.id definitionId c.2
        (cell row c.1)).foldl (overwrite p.dossier.assessment.id definitionId)
          (p.dossier.held definitionId) := by
  induction columns generalizing p with
  | nil => rfl
  | cons c columns ih =>
    rw [List.foldl_cons, ih, Draft.assessment_applyCell, held_applyCell_writes, List.filterMap_cons]
    cases s.writes? p.dossier.assessment.id definitionId c.2 (cell row c.1) <;> rfl

namespace Dossier

theorem held_after (x : Dossier) (task : Task) (definitionId : Int) :
    (x.after s today task).held definitionId =
      (task.writes s x.assessment.id definitionId).foldl (overwrite x.assessment.id definitionId)
        (x.held definitionId) := by
  obtain ⟨layout, row⟩ := task
  cases layout with
  | attributes l =>
    rw [held_after_attributes]
    exact held_foldl_applyCell_writes ⟨x, false, false⟩ row l.attributes definitionId
  | state l =>
    have hwrites : Task.writes s x.assessment.id definitionId ⟨.state l, row⟩ = [] := rfl
    rw [held_after_of_order (o := ⟨cell row l.state, cellOf row l.verifiedDate⟩) rfl, hwrites,
      List.foldl_nil]
  | comment l => rfl

theorem held_foldl_after (x : Dossier) (tasks : List Task) (definitionId : Int) :
    (tasks.foldl (Dossier.after s today) x).held definitionId =
      (tasks.flatMap (Task.writes s x.assessment.id definitionId)).foldl
        (overwrite x.assessment.id definitionId) (x.held definitionId) := by
  induction tasks generalizing x with
  | nil => rfl
  | cons task tasks ih =>
    rw [List.foldl_cons, ih, x.id_after, held_after, List.flatMap_cons, List.foldl_append]

end Dossier

end Values

/-! ## Evidence -/

section Links

variable {s : Store} {today : Date} {assessmentId : Int} {es : List Evidence}
  {links : List (EvidenceKind × String)}

theorem exhibits_exhibitOnce (es : List Evidence) (link : EvidenceKind × String) :
    exhibits (exhibitOnce assessmentId es link) link = true := by
  unfold exhibitOnce
  split
  · assumption
  · simp [exhibits, Dossier.exhibit]

theorem exhibits_foldl_of_exhibits {link : EvidenceKind × String} (h : exhibits es link = true)
    (links : List (EvidenceKind × String)) :
    exhibits (links.foldl (exhibitOnce assessmentId) es) link = true := by
  induction links generalizing es with
  | nil => exact h
  | cons other links ih =>
    refine ih ?_
    unfold exhibitOnce
    split
    · exact h
    · rw [exhibits, List.any_append, Bool.or_eq_true]
      exact .inl h

theorem foldl_exhibitOnce_of_exhibits (h : ∀ link ∈ links, exhibits es link = true) :
    links.foldl (exhibitOnce assessmentId) es = es := by
  induction links with
  | nil => rfl
  | cons link links ih =>
    obtain ⟨hfirst, hrest⟩ := List.forall_mem_cons.1 h
    rw [List.foldl_cons, exhibitOnce, if_pos hfirst]
    exact ih hrest

theorem exhibits_foldl_exhibitOnce {link : EvidenceKind × String} (hlink : link ∈ links)
    (es : List Evidence) : exhibits (links.foldl (exhibitOnce assessmentId) es) link = true := by
  obtain ⟨before, after, rfl⟩ := List.append_of_mem hlink
  rw [List.foldl_append, List.foldl_cons]
  exact exhibits_foldl_of_exhibits (exhibits_exhibitOnce _ link) after

/-- Once all links are attached, attaching them again adds nothing. -/
theorem foldl_exhibitOnce_twice (links : List (EvidenceKind × String)) (es : List Evidence) :
    links.foldl (exhibitOnce assessmentId) (links.foldl (exhibitOnce assessmentId) es) =
      links.foldl (exhibitOnce assessmentId) es :=
  foldl_exhibitOnce_of_exhibits fun _ hlink => exhibits_foldl_exhibitOnce hlink es

theorem evidence_attach (p : Draft) (kind : EvidenceKind) (link : String) :
    (p.attach kind link).dossier.evidence =
      exhibitOnce p.dossier.assessment.id p.dossier.evidence (kind, link) := by
  unfold Draft.attach exhibitOnce
  rw [exhibits]
  split <;> rfl

theorem evidence_foldl_attach (p : Draft) (kind : EvidenceKind) (lines : List String) :
    (lines.foldl (Draft.attach kind) p).dossier.evidence =
      (lines.map (Prod.mk kind)).foldl (exhibitOnce p.dossier.assessment.id)
        p.dossier.evidence := by
  induction lines generalizing p with
  | nil => rfl
  | cons link lines ih =>
    rw [List.foldl_cons, ih, Draft.assessment_attach, evidence_attach, List.map_cons,
      List.foldl_cons]

namespace Dossier

theorem evidence_applyCells (x : Dossier) (l : AttributesLayout) (row : Row) :
    (x.applyCells s l row).dossier.evidence = x.evidence := by
  refine foldl_keeps (f := fun p : Draft => p.dossier.evidence) (fun p c _ => ?_) _
  unfold Draft.applyCell
  split
  · rfl
  · split
    · rfl
    · unfold Draft.put
      split <;> rfl

theorem evidence_finish (p : Draft) : p.finish.evidence = p.dossier.evidence := by
  unfold Draft.finish
  split <;> rfl

theorem evidence_after (x : Dossier) (task : Task) :
    (x.after s today task).evidence =
      task.links.foldl (exhibitOnce x.assessment.id) x.evidence := by
  obtain ⟨layout, row⟩ := task
  cases layout with
  | attributes l =>
    have hid (lines : List String) (kind : EvidenceKind) (p : Draft) :
        (lines.foldl (Draft.attach kind) p).dossier.assessment = p.dossier.assessment :=
      foldl_keeps (f := fun p : Draft => p.dossier.assessment)
        (fun _ _ _ => Draft.assessment_attach _ _) _
    rw [after_attributes, applyAttributes, evidence_finish, applyEvidence, evidence_foldl_attach,
      evidence_foldl_attach, hid, assessment_applyCells, evidence_applyCells, Task.links,
      List.foldl_append]
  | state l =>
    have hlinks : Task.links ⟨.state l, row⟩ = [] := rfl
    rw [after_of_order today (o := ⟨cell row l.state, cellOf row l.verifiedDate⟩) rfl, hlinks,
      List.foldl_nil, obey]
  | comment l => rfl

theorem evidence_foldl_after (x : Dossier) (tasks : List Task) :
    (tasks.foldl (Dossier.after s today) x).evidence =
      (tasks.flatMap Task.links).foldl (exhibitOnce x.assessment.id) x.evidence := by
  induction tasks generalizing x with
  | nil => rfl
  | cons task tasks ih =>
    rw [List.foldl_cons, ih, x.id_after, evidence_after, List.flatMap_cons, List.foldl_append]

end Dossier

end Links

/-! ## Assessments -/

namespace Dossier

variable {s : Store} {today again : Date} {x : Dossier} {task : Task} {tasks : List Task}

/-- An attributes row changes nothing, or it leaves the assessment in a state that is not
reopened. -/
theorem after_cases (today : Date) (h : task.SetsAttributes) (x : Dossier) :
    x.after s today task = x ∨ reopens (x.after s today task).assessment.status = false := by
  obtain ⟨layout, row⟩ := task
  obtain ⟨l, rfl⟩ := h
  have hidle := idleFrom_applyAttributes (s := s) (x := x) l row
  rw [after_attributes, applyAttributes]
  generalize applyEvidence (x.applyCells s l row) l row = p at hidle ⊢
  dsimp only
  cases haffected : p.affected with
  | false =>
    left
    rw [← hidle haffected, Draft.finish, haffected, Bool.and_false, if_neg Bool.false_ne_true]
  | true =>
    right
    cases hreopens : reopens p.dossier.assessment.status with
    | false => rwa [Draft.finish, hreopens, Bool.false_and, if_neg Bool.false_ne_true]
    | true =>
      have hprogress : reopens State.inProgress.name = false := by decide
      rw [Draft.finish, hreopens, haffected, Bool.and_true, if_pos rfl]
      exact hprogress

theorem assessment_foldl_after (htasks : ∀ task ∈ tasks, task.SetsAttributes)
    (h : reopens x.assessment.status = false) :
    (tasks.foldl (Dossier.after s today) x).assessment = x.assessment := by
  induction tasks generalizing x with
  | nil => rfl
  | cons task tasks ih =>
    obtain ⟨⟨l, hl⟩, hrest⟩ := List.forall_mem_cons.1 htasks
    obtain ⟨layout, row⟩ := task
    obtain rfl : layout = .attributes l := hl
    have hkept : (x.after s today ⟨.attributes l, row⟩).assessment = x.assessment := by
      rcases x.keptOrReopened_after_attributes l row with hsame | ⟨hreopens, -⟩
      · exact hsame
      · rw [h] at hreopens
        cases hreopens
    rw [List.foldl_cons, ih hrest (hkept ▸ h), hkept]

/-- Attributes rows change nothing, or they leave the assessment in a state that is not
reopened. -/
theorem foldl_after_cases (today : Date) (htasks : ∀ task ∈ tasks, task.SetsAttributes)
    (x : Dossier) :
    tasks.foldl (Dossier.after s today) x = x ∨
      reopens (tasks.foldl (Dossier.after s today) x).assessment.status = false := by
  induction tasks generalizing x with
  | nil => exact .inl rfl
  | cons task tasks ih =>
    obtain ⟨hfirst, hrest⟩ := List.forall_mem_cons.1 htasks
    rw [List.foldl_cons]
    rcases after_cases (s := s) today hfirst x with hsame | hclosed
    · rw [hsame]
      exact ih hrest x
    · right
      rwa [assessment_foldl_after hrest hclosed]

theorem foldl_after_today (today again : Date) (htasks : ∀ task ∈ tasks, task.SetsAttributes)
    (x : Dossier) :
    tasks.foldl (Dossier.after s again) x = tasks.foldl (Dossier.after s today) x := by
  induction tasks generalizing x with
  | nil => rw [List.foldl_nil, List.foldl_nil]
  | cons task tasks ih =>
    obtain ⟨⟨l, hl⟩, hrest⟩ := List.forall_mem_cons.1 htasks
    obtain ⟨layout, row⟩ := task
    obtain rfl : layout = .attributes l := hl
    rw [List.foldl_cons, List.foldl_cons, after_attributes, after_attributes, ih hrest]

/-- A second pass over attributes rows leaves the assessment as the first one did. -/
theorem assessment_foldl_after_twice (htasks : ∀ task ∈ tasks, task.SetsAttributes)
    (x : Dossier) :
    (tasks.foldl (Dossier.after s again) (tasks.foldl (Dossier.after s today) x)).assessment =
      (tasks.foldl (Dossier.after s today) x).assessment := by
  rcases foldl_after_cases (s := s) today htasks x with hsame | hclosed
  · rw [hsame, foldl_after_today today again htasks, hsame]
  · exact assessment_foldl_after htasks hclosed

theorem someRow_rejects_eq_false (htasks : ∀ task ∈ tasks, task.SetsAttributes) (x : Dossier) :
    x.someRow s today (Dossier.rejects s today) tasks = false := by
  refine x.someRow_eq_false fun task htask y => ?_
  obtain ⟨layout, row⟩ := task
  obtain ⟨l, rfl⟩ := htasks _ htask
  exact rejects_attributes l row

/-- Which cells are left out depends on whose row it is alone. -/
theorem someRow_warns_eq (today again : Date) (htasks : ∀ task ∈ tasks, task.SetsAttributes)
    {x y : Dossier} (hid : y.assessment.id = x.assessment.id) :
    y.someRow s again (Dossier.warns s again) tasks =
      x.someRow s today (Dossier.warns s today) tasks := by
  have hwarns (day : Date) (z : Dossier) (hz : z.assessment.id = x.assessment.id) :
      z.someRow s day (Dossier.warns s day) tasks = tasks.any (x.warns s today) := by
    refine z.someRow_eq_any fun task htask w hw => ?_
    obtain ⟨layout, row⟩ := task
    obtain ⟨l, rfl⟩ := htasks _ htask
    rw [warns_attributes, warns_attributes, hw, hz]
  rw [hwarns again y hid, hwarns today x rfl]

end Dossier

/-! ## Imports -/

section Imports

variable {s t : Store} {r : Run} {today again : Date} {blocks : List Block} {id : Int}
  {x y : Dossier}

theorem Block.setsAttributes_tasks (hblocks : ∀ b ∈ blocks, b.SetsAttributes) :
    ∀ task ∈ Block.tasks blocks, task.SetsAttributes := by
  intro task htask
  obtain ⟨b, hb, hmem⟩ := List.mem_flatMap.1 htask
  obtain ⟨l, hl⟩ := hblocks b hb
  rw [hl] at hmem
  obtain ⟨row, -, rfl⟩ := List.mem_map.1 hmem
  exact ⟨l, rfl⟩

theorem Block.setsAttributes_under (hblocks : ∀ b ∈ blocks, b.SetsAttributes) (slug : String) :
    ∀ task ∈ Task.under slug (Block.tasks blocks), task.SetsAttributes :=
  fun task htask => setsAttributes_tasks hblocks task (List.mem_filter.1 htask).1

theorem Task.SetsAttributes.code?_ne_none {task : Task} (h : task.SetsAttributes) :
    task.code? ≠ none := by
  obtain ⟨layout, row⟩ := task
  obtain ⟨l, rfl⟩ := h
  exact Option.some_ne_none _

namespace Store

theorem content_heldBy (s : Store) (objectId definitionId : Int) :
    (s.heldBy objectId definitionId).map StoredValue.content =
      (s.value? definitionId objectId).map StoredValue.content := by
  rw [heldBy, Option.map_map]
  rfl

theorem SameOn.sameContentOn (h : s.SameOn t id) : s.SameContentOn t id :=
  ⟨h.assessment, fun d => by rw [← content_heldBy, ← content_heldBy, h.held], h.evidence⟩

/-- If evidence was only added, then none to an assessment whose evidence is the same. -/
theorem ne_of_evidenceOf_eq {added : List Evidence} (hsplit : s.evidence ++ added = t.evidence)
    {o : Int} (h : t.evidenceOf o = s.evidenceOf o) : ∀ e ∈ added, e.assessmentId ≠ o := by
  intro e he
  rw [evidenceOf, evidenceOf, ← hsplit, List.filter_append, List.map_append,
    List.append_right_eq_self, List.map_eq_nil_iff, List.filter_eq_nil_iff] at h
  simpa using h e he

theorem evidence_eq_of_evidenceOf (hadded : s.evidence <+: t.evidence)
    (h : ∀ id, t.evidenceOf id = s.evidenceOf id) : t.evidence = s.evidence := by
  obtain ⟨added, hsplit⟩ := hadded
  have hnone : added = [] := List.eq_nil_iff_forall_not_mem.2 fun e he =>
    ne_of_evidenceOf_eq hsplit (h e.assessmentId) e he rfl
  rw [← hsplit, hnone, List.append_nil]

end Store

/-- A second import of attributes rows leaves everything about an object as the first one did. -/
theorem sameContentOn_importBlocks (hk : s.Keyed) (hr : r = s.importBlocks today blocks)
    (again : Date) (hblocks : ∀ b ∈ blocks, b.SetsAttributes) (id : Int) :
    r.store.SameContentOn (r.store.importBlocks again blocks).store id := by
  have hframe : s.SameFrame r.store := hr ▸ Run.sameFrame_importBlocks hk blocks
  cases ha : s.assessment? id with
  | none =>
    have hfirst : s.SameOn r.store id := hr ▸ Run.sameOn_importBlocks_of_unknown hk ha blocks
    have hsecond : r.store.SameOn (r.store.importBlocks again blocks).store id :=
      Run.sameOn_importBlocks_of_unknown (hframe.keyed hk) (hfirst.assessment.trans ha) blocks
    exact hsecond.sameContentOn
  | some a =>
    have hx := Store.dossier?_of_assessment? ha
    generalize (⟨a, s.heldBy id, s.evidenceOf id⟩ : Dossier) = x at hx
    have hfirst := dossier?_importBlocks today hk (.refl s) hx blocks
    rw [← hr] at hfirst
    have hsecond := dossier?_importBlocks again hk hframe hfirst blocks
    rw [slug_foldl_after] at hsecond
    obtain ⟨ha₁, hv₁, he₁⟩ := Store.dossier?_eq_some_iff.1 hfirst
    obtain ⟨ha₂, hv₂, he₂⟩ := Store.dossier?_eq_some_iff.1 hsecond
    have hunder := Block.setsAttributes_under hblocks x.assessment.slug
    generalize Task.under x.assessment.slug (Block.tasks blocks) = tasks at *
    have hid : (tasks.foldl (Dossier.after s today) x).assessment.id = x.assessment.id :=
      foldl_keeps (f := fun y : Dossier => y.assessment.id) (fun y task _ => y.id_after task) x
    refine ⟨?_, fun definitionId => ?_, ?_⟩
    · rw [ha₁, ha₂, Dossier.assessment_foldl_after_twice hunder]
    · rw [← Store.content_heldBy, ← Store.content_heldBy, ← hv₁, ← hv₂,
        Dossier.held_foldl_after _ tasks, hid, Dossier.held_foldl_after x]
      exact content_foldl_overwrite_twice
        (fun c hc c' hc' heffective => eq_of_mem_writes hk hc hc' heffective) _
    · rw [← he₁, ← he₂, Dossier.evidence_foldl_after _ tasks, hid, Dossier.evidence_foldl_after x]
      exact foldl_exhibitOnce_twice _ _

/-- A second import of attributes rows reports what the first one did. -/
theorem report_importBlocks_twice (hk : s.Keyed) (hr : r = s.importBlocks today blocks)
    (again : Date) (hblocks : ∀ b ∈ blocks, b.SetsAttributes) :
    (r.store.importBlocks again blocks).report = r.report := by
  have hframe : s.SameFrame r.store := hr ▸ Run.sameFrame_importBlocks hk blocks
  have hcodes : ∀ task ∈ Block.tasks blocks, task.code? ≠ none :=
    fun task htask => (Block.setsAttributes_tasks hblocks task htask).code?_ne_none
  have hkey (slug : String) : ∀ task ∈ Block.tasks blocks, task.code? = none →
      task.layout.key task.row ≠ slug := fun task htask hcode => absurd hcode (hcodes task htask)
  -- either import meets the assessment with the same id and the same slug
  have hdossiers {a : Assessment} (ha : a ∈ s.assessments) : ∃ x y, s.dossier? a.id = some x ∧
      x.assessment = a ∧ r.store.dossier? a.id = some y ∧ y.assessment.id = a.id ∧
        y.assessment.slug = a.slug := by
    obtain ⟨x, hx, rfl⟩ := hk.exists_dossier ha
    have hy := dossier?_importBlocks today hk (.refl s) hx blocks
    rw [← hr] at hy
    exact ⟨x, _, hx, rfl, hy, Store.id_of_dossier? hy, slug_foldl_after x _⟩
  have hunder := Block.setsAttributes_under hblocks
  rw [hr] at hframe hdossiers ⊢
  refine Run.report_eq_of_slugs hk hframe (fun _ => rfl) hcodes hcodes (fun a ha => ?_)
    (fun a ha => ?_)
  · obtain ⟨x, y, hx, rfl, hy, hid, hslug⟩ := hdossiers ha
    rw [Run.mem_errors_importBlocks again hk hframe hy hslug (hkey _),
      Run.mem_errors_importBlocks today hk (.refl s) hx rfl (hkey _),
      Dossier.someRow_rejects_eq_false (hunder _), Dossier.someRow_rejects_eq_false (hunder _)]
  · obtain ⟨x, y, hx, rfl, hy, hid, hslug⟩ := hdossiers ha
    rw [Run.mem_warnings_importBlocks again hk hframe hy hslug,
      Run.mem_warnings_importBlocks today hk (.refl s) hx rfl,
      Dossier.someRow_warns_eq today again (hunder _) hid]

end Imports

/-- Importing attributes rows is idempotent: a second import of the same blocks leaves the
assessments, what is stored of their values, and the evidence as the first one did, and reports the
same. -/
theorem import_idempotent {s : Store} (hk : s.Keyed) (today again : Date) {blocks : List Block}
    (hblocks : ∀ b ∈ blocks, b.SetsAttributes) {r : Run} (hr : r = s.importBlocks today blocks) :
    (r.store.importBlocks again blocks).store.assessments = r.store.assessments ∧
      (∀ definitionId objectId,
        ((r.store.importBlocks again blocks).store.value? definitionId objectId).map
            StoredValue.content =
          (r.store.value? definitionId objectId).map StoredValue.content) ∧
      (r.store.importBlocks again blocks).store.evidence = r.store.evidence ∧
      (r.store.importBlocks again blocks).report = r.report := by
  have hframe : s.SameFrame r.store := hr ▸ Run.sameFrame_importBlocks hk blocks
  have hkr := hframe.keyed hk
  have hsame := sameContentOn_importBlocks hk hr again hblocks
  refine ⟨?_, fun definitionId objectId => (hsame objectId).values definitionId, ?_,
    report_importBlocks_twice hk hr again hblocks⟩
  · exact (Run.sameFrame_importBlocks hkr blocks).assessments_eq hkr fun a _ =>
      (hsame a.id).assessment
  · refine Store.evidence_eq_of_evidenceOf ?_ fun id => (hsame id).evidence
    rw [Store.store_importBlocks]
    exact (Store.precedes_foldl hkr again _).evidence

/-- Two rows for one assessment, with a title that comes twice. -/
def overwritingBlocks : List Block :=
  [⟨[Column.assessment, Column.code, "Note", "Note", Column.evidenceUrl],
      [["", "A-2", "", "draft", "a.example"], ["", " A-2 ", "final", "final", "a.example"],
        ["", "A-3", "lost", "", ""]]⟩]

/-- The second import takes the note through other values again, and ends with the same one. -/
theorem import_idempotent_overwriting :
    let r := sharedTitleStore.importBlocks ⟨2024, 5, 17⟩ overwritingBlocks
    (r.store.value? 6 2).map StoredValue.content = some ⟨some "final", none⟩ ∧
      ((r.store.importBlocks ⟨2024, 5, 18⟩ overwritingBlocks).store.value? 6 2).map
        StoredValue.content = some ⟨some "final", none⟩ ∧
      (r.store.importBlocks ⟨2024, 5, 18⟩ overwritingBlocks).report.errors.toList = ["A-3"] := by
  have hkeyed : sharedTitleStore.Keyed := ⟨by decide, by decide, by decide⟩
  have hblocks : ∀ b ∈ overwritingBlocks, b.SetsAttributes := by
    intro b hb
    obtain rfl := List.mem_singleton.1 hb
    exact ⟨_, rfl⟩
  obtain ⟨-, hvalues, -, hreport⟩ :=
    import_idempotent hkeyed ⟨2024, 5, 17⟩ ⟨2024, 5, 18⟩ hblocks rfl
  have hfirst : ((sharedTitleStore.importBlocks ⟨2024, 5, 17⟩ overwritingBlocks).store.value? 6
      2).map StoredValue.content = some ⟨some "final", none⟩ := by decide +kernel
  refine ⟨hfirst, (hvalues 6 2).trans hfirst, ?_⟩
  rw [hreport]
  decide +kernel

/-- A row of the table of values that holds nothing but a flag. -/
def flaggedStore : Store :=
  { verifiedStore with
    definitions := [⟨6, Definition.localType, some 2, "Owner", "Map:Person", false, none, none, none⟩]
    values := [⟨1, 6, 2, none, none, some true⟩] }

/-- No owner, and then one. -/
def emptyingBlocks : List Block :=
  [⟨[Column.assessment, Column.code, "Owner", "Owner"],
      [["", "A-2", "", "verifier@example.com"]]⟩]

-- the first import keeps the row, which the second one removes before it stores the owner again
example :
    let r := flaggedStore.importBlocks ⟨2024, 5, 17⟩ emptyingBlocks
    (r.store.value? 6 2).bind StoredValue.preconditionsFailed = some true ∧
      ((r.store.importBlocks ⟨2024, 5, 17⟩ emptyingBlocks).store.value? 6 2).bind
        StoredValue.preconditionsFailed = none := by
  decide +kernel

end BulkAssessment
