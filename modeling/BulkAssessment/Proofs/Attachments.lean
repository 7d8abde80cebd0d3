import BulkAssessment.Proofs.Effects
import BulkAssessment.Proofs.KeyedLists

/-!
# Evidence is attached once

The links of a row are attached one after the other, each unless it is attached already, also by
the same row. All in all a row appends the distinct links of its cells that were not attached before
it, in the order in which they come first (`foldl_exhibitOnce_eq`). The two kinds of evidence do not
know of each other, so one link may be attached once as a link and once as a file.

A piece of evidence is known by its assessment, its kind and its link (`Evidence.key`). If these
keys are unique, they stay unique whatever rows are applied.
-/

namespace BulkAssessment

/-- What a piece of evidence is known by. -/
def Evidence.key (e : Evidence) : Int × String × String := (e.assessmentId, e.kind, e.link)

/-- The links of a cell that are new to the evidence of an assessment, in the order in which they
come first. -/
def Store.newLinks (s : Store) (assessmentId : Int) (kind : EvidenceKind) (cell : String) :
    List String :=
  (Keyed.firsts (evidenceLines cell)).filter fun link => !s.hasEvidence assessmentId kind link

/-! ## Links in closed form -/

section Links

variable {assessmentId : Int} {es : List Evidence} {kind : EvidenceKind}

theorem EvidenceKind.name_inj {kind other : EvidenceKind} (h : kind.name = other.name) :
    kind = other := by
  revert h
  cases kind <;> cases other <;> decide

theorem exhibits_append_map (links : List String) (other : EvidenceKind) (link : String) :
    exhibits (es ++ links.map (Dossier.exhibit assessmentId kind)) (other, link) = true ↔
      exhibits es (other, link) = true ∨ other = kind ∧ link ∈ links := by
  simp only [exhibits, List.any_append, Bool.or_eq_true, List.any_map, List.any_eq_true,
    Function.comp_apply, Dossier.exhibit, Bool.and_eq_true, beq_iff_eq]
  refine or_congr_right ?_
  constructor
  · rintro ⟨link, hlink, hkind, rfl⟩
    exact ⟨(EvidenceKind.name_inj hkind).symm, hlink⟩
  · rintro ⟨rfl, hlink⟩
    exact ⟨link, hlink, rfl, rfl⟩

/-- Attaching links of one kind appends those that are not there, each once. -/
theorem foldl_exhibitOnce_eq (links : List String) :
    (links.map (Prod.mk kind)).foldl (exhibitOnce assessmentId) es =
      es ++ ((Keyed.firsts links).filter fun link => !exhibits es (kind, link)).map
        (Dossier.exhibit assessmentId kind) := by
  induction links using List.reverseRecOn with
  | nil => simp [Keyed.firsts]
  | append_singleton links link ih =>
    rw [List.map_append, List.foldl_append, ih, Keyed.firsts_concat, List.map_singleton,
      List.foldl_cons, List.foldl_nil, exhibitOnce]
    simp only [exhibits_append_map, List.mem_filter, Keyed.mem_firsts, true_and]
    by_cases hold : exhibits es (kind, link) = true
    · -- the link was attached before
      rw [if_pos (.inl hold)]
      split
      · rfl
      · simp [List.filter_append, hold]
    · by_cases hseen : link ∈ links
      · rw [if_pos (.inr ⟨hseen, by simpa using hold⟩), if_pos hseen]
      · rw [if_neg (not_or_intro hold fun h => hseen h.1), if_neg hseen]
        simp [List.filter_append, hold]

end Links

/-! ## What a row attaches -/

section Rows

variable {s t : Store} {today : Date} {id : Int} {x : Dossier} {l : AttributesLayout} {row : Row}

theorem Dossier.evidence_after_attributes (hx : s.dossier? x.assessment.id = some x) :
    (x.after s today ⟨.attributes l, row⟩).evidence = x.evidence ++
      ((s.newLinks x.assessment.id .url (cellOf row l.urls)).map (exhibit x.assessment.id .url) ++
        (s.newLinks x.assessment.id .file (cellOf row l.files)).map
          (exhibit x.assessment.id .file)) := by
  have hnew (kind : EvidenceKind) (text : String) :
      (Keyed.firsts (evidenceLines text)).filter (fun link => !exhibits x.evidence (kind, link)) =
        s.newLinks x.assessment.id kind text := by
    refine List.filter_congr fun link _ => ?_
    rw [Store.hasEvidence_eq hx]
    rfl
  -- what is attached as a link does not count as a file
  have hkinds (urls : List String) (link : String) :
      exhibits (x.evidence ++ urls.map (exhibit x.assessment.id .url)) (.file, link) =
        exhibits x.evidence (.file, link) := by
    rw [Bool.eq_iff_iff, exhibits_append_map]
    exact or_iff_left fun h => nomatch h.1
  rw [evidence_after, Task.links, List.foldl_append, foldl_exhibitOnce_eq, foldl_exhibitOnce_eq]
  simp only [hkinds, hnew, List.append_assoc]

/-- Evidence that was added while that of all other assessments stayed is evidence of the one. -/
theorem Store.exists_added (hadded : s.evidence <+: t.evidence)
    (hothers : ∀ o ≠ id, t.evidenceOf o = s.evidenceOf o) :
    ∃ added, t.evidence = s.evidence ++ added ∧
      t.evidenceOf id = s.evidenceOf id ++ added.map Evidence.unnumbered := by
  obtain ⟨added, hsplit⟩ := hadded
  have hown : added.filter (fun e => e.assessmentId == id) = added := by
    refine List.filter_eq_self.2 fun e he => ?_
    by_contra hne
    exact ne_of_evidenceOf_eq hsplit (hothers e.assessmentId (by simpa using hne)) e he rfl
  refine ⟨added, hsplit.symm, ?_⟩
  rw [evidenceOf, evidenceOf, ← hsplit, List.filter_append, hown, List.map_append]

theorem Store.exists_added_of_accepted {warned : Bool} (hk : s.Keyed)
    (h : s.applyRow today row (.attributes l) = .ok (t, warned)) :
    ∃ a ∈ s.assessments, a.slug = cell row l.code ∧ ∃ added, t.evidence = s.evidence ++ added ∧
      added.map Evidence.unnumbered =
        (s.newLinks a.id .url (cellOf row l.urls)).map (Dossier.exhibit a.id .url) ++
          (s.newLinks a.id .file (cellOf row l.files)).map (Dossier.exhibit a.id .file) := by
  obtain ⟨x, hx, hcode, hamends, -⟩ := applyRow_attributes_eq_ok hk h
  have hprefix := s.evidence_afterRow today ⟨.attributes l, row⟩
  rw [afterRow, h] at hprefix
  obtain ⟨added, hsplit, hown⟩ := exists_added hprefix fun o ho => (hamends.others o ho).evidence
  refine ⟨x.assessment, mem_of_dossier? hx, hcode, added, hsplit, ?_⟩
  rw [← (dossier?_eq_some_iff.1 hamends.own).2.2, Dossier.evidence_after_attributes hx,
    (dossier?_eq_some_iff.1 hx).2.2] at hown
  exact (List.append_cancel_left hown).symm

end Rows

/-! ## Keys of evidence -/

section Keys

variable {s t : Store} {today : Date} {assessmentId : Int} {es : List Evidence}

/-- What a piece of evidence is known by among that of its assessment. -/
def Evidence.mark (e : Evidence) : String × String := (e.kind, e.link)

theorem Store.nodup_keys_iff :
    (s.evidence.map Evidence.key).Nodup ↔ ∀ id, ((s.evidenceOf id).map Evidence.mark).Nodup := by
  have hmarks (id : Int) : ((s.evidenceOf id).map Evidence.mark).Nodup ↔ s.evidence.Pairwise
      fun e f => e.assessmentId = id → f.assessmentId = id → e.mark ≠ f.mark := by
    rw [evidenceOf, List.map_map, List.Nodup, List.pairwise_map, List.pairwise_filter]
    simp only [beq_iff_eq]
    rfl
  have hkeys : (s.evidence.map Evidence.key).Nodup ↔
      s.evidence.Pairwise fun e f => e.key ≠ f.key := by
    rw [List.Nodup, List.pairwise_map]
  rw [hkeys]
  simp only [hmarks, List.pairwise_iff_forall_sublist]
  constructor
  · rintro h id e f hsub he hf hmark
    exact h hsub (Prod.ext (he.trans hf.symm) hmark)
  · rintro h e f hsub hkey
    obtain ⟨hid, hmark⟩ := Prod.mk.inj hkey
    exact h e.assessmentId hsub rfl hid.symm hmark

theorem nodup_marks_foldl_exhibitOnce (h : (es.map Evidence.mark).Nodup)
    (links : List (EvidenceKind × String)) :
    ((links.foldl (exhibitOnce assessmentId) es).map Evidence.mark).Nodup := by
  induction links generalizing es with
  | nil => exact h
  | cons link links ih =>
    refine ih ?_
    unfold exhibitOnce
    split
    · exact h
    · rename_i hnew
      rw [List.map_append, List.map_singleton]
      refine List.nodup_append.2 ⟨h, List.nodup_singleton _, ?_⟩
      intro mark hmark other hother
      obtain rfl := List.mem_singleton.1 hother
      obtain ⟨e, he, rfl⟩ := List.mem_map.1 hmark
      rintro hsame
      obtain ⟨hkind, hlink⟩ := Prod.mk.inj hsame
      exact hnew (List.any_eq_true.2 ⟨e, he, by simp [hkind, hlink, Dossier.exhibit]⟩)

theorem Run.nodup_keys_apply {r : Run} (hk : r.store.Keyed)
    (h : (r.store.evidence.map Evidence.key).Nodup) (today : Date) (task : Task) :
    ((r.apply today task).store.evidence.map Evidence.key).Nodup := by
  rw [Store.nodup_keys_iff] at h ⊢
  intro id
  cases ha : r.store.assessment? id with
  | none =>
    rw [(sameOn_apply_of_unknown hk ha today task).evidence]
    exact h id
  | some a =>
    have hx := Store.dossier?_of_assessment? ha
    have hrow := (Store.dossier?_eq_some_iff.1 (dossier?_apply today hk hx task)).2.2
    rw [← hrow]
    split
    · rw [Dossier.evidence_after]
      exact nodup_marks_foldl_exhibitOnce (h id) _
    · exact h id

theorem Store.hasEvidence_iff {id : Int} {kind : EvidenceKind} {link : String} :
    s.hasEvidence id kind link = true ↔ (id, kind.name, link) ∈ s.evidence.map Evidence.key := by
  simp only [hasEvidence, List.any_eq_true, Bool.and_eq_true, beq_iff_eq, List.mem_map,
    Evidence.key, Prod.mk.injEq, and_assoc]

theorem Store.hasEvidence_of_accepted {l : AttributesLayout} {row : Row} {warned : Bool}
    (hk : s.Keyed) (h : s.applyRow today row (.attributes l) = .ok (t, warned)) {a : Assessment}
    (ha : a ∈ s.assessments) (hcode : a.slug = cell row l.code) {kind : EvidenceKind}
    {link : String} (hlink : (kind, link) ∈ Task.links ⟨.attributes l, row⟩) :
    t.hasEvidence a.id kind link = true := by
  obtain ⟨x, hx, hslug, hamends, -⟩ := applyRow_attributes_eq_ok hk h
  obtain rfl := hk.eq_of_slug ha (mem_of_dossier? hx) (hcode.trans hslug.symm)
  rw [hasEvidence_eq hamends.own, Dossier.evidence_after]
  exact exhibits_foldl_exhibitOnce hlink x.evidence

end Keys

/-- An accepted attributes row adds to the evidence of its assessment the distinct links of its
cells that are not attached as evidence of their kind, links before files, each in the order in
which they come first. If no two pieces of evidence have the same assessment, kind and link, then
that stays so between any two rows of any interleaving of imports; a link in both cells of a row is
attached once as a link and once as a file. -/
theorem evidence_attached_once {s : Store} (hk : s.Keyed) :
    (∀ (today : Date) (l : AttributesLayout) (row : Row) (t : Store) (warned : Bool),
      s.applyRow today row (.attributes l) = .ok (t, warned) →
      ∃ a ∈ s.assessments, a.slug = cell row l.code ∧
        (∃ added, t.evidence = s.evidence ++ added ∧
          added.map Evidence.unnumbered =
            (s.newLinks a.id .url (cellOf row l.urls)).map
              (fun link => ⟨0, a.id, EvidenceKind.url.name, link, none⟩) ++
            (s.newLinks a.id .file (cellOf row l.files)).map
              (fun link => ⟨0, a.id, EvidenceKind.file.name, link, some link⟩)) ∧
        ((s.evidence.map Evidence.key).Nodup →
          ∀ link ∈ evidenceLines (cellOf row l.urls), link ∈ evidenceLines (cellOf row l.files) →
            (t.evidence.map Evidence.key).count (a.id, EvidenceKind.url.name, link) = 1 ∧
            (t.evidence.map Evidence.key).count (a.id, EvidenceKind.file.name, link) = 1)) ∧
    ((s.evidence.map Evidence.key).Nodup →
      ∀ (jobs : List (Date × List Block)) (m : Imports), (Imports.start s jobs).Reaches m →
        (m.store.evidence.map Evidence.key).Nodup) := by
  refine ⟨fun today l row t warned h => ?_, fun hnodup jobs m hm => ?_⟩
  · obtain ⟨a, ha, hcode, hadded⟩ := Store.exists_added_of_accepted hk h
    refine ⟨a, ha, hcode, hadded, fun hnodup link hurl hfile => ?_⟩
    have hkeys : (t.evidence.map Evidence.key).Nodup := by
      have hrow : (Run.start s).store.applyRow today row (.attributes l) = .ok (t, warned) := h
      have hnodup := Run.nodup_keys_apply (r := Run.start s) hk hnodup today ⟨.attributes l, row⟩
      rwa [Run.store_apply, hrow] at hnodup
    have hattached {kind : EvidenceKind} (hlink : (kind, link) ∈ Task.links ⟨.attributes l, row⟩) :
        (t.evidence.map Evidence.key).count (a.id, kind.name, link) = 1 := by
      have hmem := Store.hasEvidence_iff.1 (Store.hasEvidence_of_accepted hk h ha hcode hlink)
      exact List.count_eq_one_of_mem hkeys hmem
    exact ⟨hattached (List.mem_append_left _ (List.mem_map_of_mem hurl)),
      hattached (List.mem_append_right _ (List.mem_map_of_mem hfile))⟩
  · exact (Imports.reaches_keeps (P := fun s => (s.evidence.map Evidence.key).Nodup)
      (fun r hkr hr => Run.nodup_keys_apply hkr hr) hm hk hnodup).2

/-- An assessment with a link. -/
def linkedStore : Store :=
  { Store.empty with
    assessments := [⟨1, "A-1", "Backups", State.inProgress.name, "Control", none, none⟩]
    evidence := [⟨4, 1, EvidenceKind.url.name, "b.example", none⟩] }

/-- A row with that link, and with another one that comes twice and as a file. -/
def linkingRow : Row := ["", "A-1", "a.example\n b.example\n\n a.example ", "a.example"]

/-- The store after that row. -/
def linkedStoreAfter : Store :=
  { linkedStore with
    evidence :=
      [⟨4, 1, EvidenceKind.url.name, "b.example", none⟩,
        ⟨5, 1, EvidenceKind.url.name, "a.example", none⟩,
        ⟨6, 1, EvidenceKind.file.name, "a.example", some "a.example"⟩] }

/-- A block with that row, twice. -/
def linkingBlock : Block :=
  ⟨[Column.assessment, Column.code, Column.evidenceUrl, Column.evidenceFile],
    [linkingRow, linkingRow]⟩

/-- The other link is attached once as a link and once as a file, and the second row attaches
nothing. -/
theorem evidence_attached_once_twice :
    linkedStore.applyRow ⟨2024, 5, 17⟩ linkingRow (.attributes ⟨1, some 2, some 3, []⟩) =
        .ok (linkedStoreAfter, false) ∧
      (linkedStoreAfter.evidence.map Evidence.key).count
        (1, EvidenceKind.file.name, "a.example") = 1 ∧
      ((linkedStore.importBlocks ⟨2024, 5, 17⟩ [linkingBlock]).store.evidence.map
        Evidence.key).Nodup := by
  have hkeyed : linkedStore.Keyed := ⟨by decide, by decide, by decide⟩
  have hnodup : (linkedStore.evidence.map Evidence.key).Nodup := by decide
  have h : linkedStore.applyRow ⟨2024, 5, 17⟩ linkingRow (.attributes ⟨1, some 2, some 3, []⟩) =
      .ok (linkedStoreAfter, false) := by decide +kernel
  have hreach := Imports.reaches_importBlocks linkedStore ⟨2024, 5, 17⟩ [linkingBlock]
  obtain ⟨hrow, hruns⟩ := evidence_attached_once hkeyed
  obtain ⟨a, ha, -, -, honce⟩ := hrow _ _ _ _ _ h
  obtain rfl := List.mem_singleton.1 ha
  have hfile := (honce hnodup "a.example" (by decide +kernel) (by decide +kernel)).2
  have hkeys := hruns hnodup _ _ hreach
  dsimp only at hkeys
  exact ⟨h, hfile, hkeys⟩

end BulkAssessment
