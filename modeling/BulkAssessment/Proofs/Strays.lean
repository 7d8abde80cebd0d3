import BulkAssessment.Proofs.Rows

/-!
# Rows that go astray

A request names assessments by id, while rows look for them by slug, without the blanks around
it. So the row of an id can end up at an assessment that the request does not name
(`Store.Strays`), in two ways:

* no assessment has the id, and the slug that was sent for it is that of another one;
* an assessment has the id, and its slug without the blanks around it is that of another one.

An assessment that is not named keeps its dossier exactly if the rows that go astray to it
leave the dossier alone, and surely if there are none.
-/

namespace BulkAssessment

/-- The rows of a named id end up at an assessment with another id, one that has the given
slug. -/
def Store.Strays (s : Store) (request : BulkRequest) (slug : String) (id : Int) : Prop :=
  id ∈ request.named ∧
    ((s.assessment? id = none ∧ Text.trim (request.sentSlug id) = slug) ∨
      ∃ b, s.assessment? id = some b ∧ b.slug ≠ slug ∧ Text.trim b.slug = slug)

section

variable {s : Store} {request : BulkRequest} {today : Date} {op : Operation} {id : Int}
  {x : Dossier}

theorem strays_of_mem_rows (hk : s.Keyed) (hx : s.dossier? id = some x) (hid : id ∉ request.named)
    {row : Int × Task} (hrow : row ∈ op.rows s today request)
    (hcode : row.2.code? = some x.assessment.slug) :
    s.Strays request x.assessment.slug row.1 := by
  obtain ⟨hnamed, hown⟩ := Operation.code?_of_mem_rows hrow
  rw [hown, Option.some.injEq] at hcode
  refine ⟨hnamed, ?_⟩
  unfold Store.slugOf at hcode
  cases hb : s.assessment? row.1 with
  | none =>
    rw [hb] at hcode
    exact Or.inl ⟨rfl, hcode⟩
  | some b =>
    rw [hb] at hcode
    refine Or.inr ⟨b, rfl, fun hslug => ?_, hcode⟩
    -- with the same slug it would be the assessment itself, which is not named
    obtain ⟨hbmem, hbid⟩ := Store.mem_of_assessment?_eq_some hb
    have hsame := hk.eq_of_slug hbmem (Store.mem_of_dossier? hx) hslug
    rw [hsame, Store.id_of_dossier? hx] at hbid
    exact hid (hbid ▸ hnamed)

theorem rowsUnder_eq_nil (hk : s.Keyed) (hx : s.dossier? id = some x) (hid : id ∉ request.named)
    (h : ∀ i, ¬ s.Strays request x.assessment.slug i) :
    Operation.rowsUnder x.assessment.slug (op.rows s today request) = [] := by
  unfold Operation.rowsUnder Task.under
  rw [List.filter_eq_nil_iff]
  intro task htask hcode
  obtain ⟨row, hrow, rfl⟩ := List.mem_map.1 htask
  exact h row.1 (strays_of_mem_rows hk hx hid hrow (by simpa using hcode))

/-- If every id that is named has its assessment, with a slug that has no blanks around it, then
no row goes astray. -/
theorem not_strays (slug : String)
    (hknown : ∀ i ∈ request.named, ∃ b, s.assessment? i = some b ∧ Text.trim b.slug = b.slug) :
    ¬ s.Strays request slug id := by
  rintro ⟨hnamed, hcase⟩
  obtain ⟨b, hb, htrimmed⟩ := hknown id hnamed
  rcases hcase with ⟨hnone, -⟩ | ⟨c, hc, hslug, htrim⟩
  · rw [hnone] at hb
    cases hb
  · rw [hb, Option.some.injEq] at hc
    subst hc
    exact hslug (htrimmed.symm.trans htrim)

end

namespace Operation

variable {s t : Store} {request : BulkRequest} {today : Date} {op : Operation} {appUrl : String}
  {o : Outcome} {id : Int} {x : Dossier}

/-- An assessment that a request does not name keeps its state, its dates, its values and its
evidence exactly if the rows with its code leave its dossier alone. All these rows have gone
astray, so it keeps everything if no row does. -/
theorem unnamed_unchanged_iff (hk : s.Keyed)
    (h : op.perform s appUrl today request = .ok (t, o)) (hx : s.dossier? id = some x)
    (hids : id ∉ request.ids) (hentries : ∀ e ∈ request.entries, e.assessmentId ≠ id) :
    (t.dossier? id = some x ↔
      (rowsUnder x.assessment.slug (op.rows s today request)).foldl
        (Dossier.after s today) x = x) ∧
    (∀ row ∈ op.rows s today request, row.2.code? = some x.assessment.slug →
      s.Strays request x.assessment.slug row.1) ∧
    ((∀ i, ¬ s.Strays request x.assessment.slug i) → t.dossier? id = some x) := by
  have hnamed : id ∉ request.named := by
    rw [BulkRequest.mem_named]
    rintro (hmem | ⟨e, he, heid⟩)
    · exact hids hmem
    · exact hentries e he heid
  have hrun := op.dossier?_run today hk hx request
  rw [← store_of_perform h] at hrun
  refine ⟨?_, fun row hrow => strays_of_mem_rows hk hx hnamed hrow, fun hnone => ?_⟩
  · rw [hrun, Option.some.injEq]
  · rw [hrun, rowsUnder_eq_nil hk hx hnamed hnone, List.foldl_nil]

/-- An assessment that has an attribute without a value. -/
def strayStore : Store :=
  { Store.empty with
    assessments := [⟨1, "A-1", "Backups", State.notStarted.name, "Control", none, none⟩]
    definitions := [⟨5, Definition.localType, some 1, "Note", "Text", false, none, none, none⟩] }

/-- A value for an assessment that is gone, sent with the slug of another one. -/
def strayRequest : BulkRequest :=
  ⟨[], [⟨99, "A-1", [⟨.string "done", "Note", "Text", some 1, 5, none⟩]⟩]⟩

/-- The value is stored on the assessment that the request does not name. -/
theorem unnamed_changed :
    ∃ t o x, save.perform strayStore "" ⟨2024, 5, 17⟩ strayRequest = .ok (t, o) ∧
      strayStore.dossier? 1 = some x ∧ t.dossier? 1 ≠ some x := by
  have hkeyed : strayStore.Keyed := ⟨by decide, by decide, by decide⟩
  have hx : strayStore.dossier? 1 = some ⟨_, strayStore.heldBy 1, strayStore.evidenceOf 1⟩ := rfl
  obtain ⟨t, o, h⟩ : ∃ t o, save.perform strayStore "" ⟨2024, 5, 17⟩ strayRequest = .ok (t, o) :=
    ⟨_, _, rfl⟩
  refine ⟨t, o, _, h, hx, fun hsame => ?_⟩
  have hrows := (unnamed_unchanged_iff hkeyed h hx (by decide) (by decide)).1.1 hsame
  have hheld := congrArg (fun x => (x.held 5).isSome) hrows
  exact absurd hheld (by decide +kernel)

end Operation

end BulkAssessment
