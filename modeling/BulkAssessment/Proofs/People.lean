import BulkAssessment.Proofs.Constraints
import BulkAssessment.Proofs.Submissions

/-!
# People by id and by email

A submitted person is an id, a cell has the email of the person, and what is stored is the id of a
person with that email again. The email is looked up exactly, among the people that the request
names; but since the request names the person, it might as well be looked up in the whole table
(`Store.submittedText_eq`).

The way back is not exact. The blanks around the email are cut off, an empty cell stands for no
person, and of several people whose emails differ in case alone the one with the least email is
taken (`Store.personByEmail?_eq_some_iff`), while the schema lets such emails stand side by side.
So a person comes back as the same person exactly if the email is not empty, has no blanks around
it and is the least of its kind (`Store.Recalls`, `person_stored`).
-/

namespace BulkAssessment

/-! ## From the id to the email -/

theorem PeopleIndex.email?_ofList (people : List (Int × String)) (id : Int) :
    (PeopleIndex.ofList people).email? id =
      ((people.filter fun p => p.1 = id).getLast?).map Prod.snd := by
  rw [email?, ofList, Keyed.get?_foldl_set (fun _ _ => rfl), Keyed.get?_nil, Option.or_none]

namespace Store

variable {s : Store} {request : BulkRequest} {v : Submission}

/-- The emails of all people. -/
def emails (s : Store) : PeopleIndex := .ofList (s.people.map fun p => (p.id, p.email))

theorem email?_emailsByIds {ids : List Int} {id : Int} (h : id ∈ ids) :
    (PeopleIndex.ofList (s.emailsByIds ids)).email? id = s.emails.email? id := by
  rw [emails, PeopleIndex.email?_ofList, PeopleIndex.email?_ofList, emailsByIds, List.filter_map,
    List.filter_map, List.filter_filter]
  congr 3
  refine List.filter_congr fun p _ => ?_
  by_cases hp : p.id = id
  · simp [hp, h]
  · simp [hp]

theorem submittedText_eq (hv : v ∈ request.submissions) :
    s.submittedText request v = normalize s.emails (rawText? v.value) v.typeName := by
  unfold submittedText normalize normalizeAs
  cases hkind : AttributeKind.ofName v.typeName with
  | person =>
    cases hid : personId? (rawText? v.value) with
    | none => rfl
    | some id =>
      have hnamed : id ∈ request.personIds := by
        refine Keyed.mem_firsts.2 (List.mem_filterMap.2 ⟨v, hv, ?_⟩)
        rw [Submission.personId?, if_pos hkind, hid]
      simp only [Option.bind_some, email?_emailsByIds hnamed]
  | _ => rfl

theorem Consistent.eq_of_personId (hs : s.Consistent) {p q : Person} (hp : p ∈ s.people)
    (hq : q ∈ s.people) (h : p.id = q.id) : p = q :=
  List.inj_on_of_nodup_map hs.personIds hp hq h

theorem Consistent.email?_emails (hs : s.Consistent) {q : Person} (hq : q ∈ s.people) :
    s.emails.email? q.id = some q.email := by
  have hmem : q ∈ s.people.filter fun p => p.id = q.id := List.mem_filter.2 ⟨hq, by simp⟩
  have hlast := List.getLast_mem (List.ne_nil_of_mem hmem)
  have hsame := hs.eq_of_personId (List.mem_filter.1 hlast).1 hq
    (by simpa using (List.mem_filter.1 hlast).2)
  rw [Store.emails, PeopleIndex.email?_ofList, List.filter_map, List.getLast?_map, Option.map_map]
  exact congrArg (Option.map _)
    ((List.getLast?_eq_some_getLast (List.ne_nil_of_mem hmem)).trans (congrArg some hsame))

theorem submittedText_of_person (hs : s.Consistent) (hv : v ∈ request.submissions) {q : Person}
    (hq : q ∈ s.people) (hperson : v.personId? = some q.id) :
    s.submittedText request v = q.email := by
  have hkind : AttributeKind.ofName v.typeName = .person ∧
      BulkAssessment.personId? (rawText? v.value) = some q.id := by
    simpa [Submission.personId?] using hperson
  rw [submittedText_eq hv, normalize, hkind.1, normalizeAs, hkind.2, Option.bind_some,
    hs.email?_emails hq, Option.getD_some]

end Store

/-! ## From the email to the id -/

namespace Text

theorem trim_sublist (s : String) : (trim s).toList.Sublist s.toList := by
  rw [trim, String.toList_ofList]
  exact (trimRight_isPrefix _).sublist.trans (List.dropWhile_sublist isBlank)

/-- A text that differs from its trimmed form in case alone has nothing to trim. -/
theorem trim_eq_of_sameFolded {s : String} (h : sameFolded s (trim s) = true) : trim s = s := by
  have hlength : (trim s).toList.length = s.toList.length := by
    have hfold := congrArg (fun u => u.toList.length) (sameFolded_iff.1 h)
    simpa [fold] using hfold.symm
  exact String.toList_inj.1 ((trim_sublist s).eq_of_length hlength)

end Text

namespace Store

variable {s : Store} {q r : Person}

theorem leastByEmail?_eq_none {ps : List Person} (h : leastByEmail? ps = none) : ps = [] := by
  cases ps with
  | nil => rfl
  | cons p ps =>
    unfold leastByEmail? at h
    split at h
    · cases h
    · split at h <;> cases h

/-- The person who is found has an email that no other is less than. -/
theorem of_leastByEmail?_eq_some {ps : List Person} (h : leastByEmail? ps = some q) :
    q ∈ ps ∧ ∀ p ∈ ps, q.email ≤ p.email := by
  induction ps generalizing q with
  | nil => cases h
  | cons p ps ih =>
    unfold leastByEmail? at h
    split at h
    · rename_i hrest
      obtain rfl := Option.some.inj h
      obtain rfl := leastByEmail?_eq_none hrest
      simp
    · rename_i r hrest
      obtain ⟨hr, hleast⟩ := ih hrest
      split at h
      · rename_i hlt
        obtain rfl := Option.some.inj h
        refine ⟨.tail _ hr, List.forall_mem_cons.2 ⟨?_, hleast⟩⟩
        exact String.not_lt.1 fun hgt => String.lt_irrefl _ (String.lt_trans hlt hgt)
      · rename_i hge
        obtain rfl := Option.some.inj h
        refine ⟨List.mem_cons_self, List.forall_mem_cons.2 ⟨String.le_refl _, fun p hp => ?_⟩⟩
        exact String.le_trans (String.not_lt.1 hge) (hleast p hp)

/-- A person who can be told by the email. -/
structure Recalls (s : Store) (q : Person) : Prop where
  nonempty : q.email ≠ ""
  tight : Text.trim q.email = q.email
  least : ∀ r ∈ s.people, Text.sameFolded r.email q.email = true → q.email ≤ r.email

theorem of_personByEmail?_eq_some {email : String} {id : Int}
    (h : s.personByEmail? email = some id) :
    ∃ r ∈ s.people, r.id = id ∧ Text.sameFolded r.email (Text.trim email) = true ∧
      ∀ p ∈ s.people, Text.sameFolded p.email (Text.trim email) = true → r.email ≤ p.email := by
  obtain ⟨r, hr, rfl⟩ := Option.map_eq_some_iff.1 h
  obtain ⟨hmem, hleast⟩ := of_leastByEmail?_eq_some hr
  obtain ⟨hpeople, hfold⟩ := List.mem_filter.1 hmem
  exact ⟨r, hpeople, rfl, hfold, fun p hp hpfold => hleast p (List.mem_filter.2 ⟨hp, hpfold⟩)⟩

/-- The person with an email is found by it exactly if it has no blanks around it and is the least
of its kind. -/
theorem personByEmail?_eq_some_iff (hs : s.Consistent) (hq : q ∈ s.people)
    (hfilled : Text.trim q.email ≠ "") :
    s.personByEmail? (Text.trim q.email) = some q.id ↔ s.Recalls q := by
  have hagain := Text.trim_trim q.email
  constructor
  · intro h
    obtain ⟨r, hr, hid, hfold, hleast⟩ := of_personByEmail?_eq_some h
    obtain rfl := hs.eq_of_personId hr hq hid
    rw [hagain] at hfold hleast
    have htight := Text.trim_eq_of_sameFolded hfold
    rw [htight] at hleast hfilled
    exact ⟨hfilled, htight, hleast⟩
  · intro h
    have hmem : q ∈ s.people.filter fun p => Text.sameFolded p.email (Text.trim q.email) :=
      List.mem_filter.2 ⟨hq, by rw [h.tight]; exact Text.sameFolded_refl _⟩
    rw [personByEmail?, hagain]
    cases hfound : leastByEmail?
        (s.people.filter fun p => Text.sameFolded p.email (Text.trim q.email)) with
    | none => exact absurd (leastByEmail?_eq_none hfound) (List.ne_nil_of_mem hmem)
    | some r =>
      obtain ⟨hr, hleast⟩ := of_leastByEmail?_eq_some hfound
      obtain ⟨hpeople, hfold⟩ := List.mem_filter.1 hr
      rw [h.tight] at hfold
      have hemail : r.email = q.email :=
        String.le_antisymm (hleast q hmem) (h.least r hpeople hfold)
      rw [List.inj_on_of_nodup_map hs.emails hpeople hq hemail, Option.map_some]

end Store

/-! ## There and back -/

theorem CellValue.eq_ofPerson_iff {b c : CellValue} (h : b.effective = c.effective) (id : Int) :
    b = .ofPerson id ↔ c = .ofPerson id := by
  have hself {e : CellValue} (he : e.effective = (CellValue.ofPerson id).effective) :
      e = .ofPerson id := by
    obtain ⟨value, personId⟩ := e
    obtain ⟨hvalue, hperson⟩ := Prod.mk.inj he
    exact congrArg₂ CellValue.mk (Option.filter_eq_some_iff.1 hvalue).1 hperson
  constructor
  · rintro rfl
    exact hself h.symm
  · rintro rfl
    exact hself h

theorem Store.cellValue?_of_email {s : Store} (hs : s.Consistent) {q : Person} (hq : q ∈ s.people)
    {d : Definition} (hkind : AttributeKind.ofName d.typeName = .person) {c : CellValue}
    (hc : s.cellValue? d (Text.trim q.email) = some c) :
    (c = .ofPerson q.id ↔ s.Recalls q) ∧
    (Text.trim q.email = "" → c = .none) ∧
    (¬ s.Recalls q → Text.trim q.email ≠ "" → ∃ r ∈ s.people, r.id ≠ q.id ∧
      Text.sameFolded r.email (Text.trim q.email) = true ∧ c = .ofPerson r.id) := by
  rw [cellValue?, hkind] at hc
  dsimp only at hc
  by_cases hblank : Text.trim q.email = ""
  · rw [if_pos (by rw [hblank]; rfl), Option.some.injEq] at hc
    subst hc
    refine ⟨iff_of_false (fun h => ?_) fun h => ?_, fun _ => rfl, fun _ h => absurd hblank h⟩
    · cases congrArg CellValue.personId h
    · exact h.nonempty (h.tight ▸ hblank)
  · rw [if_neg (by simpa using hblank)] at hc
    obtain ⟨i, hi, rfl⟩ := Option.map_eq_some_iff.1 hc
    have hrecalls : i = q.id ↔ s.Recalls q := by
      rw [← personByEmail?_eq_some_iff hs hq hblank, hi, Option.some.injEq]
    refine ⟨?_, fun h => absurd h hblank, fun hnot _ => ?_⟩
    · rw [← hrecalls]
      simp [CellValue.ofPerson]
    · obtain ⟨r, hr, rfl, hfold, -⟩ := of_personByEmail?_eq_some hi
      rw [(Text.tight_trim q.email).trim_eq] at hfold
      exact ⟨r, hr, fun hsame => hnot (hrecalls.1 hsame), hfold, rfl⟩

theorem ofStored_heldBy (s : Store) (objectId definitionId : Int) :
    CellValue.ofStored (s.heldBy objectId definitionId) =
      CellValue.ofStored (s.value? definitionId objectId) := by
  rw [Store.heldBy]
  cases s.value? definitionId objectId <;> rfl

section Stored

variable {s t : Store} {request : BulkRequest} {today : Date} {appUrl : String} {o : Outcome}
  {id : Int} {a : Assessment} {before after : List Submission} {v : Submission}

/-- What is stored for a person who is submitted for an attribute that holds a person, if the
assessment is listed as succeeded: the person, exactly if the email tells who it is; nothing, if
the email is blank; and otherwise another person whose email differs in case, or by the blanks
around it. -/
theorem person_stored (hs : s.Consistent)
    (h : Operation.save.perform s appUrl today request = .ok (t, o))
    (ha : s.assessment? id = some a)
    (hsubmitted : request.submissionsOf id = before ++ v :: after)
    (hlast : ∀ w ∈ after, w.title ≠ v.title) {q : Person} (hq : q ∈ s.people)
    (hperson : v.personId? = some q.id) {d : Definition}
    (hd : s.definitionTitled? id v.title = some d)
    (hkind : AttributeKind.ofName d.typeName = .person) (hfree : v.title ∉ Block.fixedColumns)
    (hstate : Column.state ∉ request.titles) (htrim : Text.trim a.slug = a.slug)
    (hothers : ∀ i ∈ request.named, i ≠ id → request.hasValues i = true →
      Text.trim (s.slugOf request i) ≠ a.slug)
    (hsucceeded : a.mention appUrl ∈ o.succeeded) :
    let stored := CellValue.ofStored (t.value? d.id id)
    (stored = .ofPerson q.id ↔ s.Recalls q) ∧
    (Text.trim q.email = "" → stored.effective = (none, none)) ∧
    (¬ s.Recalls q → Text.trim q.email ≠ "" → ∃ r ∈ s.people, r.id ≠ q.id ∧
      Text.sameFolded r.email (Text.trim q.email) = true ∧ stored = .ofPerson r.id) := by
  intro stored
  have hown : v ∈ request.submissionsOf id := by
    rw [hsubmitted]
    exact List.mem_append_right _ List.mem_cons_self
  -- what succeeded is not reported, so the cell is stored
  obtain ⟨hfailed, hpartial, hdone⟩ :=
    Operation.listed_before hs.toKeyed h (Store.mem_of_assessment?_eq_some ha).1
  obtain ⟨-, hnoerror, hnopartial⟩ := hdone.1 hsucceeded
  have hstored := (stored_or_reported hs.toKeyed h ha hsubmitted hlast hfree hstate htrim
    hothers).resolve_left fun hreported =>
      hreported.elim (fun he => hnoerror (hfailed.1 he).2) fun hp => hnopartial (hpartial.1 hp).2.1
  obtain ⟨d', c, hd', hc, heffective⟩ := hstored
  obtain rfl : d' = d := Option.some.inj (hd'.symm.trans hd)
  rw [Store.submittedText_of_person hs (BulkRequest.mem_submissions hown) hq hperson] at hc
  rw [ofStored_heldBy] at heffective
  obtain ⟨hrecalls, hblank, hother⟩ := Store.cellValue?_of_email hs hq hkind hc
  refine ⟨(CellValue.eq_ofPerson_iff heffective q.id).trans hrecalls, fun h => ?_,
    fun hnot hfilled => ?_⟩
  · rw [hblank h] at heffective
    exact heffective
  · obtain ⟨r, hr, hne, hfold, hc⟩ := hother hnot hfilled
    exact ⟨r, hr, hne, hfold, (CellValue.eq_ofPerson_iff heffective r.id).2 hc⟩

end Stored

/-- Two people whose emails differ in case, and an attribute that holds a person. -/
def twoBobsStore : Store :=
  { Store.empty with
    people := [⟨1, "bob@ggrc.test"⟩, ⟨2, "Bob@ggrc.test"⟩]
    assessments := [⟨1, "A-1", "Backups", State.inProgress.name, "Control", none, none⟩]
    definitions :=
      [⟨5, Definition.localType, some 1, "Owner", "Map:Person", false, none, none, none⟩] }

/-- The first of them as a value. -/
def ownerSubmission : Submission := ⟨.int 1, "Owner", "Map:Person", some 1, 5, none⟩

/-- The request with that value alone. -/
def ownerRequest : BulkRequest := ⟨[], [⟨1, "A-1", [ownerSubmission]⟩]⟩

/-- The other one is stored. -/
theorem person_stored_namesake :
    ∃ t o, Operation.save.perform twoBobsStore "" ⟨2024, 5, 17⟩ ownerRequest = .ok (t, o) ∧
      o.succeeded.map Mention.title = ["Backups"] ∧
      ownerSubmission.personId? = some 1 ∧ CellValue.ofStored (t.value? 5 1) = .ofPerson 2 := by
  have hconsistent : twoBobsStore.Consistent := by
    constructor
    · exact ⟨by decide, by decide, by decide⟩
    all_goals decide
  have hadmit : Operation.save.admit ownerRequest = .ok () := rfl
  have h := Operation.perform_of_admitted hadmit twoBobsStore "" ⟨2024, 5, 17⟩
  have ha : twoBobsStore.assessment? 1 =
      some ⟨1, "A-1", "Backups", State.inProgress.name, "Control", none, none⟩ := rfl
  have hsubmitted : ownerRequest.submissionsOf 1 = [] ++ ownerSubmission :: [] := rfl
  have hq : (⟨1, "bob@ggrc.test"⟩ : Person) ∈ twoBobsStore.people := by decide
  have hperson : ownerSubmission.personId? = some 1 := by decide +kernel
  have hd : twoBobsStore.definitionTitled? 1 "Owner" =
      some ⟨5, Definition.localType, some 1, "Owner", "Map:Person", false, none, none, none⟩ := by
    decide
  obtain ⟨-, -, hother⟩ := person_stored hconsistent h ha hsubmitted (by simp) hq hperson hd
    (by decide) (by decide) (by decide) (by decide) (by decide) (by decide +kernel)
  have hnot : ¬ twoBobsStore.Recalls ⟨1, "bob@ggrc.test"⟩ := fun hrecalls =>
    absurd (hrecalls.least ⟨2, "Bob@ggrc.test"⟩ (by decide) (by decide +kernel)) (by decide)
  obtain ⟨r, hr, hne, -, hstored⟩ := hother hnot (by decide +kernel)
  refine ⟨_, _, h, by decide +kernel, hperson, ?_⟩
  obtain rfl | rfl : r = ⟨1, "bob@ggrc.test"⟩ ∨ r = ⟨2, "Bob@ggrc.test"⟩ := by
    simpa [twoBobsStore] using hr
  · exact absurd rfl hne
  · exact hstored

end BulkAssessment
