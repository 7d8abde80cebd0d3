import BulkAssessment.Proofs.KeyedLists
import BulkAssessment.Proofs.Keys

/-!
# The stubs of a request

The registry of a request in closed form: one stub for each id that the request names, in the
order in which the ids are first named. The stub of an id is what the entries about it add up to
(`Registry.toList_ofRequest`), with the slug and the flag that the store has for its assessment
(`Store.toList_assembleFlagged`). An id without an assessment keeps the last slug that was sent
for it, and is not to be verified (`Store.slugOf`, `Store.needsVerification_stubOf`).

A title has a value in the stub only if an entry about the assessment submits it.
-/

namespace BulkAssessment

/-! ## Values of a stub -/

namespace Json

theorem member?_setMember {α : Type} (key other : String) (x : α) (ms : List (String × α)) :
    member? other (setMember key x ms) = if other = key then some x else member? other ms := by
  induction ms with
  | nil =>
    simp only [setMember, member?, eq_comm]
  | cons m rest ih =>
    obtain ⟨k, y⟩ := m
    unfold setMember
    by_cases hlt : key < k
    · rw [if_pos hlt, member?]
      simp only [eq_comm]
    · rw [if_neg hlt]
      by_cases hk : key = k
      · subst hk
        rw [if_pos rfl, member?, member?]
        by_cases ho : other = key
        · rw [if_pos ho.symm, if_pos ho]
        · rw [if_neg (Ne.symm ho), if_neg ho, if_neg (Ne.symm ho)]
      · rw [if_neg hk, member?, member?, ih]
        by_cases ho : other = key
        · have hne : k ≠ other := by
            rw [ho]
            exact fun e => hk e.symm
          rw [if_neg hne, if_pos ho, if_pos ho]
        · rw [if_neg ho, if_neg ho]

theorem keys_setMember {α : Type} (key : String) (x : α) (ms : List (String × α)) :
    (setMember key x ms).map Prod.fst = insertText key (ms.map Prod.fst) := by
  induction ms with
  | nil => rfl
  | cons m rest ih =>
    obtain ⟨k, y⟩ := m
    rw [setMember, List.map_cons, insertText]
    by_cases hlt : key < k
    · rw [if_pos hlt, if_pos hlt]
      rfl
    · rw [if_neg hlt, if_neg hlt]
      by_cases hk : key = k
      · rw [if_pos hk, if_pos hk, hk]
        rfl
      · rw [if_neg hk, if_neg hk, List.map_cons, ih]

theorem setMember_ne_nil {α : Type} (key : String) (x : α) (ms : List (String × α)) :
    setMember key x ms ≠ [] := by
  cases ms with
  | nil => simp [setMember]
  | cons m rest =>
    unfold setMember
    split
    · simp
    · split <;> simp

end Json

namespace Stub

variable {people : PeopleIndex} {stub : Stub} {title : String}

/-- The stub of an assessment as the store knows it. -/
def flagged (s : Store) (stub : Stub) (a : Assessment) : Stub :=
  { stub with needsVerification := s.hasVerifier a.id, slug := a.slug }

/-- The values of a stub with that of a submission. -/
def submitValue (people : PeopleIndex) (values : List (String × String)) (v : Submission) :
    List (String × String) :=
  Json.setMember v.title (normalize people (rawText? v.value) v.typeName) values

/-- An entry changes what the slug is no part of by its submissions alone. -/
theorem field_enter {γ : Type} {f : Stub → γ} {g : γ → Submission → γ}
    (hsubmit : ∀ st v, f (submit people st v) = g (f st) v)
    (hslug : ∀ st slug, f { st with slug := slug } = f st) (e : Entry) :
    f (stub.enter people e) = e.submissions.foldl g (f stub) := by
  have hfold (st : Stub) :
      f (e.submissions.foldl (submit people) st) = e.submissions.foldl g (f st) :=
    (List.foldl_hom f fun st v => (hsubmit st v).symm).symm
  rw [enter, hfold]
  split
  · rfl
  · rw [hslug]

theorem slug_enter (e : Entry) :
    (stub.enter people e).slug = if e.slug.isEmpty then stub.slug else e.slug := by
  refine (foldl_keeps (f := Stub.slug) (g := submit people) (fun _ _ _ => rfl) _).trans ?_
  split <;> rfl

end Stub

/-! ## What a request says about an id -/

namespace BulkRequest

variable (request : BulkRequest)

/-- The ids that a request names, in the order in which it first does. -/
def named : List Int :=
  Keyed.firsts (request.ids ++ request.entries.map Entry.assessmentId)

/-- The entries about an assessment. -/
def entriesOf (id : Int) : List Entry :=
  request.entries.filter fun e => e.assessmentId == id

/-- The submissions for an assessment, in their order. -/
def submissionsOf (id : Int) : List Submission :=
  (request.entriesOf id).flatMap Entry.submissions

/-- The slug that is sent for an assessment: the last one that is not empty. -/
def sentSlug (id : Int) : String :=
  (request.entriesOf id).foldl (fun slug e => if e.slug.isEmpty then slug else e.slug) ""

/-- The stub of an assessment before the store is asked. -/
def collect (people : PeopleIndex) (id : Int) : Stub :=
  (request.entriesOf id).foldl (Stub.enter people) Stub.empty

/-- A value is submitted for an assessment under a title. -/
def Submits (id : Int) (title : String) : Prop :=
  ∃ e ∈ request.entries, e.assessmentId = id ∧ ∃ v ∈ e.submissions, v.title = title

/-- The titles under which values are submitted, in the order in which they first are. -/
def titles : List String :=
  Keyed.firsts (request.submissions.map Submission.title)

/-- Some value is submitted for an assessment. -/
def hasValues (id : Int) : Bool :=
  (request.entriesOf id).any fun e => !e.submissions.isEmpty

variable {request} {people : PeopleIndex} {id : Int}

theorem mem_named : id ∈ request.named ↔
    id ∈ request.ids ∨ ∃ e ∈ request.entries, e.assessmentId = id := by
  rw [named, Keyed.mem_firsts, List.mem_append, List.mem_map]

theorem nodup_named : request.named.Nodup := Keyed.nodup_firsts _

theorem mem_titles {title : String} :
    title ∈ request.titles ↔ ∃ id, request.Submits id title := by
  unfold titles Submits submissions
  rw [Keyed.mem_firsts, List.mem_map]
  constructor
  · rintro ⟨v, hv, rfl⟩
    obtain ⟨e, he, hve⟩ := List.mem_flatMap.1 hv
    exact ⟨e.assessmentId, e, he, rfl, v, hve, rfl⟩
  · rintro ⟨id, e, he, -, v, hve, rfl⟩
    exact ⟨v, List.mem_flatMap.2 ⟨e, he, hve⟩, rfl⟩

theorem nodup_titles : request.titles.Nodup := Keyed.nodup_firsts _

theorem mem_entriesOf {e : Entry} :
    e ∈ request.entriesOf id ↔ e ∈ request.entries ∧ e.assessmentId = id := by
  rw [entriesOf, List.mem_filter, beq_iff_eq]

theorem slug_collect : (request.collect people id).slug = request.sentSlug id :=
  (List.foldl_hom Stub.slug fun _ e => (Stub.slug_enter e).symm).symm

/-- What the slug is no part of is made by the submissions alone. -/
theorem field_collect {γ : Type} {f : Stub → γ} {g : γ → Submission → γ}
    (hsubmit : ∀ stub v, f (Stub.submit people stub v) = g (f stub) v)
    (hslug : ∀ stub slug, f { stub with slug := slug } = f stub) :
    f (request.collect people id) =
      (request.submissionsOf id).foldl g (f Stub.empty) := by
  unfold collect submissionsOf
  rw [List.foldl_flatMap]
  exact (List.foldl_hom f fun stub e => (Stub.field_enter hsubmit hslug e).symm).symm

theorem needsVerification_collect : (request.collect people id).needsVerification = false :=
  (field_collect (g := fun flag _ => flag) (fun _ _ => rfl) fun _ _ => rfl).trans
    (List.foldl_fixed _)

theorem values_collect :
    (request.collect people id).values =
      (request.submissionsOf id).foldl (Stub.submitValue people) [] :=
  field_collect (fun _ _ => rfl) fun _ _ => rfl

/-- A list that the submissions append to holds what they append, in their order. -/
theorem appended_collect {β : Type} {f : Stub → List β} {part : Submission → List β}
    (hsubmit : ∀ stub v, f (Stub.submit people stub v) = f stub ++ part v)
    (hslug : ∀ stub slug, f { stub with slug := slug } = f stub)
    (hempty : f Stub.empty = []) :
    f (request.collect people id) = (request.submissionsOf id).flatMap part := by
  rw [field_collect (g := fun xs v => xs ++ part v) hsubmit hslug, hempty,
    List.flatMap_eq_foldl]

theorem submits_iff {title : String} :
    request.Submits id title ↔ ∃ v ∈ request.submissionsOf id, v.title = title := by
  simp only [Submits, submissionsOf, List.mem_flatMap, mem_entriesOf]
  constructor
  · rintro ⟨e, he, hid, v, hv, htitle⟩
    exact ⟨v, ⟨e, ⟨he, hid⟩, hv⟩, htitle⟩
  · rintro ⟨v, ⟨e, ⟨he, hid⟩, hv⟩, htitle⟩
    exact ⟨e, he, hid, v, hv, htitle⟩

theorem Submits.named {title : String} (h : request.Submits id title) : id ∈ request.named := by
  obtain ⟨e, he, hid, -⟩ := h
  exact mem_named.2 (Or.inr ⟨e, he, hid⟩)

theorem mem_submissions {v : Submission} (h : v ∈ request.submissionsOf id) :
    v ∈ request.submissions := by
  obtain ⟨e, he, hv⟩ := List.mem_flatMap.1 h
  exact List.mem_flatMap.2 ⟨e, (mem_entriesOf.1 he).1, hv⟩

/-- Under each title the last submission for an assessment counts. -/
theorem value?_collect_eq (title : String) :
    (request.collect people id).value? title =
      ((request.submissionsOf id).filter fun v => v.title = title).getLast?.map fun v =>
        normalize people (rawText? v.value) v.typeName := by
  rw [Stub.value?, values_collect]
  refine (Keyed.read_foldl_last (fun ms v => ?_) _ []).trans Option.or_none
  rw [Stub.submitValue, Json.member?_setMember]
  simp only [eq_comm]

theorem value?_collect_of_not_submits {title : String} (h : ¬ request.Submits id title) :
    (request.collect people id).value? title = none := by
  have hnone : ((request.submissionsOf id).filter fun v => v.title = title) = [] := by
    refine List.filter_eq_nil_iff.2 fun v hv htitle => ?_
    exact h (submits_iff.2 ⟨v, hv, of_decide_eq_true htitle⟩)
  rw [value?_collect_eq, hnone]
  rfl

theorem value?_collect {before after : List Submission} {v : Submission}
    (hsubmitted : request.submissionsOf id = before ++ v :: after)
    (hlast : ∀ w ∈ after, w.title ≠ v.title) :
    (request.collect people id).value? v.title =
      some (normalize people (rawText? v.value) v.typeName) := by
  have hafter : (after.filter fun w => w.title = v.title) = [] :=
    List.filter_eq_nil_iff.2 fun w hw htitle => hlast w hw (of_decide_eq_true htitle)
  rw [value?_collect_eq, hsubmitted, List.filter_append, List.filter_cons_of_pos (by simp), hafter,
    List.getLast?_append]
  rfl

theorem hasValues_eq : request.hasValues id = !(request.submissionsOf id).isEmpty := by
  unfold hasValues submissionsOf
  induction request.entriesOf id with
  | nil => rfl
  | cons e es ih =>
    rw [List.any_cons, ih, List.flatMap_cons]
    cases e.submissions <;> simp

theorem values_collect_isEmpty :
    (request.collect people id).values.isEmpty = !request.hasValues id := by
  rw [values_collect, hasValues_eq, Bool.not_not]
  rcases List.eq_nil_or_concat (request.submissionsOf id) with hnone | ⟨vs, v, hvs⟩
  · rw [hnone]
    rfl
  · have hvalues : Stub.submitValue people (vs.foldl (Stub.submitValue people) []) v ≠ [] :=
      Json.setMember_ne_nil _ _ _
    have hlist : vs ++ [v] ≠ [] := List.append_ne_nil_of_right_ne_nil vs (List.cons_ne_nil v [])
    rw [hvs, List.concat_eq_append, List.foldl_append, List.foldl_cons, List.foldl_nil,
      List.isEmpty_eq_false_iff.2 hvalues, List.isEmpty_eq_false_iff.2 hlist]

/-- Without a submission nothing is collected but the slug. -/
theorem collect_of_not_hasValues (h : request.hasValues id = false) :
    request.collect people id = { Stub.empty with slug := request.sentSlug id } := by
  have hnone : request.submissionsOf id = [] := by
    simpa [hasValues_eq] using h
  have hkept : { request.collect people id with slug := "" } = Stub.empty := by
    refine (field_collect (f := fun stub => { stub with slug := "" })
      (g := Stub.submit people) (fun _ _ => rfl) fun _ _ => rfl).trans ?_
    rw [hnone]
    rfl
  have hslug : (request.collect people id).slug = request.sentSlug id := slug_collect
  rw [← hslug, ← hkept]

end BulkRequest

/-! ## The registry in closed form -/

namespace Registry

theorem ids_modify (r : Registry) (id : Int) (f : Stub → Stub) : (r.modify id f).ids = r.ids :=
  Keyed.keys_modify id f r.stubs

/-- Stubs that are updated one after the other are registered in that order. -/
theorem ids_foldl_update {β : Type} (k : β → Int) (f : β → Stub → Stub) (xs : List β)
    (r : Registry) :
    (xs.foldl (fun r x => r.update (k x) (f x)) r).ids = (xs.map k).foldl Keyed.addKey r.ids := by
  have hstubs : (xs.foldl (fun r x => r.update (k x) (f x)) r).stubs =
      xs.foldl (fun es x => Keyed.alter (k x) (fun v => f x (v.getD Stub.empty)) es) r.stubs :=
    (List.foldl_hom Registry.stubs fun _ _ => rfl).symm
  exact (congrArg Keyed.keys hstubs).trans (Keyed.keys_foldl (fun _ _ => rfl) xs r.stubs)

theorem ids_enterAll (people : PeopleIndex) (r : Registry) (entries : List Entry) :
    (Assembly.enterAll people r entries).ids =
      (entries.map Entry.assessmentId).foldl Keyed.addKey r.ids :=
  ids_foldl_update Entry.assessmentId (fun e stub => stub.enter people e) entries r

theorem ids_ofIds (ids : List Int) : (ofIds ids).ids = Keyed.firsts ids := by
  refine (ids_foldl_update (fun id => id) (fun _ stub => stub) ids empty).trans ?_
  rw [List.map_id']
  rfl

theorem ids_ofRequest (people : PeopleIndex) (request : BulkRequest) :
    (Assembly.ofRequest people request).registry.ids = request.named := by
  rw [Assembly.ofRequest, ids_enterAll, ids_ofIds, BulkRequest.named, Keyed.firsts, Keyed.firsts,
    List.foldl_append]

theorem get?_update (r : Registry) (key id : Int) (f : Stub → Stub) :
    ((r.update key f).get? id).getD Stub.empty =
      if id = key then f ((r.get? id).getD Stub.empty) else (r.get? id).getD Stub.empty := by
  unfold update get?
  split
  · rename_i h
    rw [h, Keyed.get?_alter_self, Option.getD_some]
  · rename_i h
    rw [Keyed.get?_alter_of_ne h]

theorem get?_ofIds (ids : List Int) (id : Int) :
    ((ofIds ids).get? id).getD Stub.empty = Stub.empty := by
  refine foldl_keeps (f := fun r : Registry => (r.get? id).getD Stub.empty)
    (fun r k _ => ?_) empty
  rw [register, get?_update]
  split <;> rfl

/-- The stub of an id is what the entries about it add up to. -/
theorem get?_ofRequest (people : PeopleIndex) (request : BulkRequest) (id : Int) :
    ((Assembly.ofRequest people request).registry.get? id).getD Stub.empty =
      request.collect people id := by
  have go : ∀ (entries : List Entry) (r : Registry),
      ((Assembly.enterAll people r entries).get? id).getD Stub.empty =
        (entries.filter fun e => e.assessmentId == id).foldl (Stub.enter people)
          ((r.get? id).getD Stub.empty) := by
    unfold Assembly.enterAll
    intro entries
    induction entries with
    | nil => exact fun _ => rfl
    | cons e es ih =>
      intro r
      rw [List.foldl_cons, ih, get?_update]
      by_cases h : e.assessmentId = id
      · rw [if_pos h.symm, List.filter_cons_of_pos (by simpa using h), List.foldl_cons]
      · rw [if_neg (Ne.symm h), List.filter_cons_of_neg (by simpa using h)]
  exact (go request.entries _).trans (by rw [get?_ofIds]; rfl)

theorem get?_ofRequest_of_named {people : PeopleIndex} {request : BulkRequest} {id : Int}
    (hid : id ∈ request.named) :
    (Assembly.ofRequest people request).registry.get? id = some (request.collect people id) := by
  have hsome : ((Assembly.ofRequest people request).registry.get? id).isSome = true := by
    rw [← ids_ofRequest people] at hid
    exact Keyed.get?_isSome_iff.2 hid
  obtain ⟨stub, hstub⟩ := Option.isSome_iff_exists.1 hsome
  rw [← get?_ofRequest, hstub, Option.getD_some]

/-- A registry is determined by its ids and the stub of each. -/
theorem stubs_eq_map {r : Registry} {ids : List Int} {f : Int → Stub} (hids : r.ids = ids)
    (hnodup : ids.Nodup) (h : ∀ id ∈ ids, r.get? id = some (f id)) :
    r.stubs = ids.map fun id => (id, f id) := by
  subst hids
  rw [Keyed.eq_map_get? hnodup Stub.empty]
  refine List.map_congr_left fun id hid => ?_
  have hget := h id hid
  unfold get? at hget
  rw [hget, Option.getD_some]

theorem toList_eq_map {r : Registry} {ids : List Int} {f : Int → Stub} (hids : r.ids = ids)
    (hnodup : ids.Nodup) (h : ∀ id ∈ ids, r.get? id = some (f id)) : r.toList = ids.map f := by
  rw [toList, stubs_eq_map hids hnodup h, List.map_map]
  rfl

/-- The stubs of a request: one for each id that it names. -/
theorem stubs_ofRequest (people : PeopleIndex) (request : BulkRequest) :
    (Assembly.ofRequest people request).registry.stubs =
      request.named.map fun id => (id, request.collect people id) :=
  stubs_eq_map (ids_ofRequest people request) BulkRequest.nodup_named
    fun _ => get?_ofRequest_of_named

theorem toList_ofRequest (people : PeopleIndex) (request : BulkRequest) :
    (Assembly.ofRequest people request).registry.toList =
      request.named.map (request.collect people) :=
  toList_eq_map (ids_ofRequest people request) BulkRequest.nodup_named
    fun _ => get?_ofRequest_of_named

end Registry

namespace Store

variable {s : Store} {request : BulkRequest} {id : Int}

/-- What a request says about an assessment, as the store knows the assessment. -/
def stubOf (s : Store) (request : BulkRequest) (id : Int) : Stub :=
  let stub := request.collect (PeopleIndex.ofList (s.emailsByIds request.personIds)) id
  match s.assessment? id with
  | some a => stub.flagged s a
  | none => stub

/-- The slug by which the rows of an id look for an assessment: that of the store, or the one
that was sent if the store has no assessment with the id. -/
def slugOf (s : Store) (request : BulkRequest) (id : Int) : String :=
  match s.assessment? id with
  | some a => a.slug
  | none => request.sentSlug id

theorem slug_stubOf : (s.stubOf request id).slug = s.slugOf request id := by
  unfold stubOf slugOf
  cases s.assessment? id with
  | none => exact BulkRequest.slug_collect
  | some a => rfl

theorem needsVerification_stubOf :
    (s.stubOf request id).needsVerification = ((s.assessment? id).isSome && s.hasVerifier id) := by
  unfold stubOf
  cases ha : s.assessment? id with
  | none => exact BulkRequest.needsVerification_collect
  | some a =>
    have hid := (mem_of_assessment?_eq_some ha).2
    simp [Stub.flagged, hid]

theorem value?_stubOf_of_not_submits {title : String} (h : ¬ request.Submits id title) :
    (s.stubOf request id).value? title = none := by
  unfold stubOf
  cases s.assessment? id <;> exact BulkRequest.value?_collect_of_not_submits h

theorem values_stubOf_isEmpty :
    (s.stubOf request id).values.isEmpty = !request.hasValues id := by
  unfold stubOf
  cases s.assessment? id <;> exact BulkRequest.values_collect_isEmpty

/-- What one assessment after the other loads into the stubs, if their ids differ. -/
theorem get?_foldl_flagged {as : List Assessment} (hnodup : (as.map Assessment.id).Nodup)
    (r : Registry) (id : Int) :
    (as.foldl (fun r a => r.modify a.id fun stub => stub.flagged s a) r).get? id =
      (r.get? id).map fun stub =>
        match as.find? fun a => a.id == id with
        | some a => stub.flagged s a
        | none => stub := by
  induction as generalizing r with
  | nil => simp
  | cons a as ih =>
    obtain ⟨hfresh, hnodup⟩ := List.nodup_cons.1 hnodup
    rw [List.foldl_cons, ih hnodup, Registry.get?, Registry.modify, Keyed.get?_modify,
      ← Registry.get?]
    by_cases hid : a.id = id
    · -- no later assessment has the id, so the flags of this one stay
      have hnone : (as.find? fun b => b.id == id) = none := by
        rw [List.find?_eq_none]
        intro b hb hbid
        have hsame : b.id = a.id := by rw [hid]; simpa using hbid
        exact hfresh (hsame ▸ List.mem_map_of_mem hb)
      rw [if_pos hid.symm, hnone, List.find?_cons_of_pos (by simpa using hid), Option.map_map]
      rfl
    · rw [if_neg (Ne.symm hid), List.find?_cons_of_neg (by simpa using hid)]

/-- Flags are loaded into the stubs of the assessments that exist. -/
theorem get?_loadFlags (hk : s.Keyed) (r : Registry) (id : Int) :
    (s.loadFlags r).get? id = (r.get? id).map fun stub =>
      match s.assessment? id with
      | some a => stub.flagged s a
      | none => stub := by
  have hnodup : ((s.assessmentsByIds r.ids).map Assessment.id).Nodup :=
    hk.assessmentIds.sublist (List.filter_sublist.map _)
  refine (get?_foldl_flagged hnodup r id).trans ?_
  cases hget : r.get? id with
  | none => rfl
  | some stub =>
    have hmem : id ∈ r.ids := Keyed.get?_isSome_iff.1 (by rw [← Registry.get?, hget]; rfl)
    have hfind : ((s.assessmentsByIds r.ids).find? fun a => a.id == id) = s.assessment? id := by
      rw [assessmentsByIds, List.find?_filter, assessment?]
      congr 1
      funext a
      by_cases hid : a.id = id <;> simp [hid, hmem]
    rw [hfind]

theorem ids_loadFlags (r : Registry) : (s.loadFlags r).ids = r.ids :=
  foldl_keeps (f := Registry.ids)
    (g := fun (r : Registry) (a : Assessment) => r.modify a.id fun stub => stub.flagged s a)
    (fun r a _ => Registry.ids_modify r a.id _) r

theorem ids_assembleFlagged (s : Store) (request : BulkRequest) :
    (s.assembleFlagged request).registry.ids = request.named :=
  (ids_loadFlags _).trans (Registry.ids_ofRequest _ _)

theorem get?_assembleFlagged (hk : s.Keyed) (hid : id ∈ request.named) :
    (s.assembleFlagged request).registry.get? id = some (s.stubOf request id) := by
  have hget := get?_loadFlags hk (s.assemble request).registry id
  have hcollected : (s.assemble request).registry.get? id = some (request.collect
      (PeopleIndex.ofList (s.emailsByIds request.personIds)) id) :=
    Registry.get?_ofRequest_of_named hid
  rw [hcollected] at hget
  exact hget

/-- The registry of a request: a stub for each id that it names. -/
theorem toList_assembleFlagged (hk : s.Keyed) (request : BulkRequest) :
    (s.assembleFlagged request).registry.toList = request.named.map (s.stubOf request) :=
  Registry.toList_eq_map (ids_assembleFlagged s request) BulkRequest.nodup_named
    fun _ => get?_assembleFlagged hk

end Store

end BulkAssessment
