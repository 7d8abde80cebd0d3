import BulkAssessment.Proofs.Comments
import BulkAssessment.Proofs.People

/-!
# What a request is assembled to

The stubs of a request hold all that it submits, and nothing else: links, files and comments in
the order in which they are submitted, under each title the value that is submitted last, and the
last slug that is not empty (`Assembly.gathers_ofRequest`).

The people come in by the emails of those that the request names, and these are all that the
values need: with the emails of the whole table the same stubs come about
(`Store.assemble_with_all_people`). Which people a request names is found out by another walk over
its submissions than the one that normalizes them, so the two have to agree on what a reference to
a person is (`Submission.Names`).
-/

namespace BulkAssessment

/-! ## What is gathered -/

/-- A stub holds what a request submits for an assessment. -/
structure Stub.Gathers (stub : Stub) (people : PeopleIndex) (request : BulkRequest) (id : Int) :
    Prop where
  urls : stub.urls =
    ((request.submissionsOf id).filterMap Submission.extra).flatMap Attachment.urls
  files : stub.files =
    ((request.submissionsOf id).filterMap Submission.extra).flatMap Attachment.files
  /-- A comment is about the definition of its submission, and one without a text is none. -/
  comments : stub.comments = (request.submissionsOf id).flatMap fun v =>
    match v.extra with
    | some ⟨some (some description), _, _⟩ => [⟨description, v.definitionId⟩]
    | _ => []
  /-- The value of a title is that of the last submission with the title. -/
  value : ∀ title, stub.value? title =
    ((request.submissionsOf id).filter fun v => v.title = title).getLast?.map fun v =>
      normalize people (rawText? v.value) v.typeName
  /-- Each title has one value. -/
  increasing : (stub.values.map Prod.fst).Pairwise (· < ·)
  /-- The titles with values are the submitted ones. -/
  mem_values : ∀ title, title ∈ stub.values.map Prod.fst ↔
    ∃ v ∈ request.submissionsOf id, v.title = title
  /-- The slug is the last one sent that is not empty. -/
  slug : stub.slug =
    (((request.entriesOf id).filter fun e => !e.slug.isEmpty).getLast?.map Entry.slug).getD ""
  needsVerification : stub.needsVerification = false

/-- The stubs hold what a request submits for each assessment that it names. -/
structure Assembly.Gathers (a : Assembly) (people : PeopleIndex) (request : BulkRequest) :
    Prop where
  /-- The requested assessments come first, then the others, each where it is first named. -/
  ids : a.registry.stubs.map Prod.fst =
    (request.ids ++ request.entries.map Entry.assessmentId).eraseDups
  stub : ∀ id stub, (id, stub) ∈ a.registry.stubs → stub.Gathers people request id
  /-- The titles are those of all submissions, each where it first comes up. -/
  titles : a.titles = (request.submissions.map Submission.title).eraseDups
  /-- They are the titles under which the stubs have values. -/
  mem_titles : ∀ title, title ∈ a.titles ↔
    ∃ id stub, (id, stub) ∈ a.registry.stubs ∧ title ∈ stub.values.map Prod.fst

namespace BulkRequest

variable {request : BulkRequest} {people : PeopleIndex} {id : Int}

/-- A list that the submissions append a part of what they attach to holds these parts. -/
theorem attached_collect {f : Stub → List String} {part : Attachment → List String}
    (hsubmit : ∀ stub v, f (Stub.submit people stub v) = f stub ++ (v.extra.map part).getD [])
    (hslug : ∀ stub slug, f { stub with slug := slug } = f stub) (hempty : f Stub.empty = []) :
    f (request.collect people id) =
      ((request.submissionsOf id).filterMap Submission.extra).flatMap part := by
  rw [List.filterMap_eq_flatMap_toList, List.flatMap_assoc]
  refine appended_collect (fun stub v => (hsubmit stub v).trans ?_) hslug hempty
  cases v.extra <;> simp

theorem record?_toList (v : Submission) : v.record?.toList =
    match v.extra with
    | some ⟨some (some description), _, _⟩ => [⟨description, v.definitionId⟩]
    | _ => [] := by
  unfold Submission.record? Submission.comment?
  rcases v.extra with _ | ⟨_ | _ | _, urls, files⟩ <;> rfl

theorem sentSlug_eq : request.sentSlug id =
    (((request.entriesOf id).filter fun e => !e.slug.isEmpty).getLast?.map Entry.slug).getD "" := by
  have hlast : some (request.sentSlug id) =
      (((request.entriesOf id).filter fun e => (!e.slug.isEmpty) = true).getLast?.map
        Entry.slug).or (some "") := by
    refine Keyed.read_foldl_last (fun slug e => ?_) _ _
    cases e.slug.isEmpty <;> rfl
  simpa only [Bool.decide_eq_true, Option.or_some, Option.some.injEq] using hlast

/-- The titles with values are the set of the submitted ones. -/
theorem keys_values_collect : (request.collect people id).values.map Prod.fst =
    (TextSet.ofList ((request.submissionsOf id).map Submission.title)).toList := by
  have hset (titles : List String) : (TextSet.ofList titles).toList =
      titles.foldl (fun ts title => insertText title ts) [] :=
    (List.foldl_hom TextSet.toList fun _ _ => rfl).symm
  rw [values_collect, hset, List.foldl_map]
  exact (List.foldl_hom (fun ms : List (String × String) => ms.map Prod.fst)
    fun ms v => (Json.keys_setMember v.title _ ms).symm).symm

theorem gathers_collect (people : PeopleIndex) (request : BulkRequest) (id : Int) :
    (request.collect people id).Gathers people request id where
  urls := attached_collect (fun _ _ => rfl) (fun _ _ => rfl) rfl
  files := attached_collect (fun _ _ => rfl) (fun _ _ => rfl) rfl
  comments := by
    rw [comments_collect, commentsOf, List.filterMap_eq_flatMap_toList]
    exact List.flatMap_congr fun v _ => record?_toList v
  value := value?_collect_eq
  increasing := by
    rw [keys_values_collect]
    exact (TextSet.ofList _).increasing
  mem_values title := by
    rw [keys_values_collect]
    exact TextSet.mem_ofList.trans (by simp)
  slug := slug_collect.trans sentSlug_eq
  needsVerification := needsVerification_collect

end BulkRequest

namespace Assembly

theorem mem_stubs_ofRequest {people : PeopleIndex} {request : BulkRequest} {id : Int}
    {stub : Stub} : (id, stub) ∈ (Assembly.ofRequest people request).registry.stubs ↔
      id ∈ request.named ∧ stub = request.collect people id := by
  rw [Registry.stubs_ofRequest, Keyed.mem_map_graph]

/-- Nothing that a request submits is lost, and nothing else comes in. -/
theorem gathers_ofRequest (people : PeopleIndex) (request : BulkRequest) :
    (Assembly.ofRequest people request).Gathers people request where
  ids := (Registry.ids_ofRequest people request).trans (Keyed.firsts_eq_eraseDups _)
  stub id stub h := by
    obtain ⟨-, rfl⟩ := mem_stubs_ofRequest.1 h
    exact BulkRequest.gathers_collect people request id
  titles := Keyed.firsts_eq_eraseDups _
  mem_titles title := by
    have hvalues (id : Int) := (BulkRequest.gathers_collect people request id).mem_values title
    refine BulkRequest.mem_titles.trans (exists_congr fun id => ?_)
    constructor
    · intro h
      exact ⟨_, mem_stubs_ofRequest.2 ⟨h.named, rfl⟩, (hvalues id).2 (BulkRequest.submits_iff.1 h)⟩
    · rintro ⟨stub, hstub, htitle⟩
      obtain ⟨-, rfl⟩ := mem_stubs_ofRequest.1 hstub
      exact BulkRequest.submits_iff.2 ((hvalues id).1 htitle)

/-- Two entries about one assessment with another between them. -/
def scatteredRequest : BulkRequest :=
  ⟨[3, 1, 3],
    [⟨1, "A-1", [⟨.string " x ", "Note", "Text", none, 10,
          some ⟨some (some "first"), ["u1", "u2"], ["f1"]⟩⟩,
        ⟨.int 4, "Owner", "Map:Person", none, 11, some ⟨some none, ["u3"], []⟩⟩]⟩,
      ⟨2, "", []⟩,
      ⟨1, "", [⟨.bool true, "Note", "Checkbox", none, 12, some ⟨some (some ""), [], ["f2", "f1"]⟩⟩,
        ⟨.null, "Kind", "Text", none, 13, none⟩]⟩]⟩

/-- The entries add up, and the later value takes the place of the earlier one. An empty comment
is one, and an empty slug is none. -/
theorem gathers_ofRequest_scattered :
    let people := PeopleIndex.ofList [(4, "p4@x.org")]
    (ofRequest people scatteredRequest).Gathers people scatteredRequest ∧
      ofRequest people scatteredRequest =
        ⟨⟨[(3, ⟨[], [], [], [], "", false⟩),
          (1, ⟨["f1", "f2", "f1"], ["u1", "u2", "u3"], [⟨"first", 10⟩, ⟨"", 12⟩],
            [("Kind", ""), ("Note", "yes"), ("Owner", "p4@x.org")], "A-1", false⟩),
          (2, ⟨[], [], [], [], "", false⟩)]⟩, ["Note", "Owner", "Kind"]⟩ :=
  ⟨gathers_ofRequest _ _, by decide⟩

end Assembly

/-! ## People -/

/-- A value of a type for people names a person if its text is an id. -/
def Submission.Names (v : Submission) (id : Int) : Prop :=
  Text.fold (Text.trim v.typeName) = "map:person" ∧
    ∃ text, rawText? v.value = some text ∧ Text.readId? (Text.trim text) = some id

theorem AttributeKind.ofName_eq_iff {kind : AttributeKind} (h : kind ∈ named) {typeName : String} :
    ofName typeName = kind ↔ Text.fold kind.name = Text.fold (Text.trim typeName) := by
  have hnames : (named.map fun k => Text.fold k.name).Nodup := by decide
  have hother : other ≠ kind := by
    rintro rfl
    revert h
    decide
  have hfind : (named.find? fun k => Text.sameFolded k.name (Text.trim typeName)) = some kind ↔
      kind ∈ named ∧ Text.fold kind.name = Text.fold (Text.trim typeName) :=
    find?_key_eq_some_iff hnames
  rw [ofName, Option.getD_eq_iff, hfind]
  simp [h, hother]

theorem Submission.personId?_eq_some_iff {v : Submission} {id : Int} :
    v.personId? = some id ↔ v.Names id := by
  have hkind : AttributeKind.ofName v.typeName = .person ↔
      Text.fold (Text.trim v.typeName) = "map:person" :=
    (AttributeKind.ofName_eq_iff (by decide)).trans eq_comm
  unfold Submission.personId? Names
  rw [← hkind, ← Option.bind_eq_some_iff]
  split
  · rename_i hperson
    exact (and_iff_right hperson).symm
  · rename_i hperson
    simp [hperson]

/-- What a request is assembled to depends on the people by the texts of its submissions alone. -/
theorem Assembly.ofRequest_congr {people others : PeopleIndex} {request : BulkRequest}
    (h : ∀ v ∈ request.submissions, normalize people (rawText? v.value) v.typeName =
      normalize others (rawText? v.value) v.typeName) :
    Assembly.ofRequest people request = Assembly.ofRequest others request := by
  have henter (stub : Stub) : ∀ e ∈ request.entries, stub.enter people e = stub.enter others e := by
    intro e he
    refine List.foldl_ext _ _ _ fun st v hv => ?_
    rw [Stub.submit, Stub.submit, h v (List.mem_flatMap.2 ⟨e, he, hv⟩)]
  have hregistry (r : Registry) :
      enterAll people r request.entries = enterAll others r request.entries := by
    refine List.foldl_ext _ _ _ fun r e he => ?_
    exact congrArg (r.update e.assessmentId) (funext fun stub => henter stub e he)
  rw [Assembly.ofRequest, Assembly.ofRequest, hregistry]

/-- The people whose ids a request names are all whose emails its stubs need, and each of them is
asked for once. -/
theorem Store.assemble_with_all_people (s : Store) (request : BulkRequest) :
    s.assemble request = Assembly.ofRequest s.emails request ∧
      request.personIds.Nodup ∧
      ∀ id, id ∈ request.personIds ↔ ∃ v ∈ request.submissions, v.Names id := by
  refine ⟨Assembly.ofRequest_congr fun v hv => submittedText_eq hv, Keyed.nodup_firsts _,
    fun id => ?_⟩
  simp only [BulkRequest.personIds, Keyed.mem_firsts, List.mem_filterMap,
    Submission.personId?_eq_some_iff]

/-- A truth value names a person as well; a list and a number that 64 bits do not hold name
nobody. -/
example :
    let submit (value : Json) : Submission := ⟨value, "Owner", " MAP:person", none, 5, none⟩
    BulkRequest.personIds ⟨[], [⟨1, "A-1", [.int 3, .string " +4 ", .bool true, .array [.int 6],
      .int 9223372036854775808, .string "3"].map submit⟩]⟩ = [3, 4, 1] := by decide

end BulkAssessment
