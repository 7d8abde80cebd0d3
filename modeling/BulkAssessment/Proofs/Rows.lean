import BulkAssessment.Proofs.Runs
import BulkAssessment.Proofs.Stubs

/-!
# The rows of an operation

An operation imports the blocks that it builds from a request. Read back by the import, these
blocks are a list of rows, each made for one of the ids that the request names
(`Operation.rows`): rows that store values, then rows that complete, or rows that verify. Rows
of comments come in between and concern no dossier.

The row of an id has for its code the slug of the id without the blanks around it
(`Operation.code?_of_mem_rows`). What an operation makes of an assessment is what the rows with
its code make of its dossier (`Operation.dossier?_run`).
-/

namespace BulkAssessment

/-! ## Headers -/

/-- What a block does, told from its header. -/
def Block.layoutOf? (header : Row) : Option BlockLayout :=
  (⟨header, []⟩ : Block).layout?

/-- What the attributes block with some titles does: it sets attributes, or changes states if
one of the titles is that of the state column. -/
def attributesLayout (titles : List String) : BlockLayout :=
  match titles.findIdx? fun title => title == Column.state with
  | some i => .state ⟨1, i + 4,
      (titles.findIdx? fun title => title == Column.verifiedDate).map fun i => i + 4⟩
  | none => .attributes ⟨1, some 2, some 3, Block.attributeColumns 4 titles⟩

/-- What the completion block does. -/
def completionLayout : BlockLayout := .state ⟨1, 2, none⟩

/-- What the verification block does. -/
def verificationLayout : BlockLayout := .state ⟨1, 2, some 3⟩

theorem findIdx?_eq_none {name : String} {titles : List String} (h : name ∉ titles) :
    (titles.findIdx? fun title => title == name) = none := by
  rw [List.findIdx?_eq_none_iff]
  intro title htitle
  have hne : title ≠ name := by
    rintro rfl
    exact h htitle
  simpa using hne

/-- A name that is none of the fixed columns is looked for among the titles. -/
theorem column?_fixedColumns_append (name : String) (h : name ∉ Block.fixedColumns)
    (titles : List String) (rows : List Row) :
    Block.column? ⟨Block.fixedColumns ++ titles, rows⟩ name =
      (titles.findIdx? fun title => title == name).map fun i => i + 4 := by
  rw [Block.column?, List.findIdx?_append, findIdx?_eq_none h]
  rfl

theorem layoutOf?_attributes (titles : List String) :
    Block.layoutOf? (Block.fixedColumns ++ titles) = some (attributesLayout titles) := by
  have hcode : Block.column? ⟨Block.fixedColumns ++ titles, []⟩ Column.code = some 1 := rfl
  have hurl : Block.column? ⟨Block.fixedColumns ++ titles, []⟩ Column.evidenceUrl = some 2 := rfl
  have hfile : Block.column? ⟨Block.fixedColumns ++ titles, []⟩ Column.evidenceFile = some 3 := rfl
  have hstate := column?_fixedColumns_append Column.state (by decide) titles []
  have hdate := column?_fixedColumns_append Column.verifiedDate (by decide) titles []
  have hcolumns : Block.attributeColumns 0 (Block.fixedColumns ++ titles) =
      Block.attributeColumns 4 titles := rfl
  have htype : Block.objectType ⟨Block.fixedColumns ++ titles, []⟩ = Column.assessment := rfl
  unfold Block.layoutOf? Block.layout?
  rw [if_pos htype]
  unfold Block.assessmentLayout? attributesLayout
  rw [hcode, hstate, hdate, hurl, hfile, hcolumns]
  cases titles.findIdx? fun title => title == Column.state <;> rfl

theorem titles_attributeColumns (start : Nat) (titles : List String) :
    (Block.attributeColumns start titles).map Prod.snd =
      titles.filter fun title => decide (title ∉ Block.fixedColumns) := by
  induction titles generalizing start with
  | nil => rfl
  | cons title titles ih =>
    unfold Block.attributeColumns
    by_cases h : title ∈ Block.fixedColumns
    · rw [if_pos h, ih, List.filter_cons_of_neg (by simpa using h)]
    · rw [if_neg h, List.map_cons, ih, List.filter_cons_of_pos (by simpa using h)]

theorem getElem?_of_mem_attributeColumns {start : Nat} {titles : List String}
    {column : Nat × String} (h : column ∈ Block.attributeColumns start titles) :
    ∃ i, column.1 = i + start ∧ titles[i]? = some column.2 := by
  induction titles generalizing start with
  | nil => cases h
  | cons title titles ih =>
    have hlater (hmem : column ∈ Block.attributeColumns (start + 1) titles) :
        ∃ i, column.1 = i + start ∧ (title :: titles)[i]? = some column.2 := by
      obtain ⟨i, hi, hget⟩ := ih hmem
      exact ⟨i + 1, by omega, hget⟩
    unfold Block.attributeColumns at h
    split at h
    · exact hlater h
    · rcases List.mem_cons.1 h with rfl | hmem
      · exact ⟨0, by simp, rfl⟩
      · exact hlater hmem

theorem layoutOf?_completion :
    Block.layoutOf? [Column.assessment, Column.code, Column.state] = some completionLayout := by
  decide

theorem layoutOf?_verification :
    Block.layoutOf? [Column.assessment, Column.code, Column.state, Column.verifiedDate] =
      some verificationLayout := by
  decide

theorem layoutOf?_comments :
    Block.layoutOf? [Column.comment, Column.description, Column.definition] =
      some (.comment ⟨1, 2⟩) := by
  decide

/-- The rows of a block that is made only if it has rows. -/
theorem tasks_ofRows? {header : Row} {layout : BlockLayout}
    (h : Block.layoutOf? header = some layout) (rows : List Row) :
    Block.tasks (Block.ofRows? header rows).toList =
      rows.map fun row => (⟨layout, row⟩ : Task) := by
  unfold Block.ofRows?
  cases rows with
  | nil => rfl
  | cons row rows =>
    have hlayout : (⟨header, row :: rows⟩ : Block).layout? = some layout := h
    rw [if_neg (by simp), Option.toList_some]
    unfold Block.tasks
    rw [List.flatMap_singleton, hlayout]

/-! ## Rows by the id that they are made for -/

namespace Store

variable (s : Store) (request : BulkRequest)

/-- The row that stores what is submitted for an assessment. -/
def savingTask (id : Int) : Task :=
  ⟨attributesLayout request.titles,
    (s.assembleFlagged request).attributesRow (s.stubOf request id)⟩

/-- The row that completes an assessment or sends it to review. -/
def completionTask (id : Int) : Task :=
  ⟨completionLayout, ["", s.slugOf request id, (s.stubOf request id).finishedState.name]⟩

/-- The row that verifies an assessment. -/
def verificationTask (today : Date) (id : Int) : Task :=
  ⟨verificationLayout, ["", s.slugOf request id, State.completed.name, today.cellText]⟩

/-- The rows that store values. -/
def savingRows : List (Int × Task) :=
  (request.named.filter request.hasValues).map fun id => (id, s.savingTask request id)

/-- The rows that complete, leaving out ids without a slug or with an excluded one. -/
def completionRows (excluded : TextSet) : List (Int × Task) :=
  ((Keyed.firsts request.ids).filter fun id =>
    !(s.slugOf request id).isEmpty && !decide (s.slugOf request id ∈ excluded)).map fun id =>
      (id, s.completionTask request id)

/-- The rows that verify. -/
def verificationRows (today : Date) : List (Int × Task) :=
  ((Keyed.firsts request.ids).filter fun id =>
    (s.stubOf request id).needsVerification).map fun id =>
      (id, s.verificationTask request today id)

end Store

/-- The rows of an operation about assessments, with the ids that they are made for. -/
def Operation.rows (op : Operation) (s : Store) (today : Date) (request : BulkRequest) :
    List (Int × Task) :=
  match op with
  | complete =>
    s.savingRows request ++ s.completionRows request (s.runSave today request).report.errors
  | verify => s.verificationRows request today
  | save => s.savingRows request

/-- The rows with a code among the rows of an operation. -/
def Operation.rowsUnder (code : String) (rows : List (Int × Task)) : List Task :=
  Task.under code (rows.map Prod.snd)

/-! ## Codes -/

section Codes

variable {s : Store} {request : BulkRequest} {today : Date} {id : Int} {task : Task}

theorem code?_attributesLayout (titles : List String) (row : Row) :
    Task.code? ⟨attributesLayout titles, row⟩ = some (cell row 1) := by
  unfold attributesLayout Task.code?
  cases titles.findIdx? fun title => title == Column.state <;> rfl

theorem code?_savingTask :
    (s.savingTask request id).code? = some (Text.trim (s.slugOf request id)) := by
  rw [Store.savingTask, code?_attributesLayout, ← Store.slug_stubOf]
  rfl

theorem code?_completionTask :
    (s.completionTask request id).code? = some (Text.trim (s.slugOf request id)) := rfl

theorem code?_verificationTask :
    (s.verificationTask request today id).code? = some (Text.trim (s.slugOf request id)) := rfl

theorem savingTask_of_not_state (h : Column.state ∉ request.titles) :
    s.savingTask request id =
      ⟨.attributes ⟨1, some 2, some 3, Block.attributeColumns 4 request.titles⟩,
        (s.savingTask request id).row⟩ := by
  unfold Store.savingTask attributesLayout
  rw [findIdx?_eq_none h]

theorem mem_savingRows :
    (id, task) ∈ s.savingRows request ↔
      id ∈ request.named ∧ request.hasValues id = true ∧ task = s.savingTask request id := by
  unfold Store.savingRows
  rw [List.mem_map]
  constructor
  · rintro ⟨i, hi, he⟩
    obtain ⟨rfl, rfl⟩ := Prod.mk.inj he
    exact ⟨(List.mem_filter.1 hi).1, (List.mem_filter.1 hi).2, rfl⟩
  · rintro ⟨hid, hv, rfl⟩
    exact ⟨id, List.mem_filter.2 ⟨hid, hv⟩, rfl⟩

theorem named_of_mem_ids (h : id ∈ Keyed.firsts request.ids) : id ∈ request.named :=
  BulkRequest.mem_named.2 (Or.inl (Keyed.mem_firsts.1 h))

theorem named_of_hasValues (h : request.hasValues id = true) : id ∈ request.named := by
  obtain ⟨e, he, -⟩ := List.any_eq_true.1 h
  obtain ⟨hmem, hid⟩ := BulkRequest.mem_entriesOf.1 he
  exact BulkRequest.mem_named.2 (Or.inr ⟨e, hmem, hid⟩)

theorem of_mem_completionRows {excluded : TextSet}
    (h : (id, task) ∈ s.completionRows request excluded) :
    id ∈ request.ids ∧ task = s.completionTask request id := by
  obtain ⟨i, hi, he⟩ := List.mem_map.1 h
  obtain ⟨rfl, rfl⟩ := Prod.mk.inj he
  exact ⟨Keyed.mem_firsts.1 (List.mem_filter.1 hi).1, rfl⟩

theorem of_mem_verificationRows (h : (id, task) ∈ s.verificationRows request today) :
    id ∈ request.ids ∧ task = s.verificationTask request today id := by
  obtain ⟨i, hi, he⟩ := List.mem_map.1 h
  obtain ⟨rfl, rfl⟩ := Prod.mk.inj he
  exact ⟨Keyed.mem_firsts.1 (List.mem_filter.1 hi).1, rfl⟩

/-- Every row is made for an id that the request names, and its code is the slug of that id
without the blanks around it. -/
theorem Operation.code?_of_mem_rows {op : Operation} (h : (id, task) ∈ op.rows s today request) :
    id ∈ request.named ∧ task.code? = some (Text.trim (s.slugOf request id)) := by
  have hsaving (h : (id, task) ∈ s.savingRows request) :
      id ∈ request.named ∧ task.code? = some (Text.trim (s.slugOf request id)) := by
    obtain ⟨hid, -, rfl⟩ := mem_savingRows.1 h
    exact ⟨hid, code?_savingTask⟩
  cases op with
  | save => exact hsaving h
  | verify =>
    obtain ⟨hid, rfl⟩ := of_mem_verificationRows h
    exact ⟨BulkRequest.mem_named.2 (Or.inl hid), code?_verificationTask⟩
  | complete =>
    rcases List.mem_append.1 h with h | h
    · exact hsaving h
    · obtain ⟨hid, rfl⟩ := of_mem_completionRows h
      exact ⟨BulkRequest.mem_named.2 (Or.inl hid), code?_completionTask⟩

end Codes

/-! ## Cells -/

section Cells

variable {s : Store} {request : BulkRequest} {id : Int}

/-- What is submitted for an assessment under a title, without the blanks around it. -/
def Store.cellText (s : Store) (request : BulkRequest) (id : Int) (title : String) : String :=
  Text.trim (((s.stubOf request id).value? title).getD "")

theorem cellText_of_not_submits {title : String} (h : ¬ request.Submits id title) :
    s.cellText request id title = "" := by
  unfold Store.cellText
  rw [Store.value?_stubOf_of_not_submits h]
  rfl

/-- The cell of a title in the row of a stub. -/
theorem Assembly.cell_attributesRow {a : Assembly} {title : String} {i : Nat}
    (h : a.titles[i]? = some title) (stub : Stub) :
    cell (a.attributesRow stub) (i + 4) = Text.trim ((stub.value? title).getD "") := by
  have hcell : (a.attributesRow stub)[i + 4]? = some ((stub.value? title).getD "") := by
    unfold Assembly.attributesRow
    rw [List.getElem?_append_right (by simp)]
    show (a.titles.map fun title => (stub.value? title).getD "")[i]? = _
    rw [List.getElem?_map, h, Option.map_some]
  rw [cell, hcell, Option.getD_some]

theorem cell_savingTask {title : String} {i : Nat} (h : request.titles[i]? = some title) :
    cell (s.savingTask request id).row (i + 4) = s.cellText request id title :=
  Assembly.cell_attributesRow (a := s.assembleFlagged request) h (s.stubOf request id)

/-- A cell that is found by a title has what is submitted under the title. -/
theorem cellOf_savingTask (s : Store) (request : BulkRequest) (id : Int) (title : String) :
    cellOf (s.savingTask request id).row
      ((request.titles.findIdx? fun t => t == title).map fun i => i + 4) =
        s.cellText request id title := by
  cases hfind : request.titles.findIdx? fun t => t == title with
  | none =>
    have hsubmits : ¬ request.Submits id title := by
      intro h
      have hmem := BulkRequest.mem_titles.2 ⟨id, h⟩
      simpa using List.findIdx?_eq_none_iff.1 hfind title hmem
    rw [cellText_of_not_submits hsubmits]
    rfl
  | some i =>
    obtain ⟨hi, htitle, -⟩ := List.findIdx?_eq_some_iff_getElem.1 hfind
    have hget : request.titles[i]? = some title := by
      rw [List.getElem?_eq_getElem hi]
      exact congrArg some (by simpa using htitle)
    rw [Option.map_some, cellOf, Option.map_some, Option.getD_some]
    exact cell_savingTask hget

end Cells

/-! ## Rows by the assessment that they are about -/

section Leading

variable {s : Store} {request : BulkRequest}

/-- The rows of an id look for the assessment with a slug. -/
def Store.leadsTo (s : Store) (request : BulkRequest) (slug : String) (id : Int) : Bool :=
  Text.trim (s.slugOf request id) == slug

theorem under_map_task {f : Int → Task}
    (h : ∀ id, (f id).code? = some (Text.trim (s.slugOf request id))) (slug : String)
    (ids : List Int) :
    Operation.rowsUnder slug (ids.map fun id => (id, f id)) =
      (ids.filter (s.leadsTo request slug)).map f := by
  have hcode : (fun task : Task => task.code? == some slug) ∘ f = s.leadsTo request slug := by
    funext id
    rw [Function.comp_apply, h, Store.leadsTo]
    rfl
  rw [Operation.rowsUnder, List.map_map, Task.under, ← hcode, ← List.filter_map]
  rfl

/-- Rows that are made for ids have codes. -/
theorem code?_ne_none_of_mem {f : Int → Task}
    (h : ∀ id, (f id).code? = some (Text.trim (s.slugOf request id))) {ids : List Int} {task : Task}
    (htask : task ∈ (ids.map fun id => (id, f id)).map Prod.snd) : task.code? ≠ none := by
  rw [List.map_map] at htask
  obtain ⟨id, -, rfl⟩ := List.mem_map.1 htask
  rw [Function.comp_apply, h id]
  exact Option.some_ne_none _

theorem rowsUnder_savingRows (slug : String) :
    Operation.rowsUnder slug (s.savingRows request) =
      (request.named.filter fun id =>
        s.leadsTo request slug id && request.hasValues id).map (s.savingTask request) := by
  rw [Store.savingRows, under_map_task fun _ => code?_savingTask, List.filter_filter]

theorem rowsUnder_completionRows (slug : String) (excluded : TextSet) :
    Operation.rowsUnder slug (s.completionRows request excluded) =
      ((Keyed.firsts request.ids).filter fun id => s.leadsTo request slug id &&
        (!(s.slugOf request id).isEmpty && !decide (s.slugOf request id ∈ excluded))).map
          (s.completionTask request) := by
  rw [Store.completionRows, under_map_task fun _ => code?_completionTask, List.filter_filter]

theorem rowsUnder_verificationRows (slug : String) (today : Date) :
    Operation.rowsUnder slug (s.verificationRows request today) =
      ((Keyed.firsts request.ids).filter fun id => s.leadsTo request slug id &&
        (s.stubOf request id).needsVerification).map (s.verificationTask request today) := by
  rw [Store.verificationRows, under_map_task fun _ => code?_verificationTask, List.filter_filter]

/-- In a list without duplicates a condition that only one member can meet. -/
theorem filter_eq_of_forall_eq {α : Type} [DecidableEq α] {xs : List α} (hnodup : xs.Nodup)
    {p : α → Bool} {x : α} (h : ∀ y ∈ xs, p y = true → y = x) :
    xs.filter p = if x ∈ xs ∧ p x = true then [x] else [] := by
  induction xs with
  | nil => simp
  | cons y xs ih =>
    obtain ⟨hfresh, hnodup⟩ := List.nodup_cons.1 hnodup
    have hrest := ih hnodup fun z hz => h z (List.mem_cons_of_mem _ hz)
    by_cases hp : p y = true
    · obtain rfl := h y List.mem_cons_self hp
      rw [List.filter_cons_of_pos hp, hrest]
      simp [hfresh, hp]
    · rw [List.filter_cons_of_neg hp, hrest]
      have hiff : (x ∈ y :: xs ∧ p x = true) ↔ (x ∈ xs ∧ p x = true) := by
        rw [List.mem_cons]
        constructor
        · rintro ⟨rfl | hmem, hpx⟩
          · exact absurd hpx hp
          · exact ⟨hmem, hpx⟩
        · rintro ⟨hmem, hpx⟩
          exact ⟨Or.inr hmem, hpx⟩
      simp only [hiff]

theorem Store.slugOf_of_assessment? {id : Int} {a : Assessment} (ha : s.assessment? id = some a) :
    s.slugOf request id = a.slug := by
  unfold Store.slugOf
  rw [ha]

/-- If the rows of no other id reach an assessment, then at most its own row does. -/
theorem filter_leadsTo_and {ids : List Int} (hnodup : ids.Nodup) {id : Int} {a : Assessment}
    (ha : s.assessment? id = some a) {p : Int → Bool}
    (hothers : ∀ i ∈ ids, i ≠ id → p i = true → Text.trim (s.slugOf request i) ≠ a.slug) :
    (ids.filter fun i => s.leadsTo request a.slug i && p i) =
      if id ∈ ids ∧ Text.trim a.slug = a.slug ∧ p id = true then [id] else [] := by
  have honly : ∀ i ∈ ids, (s.leadsTo request a.slug i && p i) = true → i = id := by
    intro i hi hreaches
    obtain ⟨hleads, hp⟩ := Bool.and_eq_true_iff.1 hreaches
    by_contra hne
    refine hothers i hi hne hp ?_
    simpa [Store.leadsTo] using hleads
  rw [filter_eq_of_forall_eq hnodup honly]
  simp only [Store.leadsTo, Store.slugOf_of_assessment? ha, Bool.and_eq_true, beq_iff_eq]

/-- If the row of no other id reaches an assessment, its own row is the only one that can store
values of it. -/
theorem rowsUnder_savingRows_alone {id : Int} {a : Assessment} (ha : s.assessment? id = some a)
    (htrim : Text.trim a.slug = a.slug)
    (hothers : ∀ i ∈ request.named, i ≠ id → request.hasValues i = true →
      Text.trim (s.slugOf request i) ≠ a.slug) :
    Operation.rowsUnder a.slug (s.savingRows request) =
      if request.hasValues id then [s.savingTask request id] else [] := by
  rw [rowsUnder_savingRows, filter_leadsTo_and BulkRequest.nodup_named ha hothers]
  by_cases hvalues : request.hasValues id = true
  · rw [if_pos ⟨named_of_hasValues hvalues, htrim, hvalues⟩, if_pos hvalues, List.map_singleton]
  · rw [if_neg fun h => hvalues h.2.2, if_neg hvalues, List.map_nil]

/-- No slug is empty or has blanks around it. -/
def Store.TidySlugs (s : Store) : Prop :=
  ∀ a ∈ s.assessments, a.slug ≠ "" ∧ Text.trim a.slug = a.slug

/-- With tidy slugs the rows of an assessment reach no other one. -/
theorem Store.TidySlugs.trim_slugOf_ne (hslugs : s.TidySlugs) (hk : s.Keyed) {id i : Int}
    {a : Assessment} (ha : s.assessment? id = some a) (hi : (s.assessment? i).isSome = true)
    (hne : i ≠ id) : Text.trim (s.slugOf request i) ≠ a.slug := by
  obtain ⟨b, hb⟩ := Option.isSome_iff_exists.1 hi
  obtain ⟨hamem, rfl⟩ := Store.mem_of_assessment?_eq_some ha
  obtain ⟨hbmem, rfl⟩ := Store.mem_of_assessment?_eq_some hb
  rw [Store.slugOf_of_assessment? hb, (hslugs b hbmem).2]
  intro hslug
  exact hne (congrArg Assessment.id (hk.eq_of_slug hbmem hamem hslug))

/-- Nothing was sent for an id that no entry is about. -/
theorem Store.slugOf_of_no_entry {i : Int} (hn : s.assessment? i = none)
    (h : ∀ e ∈ request.entries, e.assessmentId ≠ i) : s.slugOf request i = "" := by
  have hentries : request.entriesOf i = [] := by
    rw [List.eq_nil_iff_forall_not_mem]
    intro e he
    obtain ⟨hmem, hid⟩ := BulkRequest.mem_entriesOf.1 he
    exact h e hmem hid
  unfold Store.slugOf
  rw [hn]
  dsimp only
  rw [BulkRequest.sentSlug, hentries, List.foldl_nil]

end Leading

/-! ## The blocks, read back -/

section Blocks

variable {s : Store}

theorem tasks_attributesBlock? (hk : s.Keyed) (request : BulkRequest) :
    Block.tasks (s.assembleFlagged request).attributesBlock?.toList =
      (s.savingRows request).map Prod.snd := by
  have hvalues : (fun stub : Stub => !stub.values.isEmpty) ∘ s.stubOf request =
      request.hasValues := by
    funext id
    rw [Function.comp_apply, Store.values_stubOf_isEmpty, Bool.not_not]
  unfold Assembly.attributesBlock?
  rw [tasks_ofRows? (layoutOf?_attributes _), Store.toList_assembleFlagged hk, List.filter_map,
    hvalues, Store.savingRows, List.map_map, List.map_map, List.map_map]
  rfl

theorem under_tasks_commentsBlock? (a : Assembly) (code : String) :
    Task.under code (Block.tasks a.commentsBlock?.toList) = [] := by
  unfold Assembly.commentsBlock?
  rw [tasks_ofRows? layoutOf?_comments, Task.under, List.filter_eq_nil_iff]
  intro task htask
  obtain ⟨row, -, rfl⟩ := List.mem_map.1 htask
  simp [Task.code?]

theorem tasks_completionBlock? (hk : s.Keyed) (request : BulkRequest) (excluded : TextSet) :
    Block.tasks ((s.assembleFlagged request).registry.completionBlock? request.ids
      excluded).toList = (s.completionRows request excluded).map Prod.snd := by
  have hstubs : (Keyed.firsts request.ids).filterMap (s.assembleFlagged request).registry.get? =
      (Keyed.firsts request.ids).map (s.stubOf request) := by
    rw [← List.filterMap_eq_map]
    refine List.filterMap_congr fun id hid => ?_
    exact Store.get?_assembleFlagged hk (named_of_mem_ids hid)
  have hslug : (fun stub : Stub => !stub.slug.isEmpty && !decide (stub.slug ∈ excluded)) ∘
      s.stubOf request = fun id =>
        !(s.slugOf request id).isEmpty && !decide (s.slugOf request id ∈ excluded) := by
    funext id
    rw [Function.comp_apply, Store.slug_stubOf]
  unfold Registry.completionBlock?
  rw [tasks_ofRows? layoutOf?_completion, hstubs, List.filter_map, hslug, Store.completionRows,
    List.map_map, List.map_map, List.map_map]
  refine List.map_congr_left fun id _ => ?_
  simp only [Function.comp_apply, Store.slug_stubOf, Store.completionTask]

theorem tasks_verificationBlock? (hk : s.Keyed) (request : BulkRequest) (today : Date) :
    Block.tasks ((s.loadFlags (Registry.ofIds request.ids)).verificationBlock? today).toList =
      (s.verificationRows request today).map Prod.snd := by
  -- the registry of a request without entries
  let bare : BulkRequest := ⟨request.ids, []⟩
  have hregistry : s.loadFlags (Registry.ofIds request.ids) =
      (s.assembleFlagged bare).registry := rfl
  have hnamed : bare.named = Keyed.firsts request.ids := by
    simp [bare, BulkRequest.named]
  have hneeds : Stub.needsVerification ∘ s.stubOf bare = fun id =>
      (s.stubOf request id).needsVerification := by
    funext id
    rw [Function.comp_apply, Store.needsVerification_stubOf, Store.needsVerification_stubOf]
  unfold Registry.verificationBlock?
  rw [tasks_ofRows? layoutOf?_verification, hregistry, Store.toList_assembleFlagged hk, hnamed,
    List.filter_map, hneeds, Store.verificationRows, List.map_map, List.map_map, List.map_map]
  refine List.map_congr_left fun id hid => ?_
  -- a stub that needs verification has the slug of its assessment
  have hsome : (s.assessment? id).isSome = true := by
    have h := (List.mem_filter.1 hid).2
    rw [Store.needsVerification_stubOf] at h
    exact (Bool.and_eq_true_iff.1 h).1
  obtain ⟨a, ha⟩ := Option.isSome_iff_exists.1 hsome
  simp only [Function.comp_apply, Store.slug_stubOf, Store.verificationTask, Store.slugOf, ha]

end Blocks

/-! ## What an operation makes of an assessment -/

section Effect

variable {s : Store} {today : Date} {id : Int} {x : Dossier}

theorem slug_foldl_after (x : Dossier) (tasks : List Task) :
    (tasks.foldl (Dossier.after s today) x).assessment.slug = x.assessment.slug :=
  foldl_keeps (f := fun x : Dossier => x.assessment.slug)
    (fun y task _ => y.slug_after task) x

theorem under_append (code : String) (ts us : List Task) :
    Task.under code (ts ++ us) = Task.under code ts ++ Task.under code us :=
  List.filter_append ..

theorem tasks_updateBlocks (a : Assembly) :
    Block.tasks a.updateBlocks =
      Block.tasks a.attributesBlock?.toList ++ Block.tasks a.commentsBlock?.toList :=
  List.flatMap_append

/-- The rows of the blocks that store values which have a code are rows of the attributes
block. -/
theorem under_tasks_updateBlocks (hk : s.Keyed) (request : BulkRequest) (code : String) :
    Task.under code (Block.tasks (s.assembleFlagged request).updateBlocks) =
      Operation.rowsUnder code (s.savingRows request) := by
  rw [tasks_updateBlocks, under_append, under_tasks_commentsBlock?, List.append_nil,
    tasks_attributesBlock? hk, Operation.rowsUnder]

/-- An import of blocks over a store with the frame of `s`. -/
theorem dossier?_importBlocks {t : Store} (today : Date) (hk : s.Keyed) (hf : s.SameFrame t)
    (hx : t.dossier? id = some x) (blocks : List Block) :
    (t.importBlocks today blocks).store.dossier? id =
      some ((Task.under x.assessment.slug (Block.tasks blocks)).foldl
        (Dossier.after s today) x) := by
  rw [Store.importBlocks_eq]
  exact Run.dossier?_foldl (r := Run.start t) hk hf hx _

theorem Store.sameFrame_runSave (hk : s.Keyed) (today : Date) (request : BulkRequest) :
    s.SameFrame (s.runSave today request).store :=
  Run.sameFrame_importBlocks hk _

/-- No operation changes what assessments are known by. -/
theorem Operation.sameFrame_run (hk : s.Keyed) (op : Operation) (today : Date)
    (request : BulkRequest) : s.SameFrame (op.run s today request).store := by
  cases op with
  | save => exact s.sameFrame_runSave hk today request
  | verify => exact Run.sameFrame_importBlocks hk _
  | complete =>
    have hsaved := s.sameFrame_runSave hk today request
    exact hsaved.trans (Run.sameFrame_importBlocks (hsaved.keyed hk) _)

/-- The dossier after the rows that store values. -/
def Dossier.afterSaving (s : Store) (today : Date) (request : BulkRequest) (x : Dossier) :
    Dossier :=
  (Operation.rowsUnder x.assessment.slug (s.savingRows request)).foldl (Dossier.after s today) x

theorem Dossier.slug_afterSaving (x : Dossier) (today : Date) (request : BulkRequest) :
    (x.afterSaving s today request).assessment.slug = x.assessment.slug :=
  slug_foldl_after x _

theorem dossier?_runSave (today : Date) (hk : s.Keyed) (hx : s.dossier? id = some x)
    (request : BulkRequest) :
    (s.runSave today request).store.dossier? id = some (x.afterSaving s today request) := by
  rw [Store.runSave, dossier?_importBlocks today hk (.refl s) hx, under_tasks_updateBlocks hk,
    Dossier.afterSaving]

/-- What an operation makes of an assessment is what the rows with its code make of its
dossier. -/
theorem Operation.dossier?_run (op : Operation) (today : Date) (hk : s.Keyed)
    (hx : s.dossier? id = some x) (request : BulkRequest) :
    (op.run s today request).store.dossier? id =
      some ((Operation.rowsUnder x.assessment.slug (op.rows s today request)).foldl
        (Dossier.after s today) x) := by
  cases op with
  | save => exact dossier?_runSave today hk hx request
  | verify =>
    have h := dossier?_importBlocks today hk (.refl s) hx
      ((s.loadFlags (Registry.ofIds request.ids)).verificationBlock? today).toList
    rw [tasks_verificationBlock? hk] at h
    exact h
  | complete =>
    have hsaved := dossier?_runSave today hk hx request
    have h := dossier?_importBlocks today hk (s.sameFrame_runSave hk today request) hsaved
      ((s.assembleFlagged request).registry.completionBlock? request.ids
        (s.runSave today request).report.errors).toList
    rw [tasks_completionBlock? hk, Dossier.afterSaving, slug_foldl_after, ← List.foldl_append] at h
    rw [Operation.rowsUnder, Operation.rows, List.map_append, under_append]
    exact h

/-- A request that suits the operation is carried out. -/
theorem Operation.perform_of_admitted {op : Operation} {request : BulkRequest}
    (h : op.admit request = .ok ()) (s : Store) (appUrl : String) (today : Date) :
    op.perform s appUrl today request =
      .ok ((op.run s today request).store,
        (op.run s today request).store.outcome appUrl (op.run s today request).report.errors
          (op.run s today request).report.partials (op.subjects request)) := by
  unfold Operation.perform
  rw [h]
  rfl

section Performed

variable {op : Operation} {appUrl : String} {request : BulkRequest} {t : Store} {o : Outcome}

/-- No other request is. -/
theorem Operation.admit_of_perform (h : op.perform s appUrl today request = .ok (t, o)) :
    op.admit request = .ok () := by
  unfold Operation.perform at h
  cases hallowed : op.admit request with
  | error e =>
    rw [hallowed] at h
    cases h
  | ok u => rfl

/-- An operation that takes a request leaves the store of its run, and its answer sorts the
subjects by the report of the run. -/
theorem Operation.of_perform (h : op.perform s appUrl today request = .ok (t, o)) :
    t = (op.run s today request).store ∧
      o = t.outcome appUrl (op.run s today request).report.errors
        (op.run s today request).report.partials (op.subjects request) := by
  rw [perform_of_admitted (admit_of_perform h)] at h
  obtain ⟨rfl, rfl⟩ := Prod.mk.inj (Except.ok.inj h)
  exact ⟨rfl, rfl⟩

theorem Operation.store_of_perform (h : op.perform s appUrl today request = .ok (t, o)) :
    t = (op.run s today request).store :=
  (of_perform h).1

end Performed

end Effect

end BulkAssessment
