import BulkAssessment.Proofs.Aggregation
import BulkAssessment.Proofs.Dossier
import BulkAssessment.Session

/-!
# The matrix as a view of the store

The rows of the join come by assessment and definition, so the last row for an entry has the
definition with the greatest id. With that the matrix of a search says nothing but what is in the
store (`Matrix.Views`). What its summaries and entries say is told by the rows of the tables and
not by the look-ups that the join makes (`Summary.Describes`, `MatrixEntry.Describes`).
-/

namespace BulkAssessment

/-! ## Rows by their keys -/

/-- In a list with unique keys only one row has a given key. -/
theorem flatMap_of_key {α β κ : Type} [DecidableEq κ] {key : α → κ} {rows : List α}
    (h : (rows.map key).Nodup) (k : κ) (ys : List β) :
    (rows.flatMap fun x => if key x = k then ys else []) =
      if k ∈ rows.map key then ys else [] := by
  induction rows with
  | nil => rfl
  | cons x rows ih =>
    obtain ⟨hx, hrows⟩ := List.nodup_cons.1 h
    rw [List.flatMap_cons, ih hrows]
    by_cases hk : key x = k
    · subst hk
      simp [hx]
    · simp [hk, Ne.symm hk]

/-- In a list with increasing keys the last row is the one with the greatest key. -/
theorem getLast?_eq_some_iff_greatest {α : Type} {key : α → Int} {rows : List α}
    (h : rows.Pairwise fun x y => key x < key y) {x : α} :
    rows.getLast? = some x ↔ x ∈ rows ∧ ∀ y ∈ rows, key y ≤ key x := by
  rw [List.getLast?_eq_some_iff]
  constructor
  · rintro ⟨before, rfl⟩
    refine ⟨by simp, fun y hy => ?_⟩
    rcases List.mem_append.1 hy with hbefore | hlast
    · exact Int.le_of_lt ((List.pairwise_append.1 h).2.2 y hbefore x List.mem_cons_self)
    · exact Int.le_of_eq (congrArg key (List.mem_singleton.1 hlast))
  · rintro ⟨hx, hgreatest⟩
    obtain rfl | ⟨before, last, rfl⟩ := rows.eq_nil_or_concat'
    · cases hx
    refine ⟨before, ?_⟩
    rcases List.mem_append.1 hx with hbefore | hlast
    · have hlt := (List.pairwise_append.1 h).2.2 x hbefore last List.mem_cons_self
      have hle := hgreatest last (by simp)
      omega
    · rw [List.mem_singleton.1 hlast]

/-! ## The rows of the join -/

/-- The column of a definition. -/
def Definition.columnKey (d : Definition) : ColumnKey :=
  ⟨d.title, d.typeName, d.mandatory, d.defaultValue, d.options, d.optionsMandatory⟩

/-- The entry of an assessment with a definition and its value, if there is one. -/
def Definition.entry (d : Definition) (assessmentId : Int) (v : Option StoredValue) :
    MatrixEntry :=
  ⟨v.bind StoredValue.value, v.bind StoredValue.personId, v.bind StoredValue.preconditionsFailed,
    assessmentId, d.id, d.options, d.optionsMandatory⟩

/-- The summary of an assessment with the numbers of links and files attached to it. -/
def Store.summaryOf (s : Store) (a : Assessment) : Summary :=
  ⟨a.assessmentType, a.id, a.slug, a.title, a.status, s.countEvidence a.id .url,
    s.countEvidence a.id .file⟩

/-- The entry for a definition of an assessment as it is stored. -/
def Store.storedEntry (s : Store) (assessmentId : Int) (d : Definition) : MatrixEntry :=
  d.entry assessmentId (s.value? d.id assessmentId)

namespace Store

variable {s : Store}

theorem summary_of_mem_joinRowsOf {a : Assessment} {r : JoinRow} (hr : r ∈ s.joinRowsOf a) :
    r.summary = s.summaryOf a := by
  have hrow (d : Option Definition) : (s.joinRow a d).summary = s.summaryOf a := rfl
  unfold joinRowsOf at hr
  split at hr
  · rw [List.mem_singleton.1 hr]
    exact hrow none
  · obtain ⟨d, -, rfl⟩ := List.mem_map.1 hr
    exact hrow (some d)

theorem joinRowsOf_ne_nil (s : Store) (a : Assessment) : s.joinRowsOf a ≠ [] := by
  unfold joinRowsOf
  split
  · exact List.cons_ne_nil _ _
  · rename_i hds
    exact fun hnil => hds (List.map_eq_nil_iff.1 hnil)

theorem posting?_joinRow (s : Store) (a : Assessment) (d : Definition) :
    (s.joinRow a (some d)).posting? = some (d.columnKey, s.storedEntry a.id d) := by
  unfold JoinRow.posting? joinRow storedEntry
  cases hv : s.value? d.id a.id <;>
    simp [hv, JoinRow.columnKey, JoinRow.entry, Definition.columnKey, Definition.entry]

theorem postings_joinRowsOf (s : Store) (a : Assessment) :
    (s.joinRowsOf a).filterMap JoinRow.posting? =
      (s.definitionsOf a.id).map fun d => (d.columnKey, s.storedEntry a.id d) := by
  unfold joinRowsOf
  split
  · rename_i hnil
    rw [hnil]
    rfl
  · rw [List.filterMap_map, ← List.filterMap_eq_map]
    exact List.filterMap_congr fun d _ => posting?_joinRow s a d

theorem InIdOrder.nodup_assessmentIds (ho : s.InIdOrder) :
    (s.assessments.map Assessment.id).Nodup :=
  List.pairwise_map.2 (ho.assessments.imp fun h => Int.ne_of_lt h)

/-- The definitions of an assessment in one column. -/
def definitionsIn (s : Store) (key : ColumnKey) (id : Int) : List Definition :=
  (s.definitionsOf id).filter fun d => d.columnKey = key

theorem entriesUnder_joinRowsOf (s : Store) (key : ColumnKey) (a : Assessment) :
    Matrix.entriesUnder (s.joinRowsOf a) key =
      (s.definitionsIn key a.id).map (s.storedEntry a.id) := by
  rw [Matrix.entriesUnder, postings_joinRowsOf, List.filter_map, List.map_map]
  rfl

theorem mem_map_id_assessmentsByIds {ids : List Int} {id : Int} :
    id ∈ (s.assessmentsByIds ids).map Assessment.id ↔ id ∈ ids ∧ s.hasAssessment id = true := by
  simp only [assessmentsByIds, hasAssessment, List.mem_map, List.mem_filter, List.any_eq_true,
    List.contains_iff_mem, beq_iff_eq]
  constructor
  · rintro ⟨a, ⟨ha, hids⟩, rfl⟩
    exact ⟨hids, a, ha, rfl⟩
  · rintro ⟨hids, a, ha, rfl⟩
    exact ⟨a, ⟨ha, hids⟩, rfl⟩

/-- The entries about an assessment come from its own definitions, if it is asked for. -/
theorem entries_joinRows (ho : s.InIdOrder) (ids : List Int) (key : ColumnKey) (id : Int) :
    (Matrix.entriesUnder (s.joinRows ids) key).filter (fun e => e.ownerId = id) =
      if id ∈ ids ∧ s.hasAssessment id then (s.definitionsIn key id).map (s.storedEntry id)
      else [] := by
  have hnodup : ((s.assessmentsByIds ids).map Assessment.id).Nodup :=
    ho.nodup_assessmentIds.sublist (List.filter_sublist.map _)
  have hown (a : Assessment) : ((s.definitionsIn key a.id).map (s.storedEntry a.id)).filter
      (fun e => e.ownerId = id) =
        if a.id = id then (s.definitionsIn key id).map (s.storedEntry id) else [] := by
    by_cases ha : a.id = id
    · rw [if_pos ha, ha, List.filter_eq_self]
      intro e he
      obtain ⟨d, -, rfl⟩ := List.mem_map.1 he
      exact decide_eq_true rfl
    · rw [if_neg ha, List.filter_eq_nil_iff]
      intro e he
      obtain ⟨d, -, rfl⟩ := List.mem_map.1 he
      exact fun howner => ha (of_decide_eq_true howner)
  calc (Matrix.entriesUnder (s.joinRows ids) key).filter (fun e => e.ownerId = id)
      = (s.assessmentsByIds ids).flatMap fun a =>
          (Matrix.entriesUnder (s.joinRowsOf a) key).filter fun e => e.ownerId = id := by
        simp only [Matrix.entriesUnder, joinRows, List.filterMap_flatMap, List.filter_flatMap,
          List.map_flatMap]
    _ = (s.assessmentsByIds ids).flatMap fun a =>
          if a.id = id then (s.definitionsIn key id).map (s.storedEntry id) else [] := by
        simp only [entriesUnder_joinRowsOf, hown]
    _ = _ := by
        rw [flatMap_of_key hnodup]
        simp only [mem_map_id_assessmentsByIds]

/-- A definition gives an assessment an entry in a column. -/
def Defines (s : Store) (id : Int) (key : ColumnKey) (d : Definition) : Prop :=
  d ∈ s.definitions ∧ d.ownerType = "assessment" ∧ d.ownerId = some id ∧ d.columnKey = key

theorem mem_definitionsIn {key : ColumnKey} {id : Int} {d : Definition} :
    d ∈ s.definitionsIn key id ↔ s.Defines id key d := by
  rw [definitionsIn, List.mem_filter, definitionsOf, List.mem_filter]
  simp [Definition.isLocalTo, Definition.localType, Defines, and_assoc]

theorem InIdOrder.definitionsIn (ho : s.InIdOrder) (key : ColumnKey) (id : Int) :
    (s.definitionsIn key id).Pairwise fun c d => c.id < d.id :=
  (ho.definitions.filter _).filter _

/-- Some definition of a requested assessment is in each column, and each such definition is. -/
theorem mem_keys_columns_search {ids : List Int} {key : ColumnKey} :
    key ∈ Keyed.keys (s.search ids).columns ↔
      ∃ a ∈ s.assessments, a.id ∈ ids ∧ ∃ d, s.Defines a.id key d := by
  rw [search, Matrix.keys_columns, Keyed.mem_firsts, joinRows, List.filterMap_flatMap,
    List.map_flatMap, List.mem_flatMap]
  simp only [postings_joinRowsOf, List.map_map, List.mem_map, Function.comp_apply,
    assessmentsByIds, List.mem_filter, List.contains_iff_mem, and_assoc, ← mem_definitionsIn,
    definitionsIn, decide_eq_true_eq]

/-- The column of a key as a look-up by assessments. -/
theorem get?_column_search (ho : s.InIdOrder) {ids : List Int} {column : ColumnKey × MatrixColumn}
    (hc : column ∈ (s.search ids).columns) (id : Int) :
    Keyed.get? id column.2 =
      if id ∈ ids ∧ s.hasAssessment id then
        (s.definitionsIn column.1 id).getLast?.map (s.storedEntry id)
      else none := by
  rw [search, Matrix.columns_aggregate] at hc
  obtain ⟨key, -, rfl⟩ := List.mem_map.1 hc
  rw [MatrixColumn.get?_ofEntries, entries_joinRows ho]
  split
  · exact List.getLast?_map
  · rfl

end Store

/-! ## The search -/

/-- A value is stored for a definition of an assessment. -/
def Store.Stores (s : Store) (id : Int) (d : Definition) (v : StoredValue) : Prop :=
  v ∈ s.values ∧ v.definitionId = d.id ∧ v.objectId = id

/-- A summary shows an assessment and the numbers of the links and the files that are attached
to it. -/
structure Summary.Describes (x : Summary) (s : Store) (a : Assessment) : Prop where
  assessmentType : x.assessmentType = a.assessmentType
  id : x.id = a.id
  slug : x.slug = a.slug
  title : x.title = a.title
  status : x.status = a.status
  urlsCount : x.urlsCount =
    (s.evidence.filter fun e => e.assessmentId = a.id ∧ e.kind = "URL").length
  filesCount : x.filesCount =
    (s.evidence.filter fun e => e.assessmentId = a.id ∧ e.kind = "FILE").length

/-- An entry shows a definition of an assessment and the value that is stored for it, if there
is one. -/
structure MatrixEntry.Describes (e : MatrixEntry) (s : Store) (id : Int) (d : Definition) :
    Prop where
  owner : e.ownerId = id
  definition : e.definitionId = d.id
  options : e.options = d.options
  optionsMandatory : e.optionsMandatory = d.optionsMandatory
  stored : (∃ v, s.Stores id d v) → ∃ v, s.Stores id d v ∧ e.value = v.value ∧
    e.personId = v.personId ∧ e.preconditionsFailed = v.preconditionsFailed
  missing : (¬ ∃ v, s.Stores id d v) →
    e.value = none ∧ e.personId = none ∧ e.preconditionsFailed = none

/-- A matrix shows what the store has about the given assessments. -/
structure Matrix.Views (m : Matrix) (s : Store) (ids : List Int) : Prop where
  /-- Each id is listed once, in the order of first mention. -/
  listed : m.summaries.map Prod.fst = ids.eraseDups
  summary : ∀ id x, (id, some x) ∈ m.summaries → ∃ a ∈ s.assessments, a.id = id ∧ x.Describes s a
  unknown : ∀ id known, (id, known) ∈ m.summaries →
    (known = none ↔ ∀ a ∈ s.assessments, a.id ≠ id)
  /-- Definitions of one shape share one column. -/
  columnKeys : (m.columns.map Prod.fst).Nodup
  /-- The columns are those of the definitions of the assessments. -/
  mem_columnKeys : ∀ key, key ∈ m.columns.map Prod.fst ↔
    ∃ a ∈ s.assessments, a.id ∈ ids ∧ ∃ d, s.Defines a.id key d
  /-- An assessment has one entry in a column. -/
  entryKeys : ∀ column ∈ m.columns, (column.2.map Prod.fst).Nodup
  /-- The entries of a column are those of the assessments that have a definition in it. -/
  mem_entryKeys : ∀ column ∈ m.columns, ∀ id, id ∈ column.2.map Prod.fst ↔
    id ∈ ids ∧ (∃ a ∈ s.assessments, a.id = id) ∧ ∃ d, s.Defines id column.1 d
  /-- An entry is about the definition with the greatest id. -/
  entry : ∀ column ∈ m.columns, ∀ id e, (id, e) ∈ column.2 → ∃ d, s.Defines id column.1 d ∧
    (∀ c, s.Defines id column.1 c → c.id ≤ d.id) ∧ e.Describes s id d

namespace Store

variable {s : Store}

theorem mem_joinRows {ids : List Int} {r : JoinRow} :
    r ∈ s.joinRows ids ↔ ∃ a ∈ s.assessments, a.id ∈ ids ∧ r ∈ s.joinRowsOf a := by
  simp [joinRows, assessmentsByIds, List.mem_flatMap, and_assoc]

/-- The first row of an assessment says what the store has about it. -/
theorem summary_joinRows (ho : s.InIdOrder) {ids : List Int} {id : Int} (hid : id ∈ ids) :
    ((s.joinRows ids).find? fun r => r.assessmentId == id).map JoinRow.summary =
      (s.assessment? id).map s.summaryOf := by
  have hlookup {a : Assessment} : s.assessment? id = some a ↔ a ∈ s.assessments ∧ a.id = id :=
    find?_key_eq_some_iff ho.nodup_assessmentIds
  cases hf : (s.joinRows ids).find? fun r => r.assessmentId == id with
  | some r =>
    obtain ⟨a, ha, -, hr⟩ := mem_joinRows.1 (List.mem_of_find?_eq_some hf)
    have hsummary := summary_of_mem_joinRowsOf hr
    have hsame : r.assessmentId = id := by simpa using List.find?_some hf
    have haid : a.id = id := (congrArg Summary.id hsummary).symm.trans hsame
    rw [hlookup.2 ⟨ha, haid⟩, Option.map_some, Option.map_some, hsummary]
  | none =>
    cases ha : s.assessment? id with
    | none => rfl
    | some a =>
      obtain ⟨hmem, haid⟩ := hlookup.1 ha
      obtain ⟨r, hr⟩ := List.exists_mem_of_ne_nil _ (s.joinRowsOf_ne_nil a)
      have hrow : r ∈ s.joinRows ids := mem_joinRows.2 ⟨a, hmem, haid ▸ hid, hr⟩
      have hsame : r.assessmentId = a.id := congrArg Summary.id (summary_of_mem_joinRowsOf hr)
      exact absurd (hsame.trans haid) (by simpa using List.find?_eq_none.1 hf r hrow)

theorem summaries_search (ho : s.InIdOrder) (ids : List Int) :
    (s.search ids).summaries =
      (Keyed.firsts ids).map fun id => (id, (s.assessment? id).map s.summaryOf) := by
  have hknown : ∀ id ∈ (s.joinRows ids).map JoinRow.assessmentId, id ∈ ids := by
    intro id hid
    obtain ⟨r, hr, rfl⟩ := List.mem_map.1 hid
    obtain ⟨a, -, hids, hra⟩ := mem_joinRows.1 hr
    have hsame : r.assessmentId = a.id := congrArg Summary.id (summary_of_mem_joinRowsOf hra)
    exact hsame ▸ hids
  rw [search, Matrix.summaries_aggregate, Keyed.firsts_append hknown]
  exact List.map_congr_left fun id hid => by rw [summary_joinRows ho (Keyed.mem_firsts.1 hid)]

theorem summary_of_mem_search (ho : s.InIdOrder) {ids : List Int} {id : Int}
    {known : Option Summary} (h : (id, known) ∈ (s.search ids).summaries) :
    known = (s.assessment? id).map s.summaryOf := by
  rw [summaries_search ho, Keyed.mem_map_graph] at h
  exact h.2

theorem countEvidence_eq (s : Store) (id : Int) (kind : EvidenceKind) :
    s.countEvidence id kind =
      (s.evidence.filter fun e => e.assessmentId = id ∧ e.kind = kind.name).length := by
  rw [countEvidence, List.countP_eq_length_filter]
  simp only [Bool.decide_and, beq_eq_decide]

theorem summaryOf_describes (s : Store) (a : Assessment) : (s.summaryOf a).Describes s a where
  assessmentType := rfl
  id := rfl
  slug := rfl
  title := rfl
  status := rfl
  urlsCount := congrArg Int.ofNat (s.countEvidence_eq a.id .url)
  filesCount := congrArg Int.ofNat (s.countEvidence_eq a.id .file)

theorem stores_of_value? {id : Int} {d : Definition} {v : StoredValue}
    (h : s.value? d.id id = some v) : s.Stores id d v :=
  ⟨List.mem_of_find?_eq_some h, keys_of_value? h⟩

theorem not_stores_of_value? {id : Int} {d : Definition} (h : s.value? d.id id = none)
    (v : StoredValue) : ¬ s.Stores id d v := by
  rintro ⟨hmem, hkeys⟩
  exact List.find?_eq_none.1 h v hmem (isOf_iff.2 hkeys)

theorem storedEntry_describes (s : Store) (id : Int) (d : Definition) :
    (s.storedEntry id d).Describes s id d where
  owner := rfl
  definition := rfl
  options := rfl
  optionsMandatory := rfl
  stored := by
    rintro ⟨w, hw⟩
    cases hv : s.value? d.id id with
    | none => exact absurd hw (not_stores_of_value? hv w)
    | some v =>
      refine ⟨v, stores_of_value? hv, ?_⟩
      simp [storedEntry, Definition.entry, hv]
  missing hnone := by
    cases hv : s.value? d.id id with
    | none => simp [storedEntry, Definition.entry, hv]
    | some v => exact absurd ⟨v, stores_of_value? hv⟩ hnone

theorem views_search (ho : s.InIdOrder) (ids : List Int) : (s.search ids).Views s ids where
  listed := by
    rw [summaries_search ho, List.map_map, ← Keyed.firsts_eq_eraseDups]
    exact List.map_id' _
  summary id x h := by
    obtain ⟨a, ha, rfl⟩ := Option.map_eq_some_iff.1 (summary_of_mem_search ho h).symm
    obtain ⟨hmem, hid⟩ := mem_of_assessment?_eq_some ha
    exact ⟨a, hmem, hid, s.summaryOf_describes a⟩
  unknown id known h := by
    rw [summary_of_mem_search ho h, Option.map_eq_none_iff, assessment?, List.find?_eq_none]
    simp only [beq_iff_eq, ne_eq]
  columnKeys := by
    have hkeys : (s.search ids).columns.map Prod.fst =
        Keyed.firsts (((s.joinRows ids).filterMap JoinRow.posting?).map Prod.fst) :=
      Matrix.keys_columns _ _
    rw [hkeys]
    exact Keyed.nodup_firsts _
  mem_columnKeys _ := mem_keys_columns_search
  entryKeys _ hc := Matrix.nodup_keys_of_mem hc
  mem_entryKeys column hc id := by
    have hsome : (s.definitionsIn column.1 id).getLast?.isSome = true ↔
        ∃ d, s.Defines id column.1 d := by
      simp only [← mem_definitionsIn]
      rw [List.getLast?_isSome]
      exact ⟨List.exists_mem_of_ne_nil _, fun ⟨_, hd⟩ => List.ne_nil_of_mem hd⟩
    have hknown : s.hasAssessment id = true ↔ ∃ a ∈ s.assessments, a.id = id := by
      rw [hasAssessment, List.any_eq_true]
      simp only [beq_iff_eq]
    rw [← hknown, ← hsome, ← and_assoc]
    refine Keyed.get?_isSome_iff.symm.trans ?_
    rw [get?_column_search ho hc]
    split <;> simp_all
  entry column hc id e he := by
    rw [Keyed.mem_iff_get? (Matrix.nodup_keys_of_mem hc), get?_column_search ho hc] at he
    split at he
    · obtain ⟨d, hd, rfl⟩ := Option.map_eq_some_iff.1 he
      obtain ⟨hmem, hgreatest⟩ := (getLast?_eq_some_iff_greatest (ho.definitionsIn _ _)).1 hd
      exact ⟨d, mem_definitionsIn.1 hmem, fun c hc => hgreatest c (mem_definitionsIn.2 hc),
        s.storedEntry_describes id d⟩
    · cases he

/-- The columns depend on which assessments are asked for and not on how. -/
theorem columns_search_congr (s : Store) {ids others : List Int}
    (h : ∀ id, id ∈ others ↔ id ∈ ids) : (s.search others).columns = (s.search ids).columns := by
  have hrows : s.joinRows others = s.joinRows ids := by
    have hcontains (id : Int) : others.contains id = ids.contains id := by
      rw [Bool.eq_iff_iff, List.contains_iff_mem, List.contains_iff_mem, h]
    simp only [joinRows, assessmentsByIds, hcontains]
  rw [search, search, Matrix.columns_aggregate, Matrix.columns_aggregate, hrows]

end Store

/-- Asked for the assessments with some ids, an open session shows what its store has about
them; the columns depend on the set of the ids alone. -/
theorem Session.search_views {s : Store} (ho : s.InIdOrder) (ids : List Int) :
    ∃ m, Session.search ⟨s, true⟩ ids = .ok m ∧ m.Views s ids ∧
      ∀ others, (∀ id, id ∈ others ↔ id ∈ ids) →
        ∃ n, Session.search ⟨s, true⟩ others = .ok n ∧ n.columns = m.columns := by
  have hopen (is : List Int) : Session.search ⟨s, true⟩ is = .ok (s.search is) := by
    simp [Session.search, Session.query]
  exact ⟨s.search ids, hopen ids, Store.views_search ho ids, fun others hsame =>
    ⟨s.search others, hopen others, s.columns_search_congr hsame⟩⟩

/-- The first assessment has two definitions of the shape of the one that the second has, and a
value of the second is stored for the later of them. The last definition belongs to no
assessment. -/
def sharedShapeStore : Store :=
  let text (id : Int) (ownerType : String) (owner : Int) (title : String) : Definition :=
    ⟨id, ownerType, some owner, title, "Text", false, none, some "a,b", none⟩
  { Store.empty with
    assessments :=
      [⟨1, "A-1", "One", "Not Started", "Control", none, none⟩,
        ⟨2, "A-2", "Two", "In Progress", "Objective", none, none⟩,
        ⟨3, "A-3", "Three", "Completed", "Control", none, none⟩]
    definitions := [text 10 "assessment" 1 "Note", text 11 "assessment" 2 "Note",
      text 12 "assessment" 1 "Note", text 13 "assessment" 1 "Owner", text 14 "control" 2 "Type"]
    values := [⟨20, 10, 1, some "old", none, none⟩, ⟨21, 12, 2, some "other", none, none⟩,
      ⟨22, 12, 1, some "new", some 4, some true⟩]
    evidence := [⟨30, 2, "URL", "http://x", none⟩, ⟨31, 2, "FILE", "f", some "f"⟩,
      ⟨32, 2, "URL", "http://y", none⟩, ⟨33, 1, "FILE", "f", some "f"⟩] }

/-- Of the two definitions of one shape the later one counts, with the value of its own
assessment; links and files are counted apart. -/
theorem sharedShapeStore_search_views :
    sharedShapeStore.InIdOrder ∧
      ∃ m, Session.search ⟨sharedShapeStore, true⟩ [2, 9, 1, 2] = .ok m ∧
        m.Views sharedShapeStore [2, 9, 1, 2] ∧
        (∀ others, (∀ id, id ∈ others ↔ id ∈ [2, 9, 1, 2]) →
          ∃ n, Session.search ⟨sharedShapeStore, true⟩ others = .ok n ∧ n.columns = m.columns) ∧
        m.summaries =
          [(2, some ⟨"Objective", 2, "A-2", "Two", "In Progress", 2, 1⟩), (9, none),
            (1, some ⟨"Control", 1, "A-1", "One", "Not Started", 0, 1⟩)] ∧
        m.columns =
          [(⟨"Note", "Text", false, none, some "a,b", none⟩,
              [(1, ⟨some "new", some 4, some true, 1, 12, some "a,b", none⟩),
                (2, ⟨none, none, none, 2, 11, some "a,b", none⟩)]),
            (⟨"Owner", "Text", false, none, some "a,b", none⟩,
              [(1, ⟨none, none, none, 1, 13, some "a,b", none⟩)])] := by
  have ho : sharedShapeStore.InIdOrder := ⟨by decide, by decide⟩
  obtain ⟨m, hm, hviews, hsame⟩ := Session.search_views ho [2, 9, 1, 2]
  have hmatrix : m = sharedShapeStore.search [2, 9, 1, 2] := (Except.ok.inj hm).symm
  refine ⟨ho, m, hm, hviews, hsame, ?_, ?_⟩ <;> rw [hmatrix] <;> decide

end BulkAssessment
