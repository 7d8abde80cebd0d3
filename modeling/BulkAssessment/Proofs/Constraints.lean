import BulkAssessment.Proofs.History

/-!
# The constraints of the schema

The tables hold what the schema declares: ids, emails and slugs are unique, a definition has one
value on an object and a person is in a role of an assessment once, evidence is a link or a file,
and what a row refers to exists (`Store.Consistent`). No foreign key ties a definition to its owner
or a value to its object, and nothing is said about those.

Every write keeps the constraints, one case for each kind of write (`Store.Edits.consistent`,
`Store.Writes.consistent`). What is done to a store from outside (`Change`) is a chain of writes
(`Store.leads_change`), so every store that comes about from the empty one is consistent
(`Store.consistent_changes`), and its tables are in the order of the ids
(`Store.inIdOrder_changes`).
-/

namespace BulkAssessment

/-- What the schema declares holds of the tables. -/
structure Store.Consistent (s : Store) : Prop extends s.Keyed where
  personIds : (s.people.map Person.id).Nodup
  emails : (s.people.map Person.email).Nodup
  /-- A role is an assessment, a person and the name of the role. -/
  roles : s.roles.Nodup
  valueIds : (s.values.map StoredValue.id).Nodup
  valueKeys : (s.values.map StoredValue.key).Nodup
  evidenceIds : (s.evidence.map Evidence.id).Nodup
  commentIds : (s.comments.map Comment.id).Nodup
  evidenceKinds : ∀ e ∈ s.evidence, e.kind ∈ Store.evidenceKinds
  roleAssessments : ∀ r ∈ s.roles, s.hasAssessment r.assessmentId = true
  rolePeople : ∀ r ∈ s.roles, s.hasPerson r.personId = true
  valueDefinitions : ∀ v ∈ s.values, s.hasDefinition v.definitionId = true
  evidenceAssessments : ∀ e ∈ s.evidence, s.hasAssessment e.assessmentId = true
  commentAssessments : ∀ c ∈ s.comments, s.hasAssessment c.assessmentId = true
  commentDefinitions : ∀ c ∈ s.comments, ∀ id, c.definitionId = some id →
    s.hasDefinition id = true

/-- What is done to a store from outside. -/
inductive Change where
  | insert (batch : Store.Batch)
  | delete (table : Store.Table) (id : Int)
  | setValue (definitionId objectId : Int) (value : Option String) (personId : Option Int)
  | removeValue (definitionId objectId : Int)
  | act (action : Action)

/-- The store after a change. A batch is inserted up to the first row that is refused; a value that
is refused changes nothing. -/
def Store.change (s : Store) : Change → Store
  | .insert batch => (s.insertBatch batch).1
  | .delete table id => (s.delete table id).1
  | .setValue definitionId objectId value personId =>
    match s.setValue definitionId objectId value personId with
    | .ok t => t
    | .error _ => s
  | .removeValue definitionId objectId => s.removeValue definitionId objectId
  | .act action => s.act action

/-! ## Rows in the order of their ids -/

theorem perm_insertById {α : Type} (key : α → Int) (x : α) (rows : List α) :
    (insertById key x rows).Perm (x :: rows) := by
  induction rows with
  | nil => exact .refl _
  | cons y ys ih =>
    unfold insertById
    split
    · exact .refl _
    · exact (ih.cons y).trans (.swap x y ys)

theorem nodup_insertById {α κ : Type} {f : α → κ} {rows : List α} (h : (rows.map f).Nodup)
    {x : α} (hx : ∀ y ∈ rows, f y ≠ f x) (key : α → Int) :
    ((insertById key x rows).map f).Nodup := by
  rw [((perm_insertById key x rows).map f).nodup_iff, List.map_cons, List.nodup_cons]
  refine ⟨fun hmem => ?_, h⟩
  obtain ⟨y, hy, hxy⟩ := List.mem_map.1 hmem
  exact hx y hy hxy

/-- A row with a new id comes between those with smaller and those with greater ids. -/
theorem pairwise_insertById {α : Type} {key : α → Int} {rows : List α}
    (h : rows.Pairwise fun x y => key x < key y) {x : α} (hx : ∀ y ∈ rows, key y ≠ key x) :
    (insertById key x rows).Pairwise fun x y => key x < key y := by
  induction rows with
  | nil => exact List.pairwise_singleton _ _
  | cons y ys ih =>
    obtain ⟨hy, hys⟩ := List.pairwise_cons.1 h
    unfold insertById
    split
    · rename_i hlt
      refine List.pairwise_cons.2 ⟨fun z hz => ?_, h⟩
      rcases List.mem_cons.1 hz with rfl | hz
      · exact hlt
      · exact Int.lt_trans hlt (hy z hz)
    · rename_i hge
      have hne := hx y List.mem_cons_self
      refine List.pairwise_cons.2 ⟨fun z hz => ?_, ih hys fun z hz => hx z (.tail _ hz)⟩
      rcases List.mem_cons.1 ((perm_insertById key x ys).mem_iff.1 hz) with rfl | hz
      · omega
      · exact hy z hz

theorem forall_insertById {α : Type} {key : α → Int} {rows : List α} {x : α} {P : α → Prop}
    (h : ∀ y ∈ rows, P y) (hx : P x) : ∀ y ∈ insertById key x rows, P y := by
  intro y hy
  rcases List.mem_cons.1 ((perm_insertById key x rows).mem_iff.1 hy) with rfl | hy
  · exact hx
  · exact h y hy

theorem any_insertById {α : Type} {key : α → Int} {rows : List α} {x : α} {p : α → Bool}
    (h : rows.any p = true) : (insertById key x rows).any p = true := by
  obtain ⟨y, hy, hp⟩ := List.any_eq_true.1 h
  exact List.any_eq_true.2 ⟨y, (perm_insertById key x rows).mem_iff.2 (.tail _ hy), hp⟩

theorem nodup_map_concat {α κ : Type} {f : α → κ} {rows : List α} (h : (rows.map f).Nodup)
    {x : α} (hx : ∀ y ∈ rows, f y ≠ f x) : ((rows ++ [x]).map f).Nodup := by
  rw [List.map_append, List.map_singleton, ← List.concat_eq_append]
  refine h.concat fun hmem => ?_
  obtain ⟨y, hy, hxy⟩ := List.mem_map.1 hmem
  exact hx y hy hxy

theorem forall_concat {α : Type} {rows : List α} {x : α} {P : α → Prop} (h : ∀ y ∈ rows, P y)
    (hx : P x) : ∀ y ∈ rows ++ [x], P y :=
  List.forall_mem_append.2 ⟨h, List.forall_mem_singleton.2 hx⟩

/-- Rows that are changed in other respects keep their keys. -/
theorem nodup_map_map {α κ : Type} {f : α → κ} {g : α → α} {rows : List α}
    (h : (rows.map f).Nodup) (hg : ∀ x, f (g x) = f x) : ((rows.map g).map f).Nodup := by
  have hkept : f ∘ g = f := funext hg
  rwa [List.map_map, hkept]

theorem nodup_map_filter {α κ : Type} {f : α → κ} {rows : List α} (h : (rows.map f).Nodup)
    (p : α → Bool) : ((rows.filter p).map f).Nodup :=
  h.sublist (List.filter_sublist.map f)

theorem forall_filter {α : Type} {rows : List α} {P : α → Prop} (h : ∀ x ∈ rows, P x)
    (p : α → Bool) : ∀ x ∈ rows.filter p, P x :=
  fun x hx => h x (List.mem_filter.1 hx).1

namespace Store

variable {s t : Store}

/-! ## What writes keep -/

theorem hasAssessment_transit (s : Store) (id other : Int) (u : Transition) :
    (s.transit id u).hasAssessment other = s.hasAssessment other := by
  rw [hasAssessment, hasAssessment, transit, List.any_map]
  congr 1
  funext a
  dsimp only [Function.comp_apply]
  split <;> rfl

theorem Edits.consistent (h : s.Edits t) (hs : s.Consistent) : t.Consistent := by
  cases h with
  | value v hid hkey hd =>
    exact { hs with
      valueIds := nodup_insertById hs.valueIds hid _
      valueKeys := nodup_insertById hs.valueKeys hkey _
      valueDefinitions := forall_insertById hs.valueDefinitions hd }
  | overwrite d o value personId =>
    refine { hs with
      valueIds := nodup_map_map hs.valueIds fun v => by split <;> rfl
      valueKeys := nodup_map_map hs.valueKeys fun v => by split <;> rfl
      valueDefinitions := List.forall_mem_map.2 fun v hv => ?_ }
    split <;> exact hs.valueDefinitions v hv
  | remove d o =>
    exact { hs with
      valueIds := nodup_map_filter hs.valueIds _
      valueKeys := nodup_map_filter hs.valueKeys _
      valueDefinitions := forall_filter hs.valueDefinitions _ }
  | evidence e hid hkind ha =>
    exact { hs with
      evidenceIds := nodup_map_concat hs.evidenceIds hid
      evidenceKinds := forall_concat hs.evidenceKinds hkind
      evidenceAssessments := forall_concat hs.evidenceAssessments ha }
  | comment c hid ha hd =>
    exact { hs with
      commentIds := nodup_map_concat hs.commentIds hid
      commentAssessments := forall_concat hs.commentAssessments ha
      commentDefinitions := forall_concat hs.commentDefinitions hd }
  | transit id u =>
    have hkept (i : Int) (hi : s.hasAssessment i = true) :
        (s.transit id u).hasAssessment i = true := (s.hasAssessment_transit id i u).trans hi
    exact { hs with
      assessmentIds := nodup_map_map hs.assessmentIds fun a => by split <;> rfl
      slugs := nodup_map_map hs.slugs fun a => by split <;> rfl
      roleAssessments := fun r hr => hkept _ (hs.roleAssessments r hr)
      evidenceAssessments := fun e he => hkept _ (hs.evidenceAssessments e he)
      commentAssessments := fun c hc => hkept _ (hs.commentAssessments c hc) }

theorem any_filter_key {α : Type} {key : α → Int} {rows : List α} {id other : Int}
    (h : (rows.any fun x => key x == other) = true) (hne : (other != id) = true) :
    ((rows.filter fun x => key x != id).any fun x => key x == other) = true := by
  obtain ⟨x, hx, hkey⟩ := List.any_eq_true.1 h
  obtain rfl : key x = other := by simpa using hkey
  exact List.any_eq_true.2 ⟨x, List.mem_filter.2 ⟨hx, hne⟩, hkey⟩

/-- A deletion takes what refers to the row along. -/
theorem Consistent.delete (hs : s.Consistent) (table : Table) (id : Int) :
    (s.delete table id).1.Consistent := by
  cases table with
  | assessments =>
    -- what is left refers to other assessments
    have hkept {α : Type} {rows : List α} {owner : α → Int}
        (h : ∀ x ∈ rows, s.hasAssessment (owner x) = true) :
        ∀ x ∈ rows.filter fun x => owner x != id,
          (s.deleteAssessment id).hasAssessment (owner x) = true := fun x hx =>
      any_filter_key (h x (List.mem_filter.1 hx).1) (List.mem_filter.1 hx).2
    exact { hs with
      assessmentIds := nodup_map_filter hs.assessmentIds _
      slugs := nodup_map_filter hs.slugs _
      roles := hs.roles.filter _
      evidenceIds := nodup_map_filter hs.evidenceIds _
      commentIds := nodup_map_filter hs.commentIds _
      evidenceKinds := forall_filter hs.evidenceKinds _
      rolePeople := forall_filter hs.rolePeople _
      commentDefinitions := forall_filter hs.commentDefinitions _
      roleAssessments := hkept hs.roleAssessments
      evidenceAssessments := hkept hs.evidenceAssessments
      commentAssessments := hkept hs.commentAssessments }
  | people =>
    exact { hs with
      personIds := nodup_map_filter hs.personIds _
      emails := nodup_map_filter hs.emails _
      roles := hs.roles.filter _
      roleAssessments := forall_filter hs.roleAssessments _
      rolePeople := fun r hr =>
        any_filter_key (hs.rolePeople r (List.mem_filter.1 hr).1) (List.mem_filter.1 hr).2 }
  | definitions =>
    refine { hs with
      definitionIds := nodup_map_filter hs.definitionIds _
      valueIds := nodup_map_filter hs.valueIds _
      valueKeys := nodup_map_filter hs.valueKeys _
      valueDefinitions := fun v hv =>
        any_filter_key (hs.valueDefinitions v (List.mem_filter.1 hv).1) (List.mem_filter.1 hv).2
      commentIds := nodup_map_map hs.commentIds fun c => by split <;> rfl
      commentAssessments := List.forall_mem_map.2 fun c hc => ?_
      commentDefinitions := List.forall_mem_map.2 fun c hc other hother => ?_ }
    · split <;> exact hs.commentAssessments c hc
    · split at hother
      · cases hother
      · rename_i hne
        have hdiffers : other ≠ id := fun h => hne (h ▸ hother)
        exact any_filter_key (hs.commentDefinitions c hc other hother) (by simpa using hdiffers)

theorem Writes.consistent (h : s.Writes t) (hs : s.Consistent) : t.Consistent := by
  cases h with
  | edit h => exact h.consistent hs
  | person p hid hemail =>
    exact { hs with
      personIds := nodup_insertById hs.personIds hid _
      emails := nodup_insertById hs.emails hemail _
      rolePeople := fun r hr => any_insertById (hs.rolePeople r hr) }
  | assessment a hid hslug =>
    exact { hs with
      assessmentIds := nodup_insertById hs.assessmentIds hid _
      slugs := nodup_insertById hs.slugs hslug _
      roleAssessments := fun r hr => any_insertById (hs.roleAssessments r hr)
      evidenceAssessments := fun e he => any_insertById (hs.evidenceAssessments e he)
      commentAssessments := fun c hc => any_insertById (hs.commentAssessments c hc) }
  | role r hnew ha hp =>
    exact { hs with
      roles := by
        rw [← List.concat_eq_append]
        exact hs.roles.concat hnew
      roleAssessments := forall_concat hs.roleAssessments ha
      rolePeople := forall_concat hs.rolePeople hp }
  | definition d hid =>
    exact { hs with
      definitionIds := nodup_insertById hs.definitionIds hid _
      valueDefinitions := fun v hv => any_insertById (hs.valueDefinitions v hv)
      commentDefinitions := fun c hc id h => any_insertById (hs.commentDefinitions c hc id h) }
  | delete table id => exact hs.delete table id

theorem Writes.inIdOrder (h : s.Writes t) (ho : s.InIdOrder) : t.InIdOrder := by
  cases h with
  | edit h =>
    cases h with
    | transit id u =>
      refine ⟨List.pairwise_map.2 (ho.assessments.imp fun hlt => ?_), ho.definitions⟩
      split <;> split <;> exact hlt
    | _ => exact ⟨ho.assessments, ho.definitions⟩
  | assessment a hid _ => exact ⟨pairwise_insertById ho.assessments hid, ho.definitions⟩
  | definition d hid => exact ⟨ho.assessments, pairwise_insertById ho.definitions hid⟩
  | delete table id =>
    cases table with
    | assessments => exact ⟨ho.assessments.filter _, ho.definitions⟩
    | people => exact ⟨ho.assessments, ho.definitions⟩
    | definitions => exact ⟨ho.assessments, ho.definitions.filter _⟩
  | _ => exact ⟨ho.assessments, ho.definitions⟩

/-! ## Changes -/

/-- What every write keeps, a chain of writes keeps. -/
theorem Leads.keeps {P : Store → Prop} (hstep : ∀ {s t : Store}, s.Writes t → P s → P t)
    (h : s.Leads t) (hs : P s) : P t := by
  induction h with
  | refl => exact hs
  | tail _ hwrite ih => exact hstep hwrite ih

/-- A change is a chain of writes, whatever becomes of it. -/
theorem leads_change (s : Store) (change : Change) : s.Leads (s.change change) := by
  cases change with
  | insert batch => exact s.leads_insertBatch batch
  | delete table id => exact .single (.delete table id)
  | setValue definitionId objectId value personId =>
    show s.Leads (match s.setValue definitionId objectId value personId with
      | .ok t => t
      | .error _ => s)
    split
    · rename_i t ht
      exact .single (.edit (edits_setValue ht))
    · exact .refl
  | removeValue definitionId objectId => exact .single (.edit (.remove definitionId objectId))
  | act action =>
    show s.Leads (s.act action)
    rw [act_eq]
    exact leads_foldl action.today _ s

theorem leads_changes (s : Store) (changes : List Change) : s.Leads (changes.foldl change s) := by
  induction changes generalizing s with
  | nil => exact .refl
  | cons c changes ih => exact (s.leads_change c).trans (ih _)

theorem consistent_empty : Store.empty.Consistent := by
  have hnone {α : Type} (P : α → Prop) : ∀ x ∈ ([] : List α), P x := List.forall_mem_nil P
  exact ⟨⟨.nil, .nil, .nil⟩, .nil, .nil, .nil, .nil, .nil, .nil, .nil, hnone _, hnone _, hnone _,
    hnone _, hnone _, hnone _, hnone _⟩

/-- The tables of every store that comes about are in the order of the ids. -/
theorem inIdOrder_changes (changes : List Change) :
    (changes.foldl change Store.empty).InIdOrder :=
  (leads_changes _ changes).keeps Writes.inIdOrder ⟨.nil, .nil⟩

end Store

/-- Every store that comes about from the empty one satisfies the constraints of the schema,
whatever is inserted, deleted, set, imported or operated on, and whatever of it fails. -/
theorem Store.consistent_changes (changes : List Change) :
    (changes.foldl Store.change Store.empty).Consistent :=
  (leads_changes _ changes).keeps Writes.consistent consistent_empty

end BulkAssessment
