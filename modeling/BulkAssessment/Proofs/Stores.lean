import BulkAssessment.Proofs.Rejections
import BulkAssessment.Proofs.Verification

/-!
# What is written to a store

Whatever is done to a store is done by *writes* (`Store.Writes`): a row that its table admits is
inserted, a value is overwritten or removed, an assessment moves on, or a row is deleted with what
refers to it. The rows of an import write values, evidence, comments and states alone
(`Store.Edits`).

An insertion that is not refused is a single write, and a batch, even one that fails part-way, is a
chain of them (`Store.leads_insertBatch`). A row of an import is a chain of edits
(`Store.edits_afterRow`). So what every write keeps is kept by batches, by imports and by
operations.
-/

namespace BulkAssessment

theorem bind_eq_ok {ε α β : Type} {r : Except ε α} {f : α → Except ε β} {y : β}
    (h : r >>= f = .ok y) : ∃ x, r = .ok x ∧ f x = .ok y := by
  cases r with
  | error e => cases h
  | ok x => exact ⟨x, rfl, h⟩

/-- What every step of a loop keeps that may fail, the loop keeps. -/
theorem foldlM_keeps {ε α β : Type} {g : β → α → Except ε β} {P : β → Prop} {as : List α}
    (hstep : ∀ b c, ∀ a ∈ as, P b → g b a = .ok c → P c) {b c : β} (hb : P b)
    (h : as.foldlM g b = .ok c) : P c := by
  induction as generalizing b with
  | nil =>
    obtain rfl := Except.ok.inj h
    exact hb
  | cons a as ih =>
    rw [List.foldlM_cons] at h
    obtain ⟨m, hm, h⟩ := bind_eq_ok h
    have hmid := hstep b m a List.mem_cons_self hb hm
    exact ih (fun b c a ha => hstep b c a (List.mem_cons_of_mem _ ha)) hmid h

theorem of_require_eq_ok {holds : Bool} {v : Violation} {u : Unit}
    (h : require holds v = .ok u) : holds = true := by
  cases holds with
  | false => cases h
  | true => rfl

/-- The definition and the object of a value. -/
def StoredValue.key (v : StoredValue) : Int × Int := (v.definitionId, v.objectId)

namespace Store

/-- One thing that the row of an import does. -/
inductive Edits (s : Store) : Store → Prop where
  | value (v : StoredValue) (hid : ∀ w ∈ s.values, w.id ≠ v.id)
      (hkey : ∀ w ∈ s.values, w.key ≠ v.key) (hd : s.hasDefinition v.definitionId = true) :
      s.Edits { s with values := insertById StoredValue.id v s.values }
  | overwrite (definitionId objectId : Int) (value : Option String) (personId : Option Int) :
      s.Edits { s with
        values := s.values.map fun v =>
          if v.isOf definitionId objectId then { v with value := value, personId := personId }
          else v }
  | remove (definitionId objectId : Int) : s.Edits (s.removeValue definitionId objectId)
  | evidence (e : Evidence) (hid : ∀ f ∈ s.evidence, f.id ≠ e.id) (hkind : e.kind ∈ evidenceKinds)
      (ha : s.hasAssessment e.assessmentId = true) :
      s.Edits { s with evidence := s.evidence ++ [e] }
  | comment (c : Comment) (hid : ∀ b ∈ s.comments, b.id ≠ c.id)
      (ha : s.hasAssessment c.assessmentId = true)
      (hd : ∀ id, c.definitionId = some id → s.hasDefinition id = true) :
      s.Edits { s with comments := s.comments ++ [c] }
  | transit (id : Int) (u : Transition) : s.Edits (s.transit id u)

/-- One thing that can be done to a store at all. -/
inductive Writes (s : Store) : Store → Prop where
  | edit {t : Store} (h : s.Edits t) : s.Writes t
  | person (p : Person) (hid : ∀ q ∈ s.people, q.id ≠ p.id)
      (hemail : ∀ q ∈ s.people, q.email ≠ p.email) :
      s.Writes { s with people := insertById Person.id p s.people }
  | assessment (a : Assessment) (hid : ∀ b ∈ s.assessments, b.id ≠ a.id)
      (hslug : ∀ b ∈ s.assessments, b.slug ≠ a.slug) :
      s.Writes { s with assessments := insertById Assessment.id a s.assessments }
  | role (r : Role) (hnew : r ∉ s.roles) (ha : s.hasAssessment r.assessmentId = true)
      (hp : s.hasPerson r.personId = true) : s.Writes { s with roles := s.roles ++ [r] }
  | definition (d : Definition) (hid : ∀ c ∈ s.definitions, c.id ≠ d.id) :
      s.Writes { s with definitions := insertById Definition.id d s.definitions }
  | delete (table : Table) (id : Int) : s.Writes (s.delete table id).1

/-- A store is made into another by any number of writes. -/
abbrev Leads : Store → Store → Prop := Relation.ReflTransGen Writes

end Store

/-! ## New ids -/

/-- Of the first numbers, one more than there are ids, one is vacant. -/
theorem vacantId_not_mem (ids : List Int) : vacantId ids ∉ ids := by
  unfold vacantId
  cases hf : ((List.range (ids.length + 1)).map fun n : Nat => (n : Int) + 1).find? fun n =>
      !ids.contains n with
  | some n => simpa using List.find?_some hf
  | none =>
    have hnodup : ((List.range (ids.length + 1)).map fun n : Nat => (n : Int) + 1).Nodup :=
      List.Nodup.map (fun m n h => by omega) List.nodup_range
    have htaken : ((List.range (ids.length + 1)).map fun n : Nat => (n : Int) + 1) ⊆ ids :=
      fun n hn => by simpa using List.find?_eq_none.1 hf n hn
    have hlength := (hnodup.subperm htaken).length_le
    rw [List.length_map, List.length_range] at hlength
    omega

/-- A row without an id gets one that is not taken. -/
theorem freshId_not_mem (ids : List Int) : freshId ids ∉ ids := by
  unfold freshId
  split
  · rename_i hnone
    rw [List.max?_eq_none_iff.1 hnone]
    exact List.not_mem_nil
  · rename_i m hmax
    split
    · intro hmem
      have hle := (List.max?_eq_some_iff.1 hmax).2 _ hmem
      omega
    · exact vacantId_not_mem ids

theorem ne_freshId {α : Type} {id : α → Int} {rows : List α} {x : α} (hx : x ∈ rows) :
    id x ≠ freshId (rows.map id) := by
  intro h
  exact freshId_not_mem (rows.map id) (h ▸ List.mem_map_of_mem hx)

/-! ## Insertions -/

namespace Store

variable {s t : Store}

theorem writes_insertPerson {p : NewPerson} (h : s.insertPerson p = .ok t) : s.Writes t := by
  unfold Store.insertPerson at h
  obtain ⟨email, -, h⟩ := bind_eq_ok h
  obtain ⟨_, hid, h⟩ := bind_eq_ok h
  obtain ⟨_, hemail, h⟩ := bind_eq_ok h
  have hid := of_require_eq_ok hid
  have hemail := of_require_eq_ok hemail
  simp only [hasPerson, Bool.not_eq_true', List.any_eq_false, beq_iff_eq] at hid hemail
  obtain rfl := Except.ok.inj h
  exact .person _ hid hemail

theorem writes_insertAssessment {a : NewAssessment} (h : s.insertAssessment a = .ok t) :
    s.Writes t := by
  unfold Store.insertAssessment at h
  obtain ⟨slug, -, h⟩ := bind_eq_ok h
  obtain ⟨title, -, h⟩ := bind_eq_ok h
  obtain ⟨status, -, h⟩ := bind_eq_ok h
  obtain ⟨assessmentType, -, h⟩ := bind_eq_ok h
  obtain ⟨_, hid, h⟩ := bind_eq_ok h
  obtain ⟨_, hslug, h⟩ := bind_eq_ok h
  have hid := of_require_eq_ok hid
  have hslug := of_require_eq_ok hslug
  simp only [hasAssessment, Bool.not_eq_true', List.any_eq_false, beq_iff_eq] at hid hslug
  obtain rfl := Except.ok.inj h
  exact .assessment _ hid hslug

theorem writes_insertRole {r : NewRole} (h : s.insertRole r = .ok t) : s.Writes t := by
  unfold Store.insertRole at h
  obtain ⟨assessmentId, -, h⟩ := bind_eq_ok h
  obtain ⟨personId, -, h⟩ := bind_eq_ok h
  obtain ⟨name, -, h⟩ := bind_eq_ok h
  obtain ⟨_, hnew, h⟩ := bind_eq_ok h
  obtain ⟨_, hrefs, h⟩ := bind_eq_ok h
  obtain ⟨ha, hp⟩ := (Bool.and_eq_true _ _).mp (of_require_eq_ok hrefs)
  obtain rfl := Except.ok.inj h
  exact .role _ (by simpa using of_require_eq_ok hnew) ha hp

theorem writes_insertDefinition {d : NewDefinition} (h : s.insertDefinition d = .ok t) :
    s.Writes t := by
  unfold Store.insertDefinition at h
  obtain ⟨ownerType, -, h⟩ := bind_eq_ok h
  obtain ⟨title, -, h⟩ := bind_eq_ok h
  obtain ⟨typeName, -, h⟩ := bind_eq_ok h
  obtain ⟨mandatory, -, h⟩ := bind_eq_ok h
  obtain ⟨_, hid, h⟩ := bind_eq_ok h
  have hid := of_require_eq_ok hid
  simp only [hasDefinition, Bool.not_eq_true', List.any_eq_false, beq_iff_eq] at hid
  obtain rfl := Except.ok.inj h
  exact .definition _ hid

theorem edits_insertValue {v : NewValue} (h : s.insertValue v = .ok t) : s.Edits t := by
  unfold Store.insertValue at h
  obtain ⟨definitionId, -, h⟩ := bind_eq_ok h
  obtain ⟨objectId, -, h⟩ := bind_eq_ok h
  obtain ⟨_, hkey, h⟩ := bind_eq_ok h
  obtain ⟨_, hd, h⟩ := bind_eq_ok h
  have hkey := of_require_eq_ok hkey
  simp only [Bool.not_eq_true', List.any_eq_false, Bool.and_eq_true, beq_iff_eq] at hkey
  obtain rfl := Except.ok.inj h
  exact .value _ (fun _ hw => ne_freshId hw)
    (fun w hw hsame => hkey w hw (Prod.mk.inj hsame)) (of_require_eq_ok hd)

theorem edits_insertEvidence {e : NewEvidence} {n : Int} (h : s.insertEvidence e = .ok (t, n)) :
    s.Edits t := by
  unfold Store.insertEvidence at h
  obtain ⟨assessmentId, -, h⟩ := bind_eq_ok h
  obtain ⟨kind, -, h⟩ := bind_eq_ok h
  obtain ⟨link, -, h⟩ := bind_eq_ok h
  obtain ⟨_, hkind, h⟩ := bind_eq_ok h
  obtain ⟨_, ha, h⟩ := bind_eq_ok h
  obtain ⟨rfl, -⟩ := Prod.mk.inj (Except.ok.inj h)
  exact .evidence _ (fun _ hf => ne_freshId hf)
    (List.contains_iff_mem.1 (of_require_eq_ok hkind)) (of_require_eq_ok ha)

theorem edits_insertComment {c : NewComment} {n : Int} (h : s.insertComment c = .ok (t, n)) :
    s.Edits t := by
  unfold Store.insertComment at h
  obtain ⟨assessmentId, -, h⟩ := bind_eq_ok h
  obtain ⟨description, -, h⟩ := bind_eq_ok h
  obtain ⟨_, hrefs, h⟩ := bind_eq_ok h
  obtain ⟨ha, hd⟩ := (Bool.and_eq_true _ _).mp (of_require_eq_ok hrefs)
  obtain ⟨rfl, -⟩ := Prod.mk.inj (Except.ok.inj h)
  refine .comment _ (fun _ hb => ne_freshId hb) ha fun id hid => ?_
  dsimp only at hid
  rw [hid] at hd
  exact hd

/-- Setting a value overwrites the one that is there, or inserts one. -/
theorem edits_setValue {definitionId objectId : Int} {value : Option String}
    {personId : Option Int} (h : s.setValue definitionId objectId value personId = .ok t) :
    s.Edits t := by
  unfold setValue at h
  split at h
  · obtain rfl := Except.ok.inj h
    exact .overwrite definitionId objectId value personId
  · exact edits_insertValue h

/-! ## Batches -/

theorem leads_insertAll {α : Type} {insert : Store → α → Except Violation Store}
    (hinsert : ∀ {s t : Store} {x : α}, insert s x = .ok t → s.Writes t) (s : Store)
    (xs : List α) : s.Leads (insertAll insert s xs).1 := by
  induction xs generalizing s with
  | nil => exact .refl
  | cons x xs ih =>
    unfold Store.insertAll
    cases hx : insert s x with
    | error v => exact .refl
    | ok t => exact .head (hinsert hx) (ih t)

theorem leads_andThen {r : Store × Option Violation} (hr : s.Leads r.1)
    {next : Store → Store × Option Violation} (hnext : ∀ s : Store, s.Leads (next s).1) :
    s.Leads (andThen r next).1 := by
  obtain ⟨t, v⟩ := r
  cases v with
  | none => exact hr.trans (hnext t)
  | some v => exact hr

/-- A batch writes row after row, wherever it stops. -/
theorem leads_insertBatch (s : Store) (batch : Batch) : s.Leads (s.insertBatch batch).1 := by
  unfold Store.insertBatch
  refine leads_andThen (leads_insertAll writes_insertPerson s _) fun s => ?_
  refine leads_andThen (leads_insertAll writes_insertAssessment s _) fun s => ?_
  refine leads_andThen (leads_insertAll writes_insertRole s _) fun s => ?_
  refine leads_andThen (leads_insertAll writes_insertDefinition s _) fun s => ?_
  refine leads_andThen (leads_insertAll (fun h => .edit (edits_insertValue h)) s _) fun s => ?_
  refine leads_andThen (leads_insertAll (fun h => ?_) s _) fun s => ?_
  · obtain ⟨r, hr, rfl⟩ := map_eq_ok h
    exact .edit (edits_insertEvidence hr)
  · refine leads_insertAll (fun h => ?_) s _
    obtain ⟨r, hr, rfl⟩ := map_eq_ok h
    exact .edit (edits_insertComment hr)

end Store

/-! ## Rows of imports -/

namespace Progress

variable {p q : Progress} {id : Int}

theorem edits_applyCell {title raw : String} (h : p.applyCell id title raw = .ok q) :
    q.store = p.store ∨ p.store.Edits q.store := by
  unfold applyCell at h
  split at h
  · obtain rfl := Except.ok.inj h
    exact .inl rfl
  · split at h
    · obtain rfl := Except.ok.inj h
      exact .inl rfl
    · unfold put at h
      dsimp only at h
      split at h
      · obtain rfl := Except.ok.inj h
        exact .inl rfl
      · obtain ⟨t, ht, h⟩ := bind_eq_ok h
        obtain rfl := Except.ok.inj h
        unfold Store.putCell at ht
        split at ht
        · obtain rfl := Except.ok.inj ht
          exact .inr (.remove _ _)
        · exact .inr (Store.edits_setValue ht)

theorem edits_attach {kind : EvidenceKind} {link : String} (h : p.attach id kind link = .ok q) :
    q.store = p.store ∨ p.store.Edits q.store := by
  unfold attach at h
  split at h
  · obtain rfl := Except.ok.inj h
    exact .inl rfl
  · obtain ⟨⟨t, n⟩, ht, h⟩ := bind_eq_ok h
    obtain rfl := Except.ok.inj h
    exact .inr (Store.edits_insertEvidence ht)

theorem edits_foldlM {α : Type} {f : Progress → α → Except Violation Progress}
    (hstep : ∀ {p q : Progress} {a : α}, f p a = .ok q →
      q.store = p.store ∨ p.store.Edits q.store)
    {as : List α} (h : as.foldlM f p = .ok q) :
    Relation.ReflTransGen Store.Edits p.store q.store := by
  refine foldlM_keeps (P := fun m => Relation.ReflTransGen Store.Edits p.store m.store)
    (fun m n a _ hm hn => ?_) .refl h
  rcases hstep hn with hsame | hedit
  · exact hsame ▸ hm
  · exact hm.tail hedit

end Progress

namespace Store

/-- Reopening is a move to another state, if anything. -/
theorem edits_reopen (p : Progress) (a : Assessment) :
    Relation.ReflTransGen Edits p.store (reopen p a) := by
  unfold reopen
  split
  · exact .single (.transit a.id _)
  · exact .refl

/-- The row of an import is a chain of edits. -/
theorem edits_afterRow (s : Store) (today : Date) (task : Task) :
    Relation.ReflTransGen Edits s (s.afterRow today task) := by
  obtain ⟨layout, row⟩ := task
  unfold afterRow
  cases h : s.applyRow today row layout with
  | error e => exact .refl
  | ok p =>
    obtain ⟨t, warned⟩ := p
    show Relation.ReflTransGen Edits s t
    cases layout with
    | attributes l =>
      unfold applyRow applyAttributes at h
      obtain ⟨a, -, h⟩ := bind_eq_ok h
      obtain ⟨p, hp, h⟩ := bind_eq_ok h
      obtain ⟨q, hq, h⟩ := bind_eq_ok h
      obtain ⟨rfl, -⟩ := Prod.mk.inj (Except.ok.inj h)
      have hcells : Relation.ReflTransGen Edits s p.store :=
        Progress.edits_foldlM Progress.edits_applyCell (eq_ok_of_asRejection hp)
      obtain ⟨m, hurls, hfiles⟩ := bind_eq_ok (eq_ok_of_asRejection hq)
      have hevidence : Relation.ReflTransGen Edits p.store q.store :=
        (Progress.edits_foldlM Progress.edits_attach hurls).trans
          (Progress.edits_foldlM Progress.edits_attach hfiles)
      exact (hcells.trans hevidence).trans (edits_reopen q a)
    | state l =>
      obtain ⟨u, hu, he⟩ := map_eq_ok h
      obtain ⟨rfl, -⟩ := Prod.mk.inj he
      obtain ⟨id, transition, rfl⟩ := applyState_eq_ok hu
      exact .single (.transit id transition)
    | comment l =>
      obtain ⟨u, hu, he⟩ := map_eq_ok h
      obtain ⟨rfl, -⟩ := Prod.mk.inj he
      obtain ⟨c, ⟨u, n⟩, hr, rfl⟩ := exists_insertComment hu
      exact .single (edits_insertComment hr)

theorem leads_foldl (today : Date) (tasks : List Task) (s : Store) :
    s.Leads (tasks.foldl (afterRow today) s) := by
  induction tasks generalizing s with
  | nil => exact .refl
  | cons task tasks ih =>
    have hrow : s.Leads (s.afterRow today task) :=
      Relation.ReflTransGen.mono (fun _ _ h => .edit h) _ _ (s.edits_afterRow today task)
    exact hrow.trans (ih _)

end Store

end BulkAssessment
