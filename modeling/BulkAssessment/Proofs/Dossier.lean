import BulkAssessment.Proofs.Keys
import Mathlib.Logic.Function.Basic

/-!
# Dossiers

The dossier of an assessment is everything that rows of an import read and write about it:
its own row, the value that it holds for each definition, and its evidence in the order of
insertion. The ids of value rows and of evidence are left out (`unnumbered`), for they
depend on the whole table.

Each change of the store concerns a single dossier. `Store.Amends s t id x` says that `t`
is `s` with `x` for the dossier of `id`; there is one lemma of that form for a transition,
for a value that is set or removed, and for evidence that is attached.
-/

namespace BulkAssessment

/-- A value without the id of its row. -/
def StoredValue.unnumbered (v : StoredValue) : StoredValue := { v with id := 0 }

/-- Evidence without the id of its row. -/
def Evidence.unnumbered (e : Evidence) : Evidence := { e with id := 0 }

/-- What the store holds about one assessment. -/
@[ext]
structure Dossier where
  assessment : Assessment
  /-- The value for each definition. -/
  held : Int → Option StoredValue
  evidence : List Evidence

namespace Dossier

/-- The dossier after a transition of its assessment. -/
def transit (x : Dossier) (t : Transition) : Dossier :=
  { x with assessment := x.assessment.after t }

/-- The dossier with another value for a definition. -/
def hold (x : Dossier) (definitionId : Int) (v : Option StoredValue) : Dossier :=
  { x with held := Function.update x.held definitionId v }

/-- A link as evidence of an assessment. -/
def exhibit (assessmentId : Int) (kind : EvidenceKind) (link : String) : Evidence :=
  ⟨0, assessmentId, kind.name, link,
    match kind with
    | .file => some link
    | .url => none⟩

/-- The dossier with a link attached. -/
def attach (x : Dossier) (kind : EvidenceKind) (link : String) : Dossier :=
  { x with evidence := x.evidence ++ [exhibit x.assessment.id kind link] }

end Dossier

namespace Store

/-- The values that an object holds, by definition. -/
def heldBy (s : Store) (objectId definitionId : Int) : Option StoredValue :=
  (s.value? definitionId objectId).map StoredValue.unnumbered

/-- The evidence of an assessment. -/
def evidenceOf (s : Store) (assessmentId : Int) : List Evidence :=
  (s.evidence.filter fun e => e.assessmentId == assessmentId).map Evidence.unnumbered

/-- The dossier of an assessment. -/
def dossier? (s : Store) (id : Int) : Option Dossier :=
  (s.assessment? id).map fun a => ⟨a, s.heldBy id, s.evidenceOf id⟩

/-- Two stores hold the same about one object. -/
structure SameOn (s t : Store) (id : Int) : Prop where
  assessment : t.assessment? id = s.assessment? id
  held : t.heldBy id = s.heldBy id
  evidence : t.evidenceOf id = s.evidenceOf id

/-- The second store is the first with another dossier for one assessment. -/
structure Amends (s t : Store) (id : Int) (x : Dossier) : Prop where
  frame : s.SameFrame t
  comments : t.comments = s.comments
  own : t.dossier? id = some x
  others : ∀ o ≠ id, s.SameOn t o

variable {s t u : Store} {id : Int} {x y : Dossier}

theorem SameOn.refl (s : Store) (id : Int) : s.SameOn s id := ⟨rfl, rfl, rfl⟩

theorem SameOn.trans (h : s.SameOn t id) (k : t.SameOn u id) : s.SameOn u id :=
  ⟨k.assessment.trans h.assessment, k.held.trans h.held, k.evidence.trans h.evidence⟩

theorem SameOn.dossier? (h : s.SameOn t id) : t.dossier? id = s.dossier? id := by
  rw [Store.dossier?, Store.dossier?, h.assessment, h.held, h.evidence]

theorem Amends.refl (h : s.dossier? id = some x) : s.Amends s id x :=
  ⟨.refl s, rfl, h, fun o _ => .refl s o⟩

theorem Amends.trans (h : s.Amends t id x) (k : t.Amends u id y) : s.Amends u id y :=
  ⟨h.frame.trans k.frame, k.comments.trans h.comments, k.own,
    fun o ho => (h.others o ho).trans (k.others o ho)⟩

theorem dossier?_eq_some_iff :
    s.dossier? id = some x ↔
      s.assessment? id = some x.assessment ∧ x.held = s.heldBy id ∧
        x.evidence = s.evidenceOf id := by
  obtain ⟨a, held, evidence⟩ := x
  simp only [Store.dossier?, Option.map_eq_some_iff, Dossier.mk.injEq]
  constructor
  · rintro ⟨_, ha, rfl, rfl, rfl⟩
    exact ⟨ha, rfl, rfl⟩
  · rintro ⟨ha, rfl, rfl⟩
    exact ⟨a, ha, rfl, rfl, rfl⟩

/-- The dossier of an assessment that is looked up. -/
theorem dossier?_of_assessment? {a : Assessment} (h : s.assessment? id = some a) :
    s.dossier? id = some ⟨a, s.heldBy id, s.evidenceOf id⟩ :=
  dossier?_eq_some_iff.2 ⟨h, rfl, rfl⟩

theorem id_of_dossier? (h : s.dossier? id = some x) : x.assessment.id = id :=
  (mem_of_assessment?_eq_some (dossier?_eq_some_iff.1 h).1).2

theorem mem_of_dossier? (h : s.dossier? id = some x) : x.assessment ∈ s.assessments :=
  (mem_of_assessment?_eq_some (dossier?_eq_some_iff.1 h).1).1

/-- In a store with unique ids every assessment has its dossier. -/
theorem Keyed.exists_dossier (hk : s.Keyed) {a : Assessment} (ha : a ∈ s.assessments) :
    ∃ x, s.dossier? a.id = some x ∧ x.assessment = a :=
  ⟨⟨a, s.heldBy a.id, s.evidenceOf a.id⟩,
    dossier?_eq_some_iff.2 ⟨hk.assessment?_eq_some_iff.2 ⟨ha, rfl⟩, rfl, rfl⟩, rfl⟩

/-! ## Transitions -/

theorem assessment?_transit (t : Transition) (id o : Int) :
    (s.transit id t).assessment? o =
      (s.assessment? o).map fun a => if a.id == id then a.after t else a := by
  simp only [assessment?, transit, List.find?_map]
  congr 2
  funext a
  simp only [Function.comp_apply]
  split <;> rfl

/-- A transition concerns the row of one assessment. -/
theorem amends_transit (h : s.dossier? id = some x) (t : Transition) :
    s.Amends (s.transit id t) id (x.transit t) where
  frame := sameFrame_of_map (f := fun a => if a.id == id then a.after t else a)
    (fun a => by split <;> rfl) rfl rfl rfl rfl
  comments := rfl
  own := by
    obtain ⟨ha, hh, he⟩ := dossier?_eq_some_iff.1 h
    have hid := id_of_dossier? h
    refine dossier?_eq_some_iff.2 ⟨?_, hh, he⟩
    rw [assessment?_transit, ha]
    simp [hid, Dossier.transit]
  others o ho := by
    refine ⟨?_, rfl, rfl⟩
    rw [assessment?_transit]
    cases ha : s.assessment? o with
    | none => rfl
    | some a =>
      have hid := (mem_of_assessment?_eq_some ha).2
      simp [hid, ho]

/-! ## Values -/

/-- A change of the table of values alone that leaves all objects but one as they are. -/
theorem amends_of_values {vs : List StoredValue} {h : Int → Option StoredValue}
    (hx : s.dossier? id = some x) (hown : { s with values := vs }.heldBy id = h)
    (hothers : ∀ o ≠ id, { s with values := vs }.heldBy o = s.heldBy o) :
    s.Amends { s with values := vs } id { x with held := h } where
  frame := ⟨rfl, rfl, rfl, rfl⟩
  comments := rfl
  own :=
    have ⟨ha, _, he⟩ := dossier?_eq_some_iff.1 hx
    dossier?_eq_some_iff.2 ⟨ha, hown.symm, he⟩
  others o ho := ⟨rfl, hothers o ho, rfl⟩

theorem isOf_iff {v : StoredValue} {d o : Int} :
    v.isOf d o = true ↔ v.definitionId = d ∧ v.objectId = o := by
  simp [StoredValue.isOf]

theorem find?_insertById_self {α : Type} {f : α → Int} {p : α → Bool} {x : α} {l : List α}
    (hx : p x = true) (hl : ∀ y ∈ l, p y = false) : (insertById f x l).find? p = some x := by
  induction l with
  | nil => simp [insertById, hx]
  | cons y ys ih =>
    have hy := hl y List.mem_cons_self
    have hys := ih fun z hz => hl z (List.mem_cons_of_mem _ hz)
    unfold insertById
    split <;> simp [hx, hy, hys]

theorem find?_insertById_of_not {α : Type} {f : α → Int} {p : α → Bool} {x : α} {l : List α}
    (hx : p x = false) : (insertById f x l).find? p = l.find? p := by
  induction l with
  | nil => simp [insertById, hx]
  | cons y ys ih =>
    unfold insertById
    split
    · simp [hx]
    · simp only [List.find?_cons, ih]

/-- The row that stands for a definition on an object once a value has been set. -/
def valueRow (definitionId objectId : Int) (value : Option String) (personId : Option Int)
    (before : Option StoredValue) : StoredValue :=
  ⟨0, definitionId, objectId, value, personId, before.bind StoredValue.preconditionsFailed⟩

/-- What setting a value makes of a row: only the row of that definition and object changes. -/
def setRow (d o : Int) (value : Option String) (personId : Option Int) (v : StoredValue) :
    StoredValue :=
  if v.isOf d o then { v with value := value, personId := personId } else v

theorem isOf_setRow (d o : Int) (value : Option String) (personId : Option Int)
    (v : StoredValue) (d' o' : Int) :
    (setRow d o value personId v).isOf d' o' = v.isOf d' o' := by
  unfold setRow
  split <;> rfl

theorem keys_of_value? {d o : Int} {v : StoredValue} (h : s.value? d o = some v) :
    v.definitionId = d ∧ v.objectId = o :=
  isOf_iff.1 (List.find?_some (p := fun v : StoredValue => v.isOf d o) h)

theorem value?_map_setRow (d o : Int) (value : Option String) (personId : Option Int)
    (d' o' : Int) :
    { s with values := s.values.map (setRow d o value personId) }.value? d' o' =
      (s.value? d' o').map (setRow d o value personId) := by
  simp only [value?, List.find?_map, Function.comp_def, isOf_setRow]

theorem heldBy_map_setRow {d o : Int} {v : StoredValue} (hv : s.value? d o = some v)
    (value : Option String) (personId : Option Int) (o' : Int) :
    { s with values := s.values.map (setRow d o value personId) }.heldBy o' =
      if o' = o then
        Function.update (s.heldBy o) d (some (valueRow d o value personId (s.heldBy o d)))
      else s.heldBy o' := by
  funext d'
  rw [heldBy, value?_map_setRow]
  by_cases h : d' = d ∧ o' = o
  · obtain ⟨rfl, rfl⟩ := h
    obtain ⟨hd, ho⟩ := keys_of_value? hv
    simp [heldBy, hv, setRow, isOf_iff, hd, ho, valueRow, StoredValue.unnumbered]
  · have hsame : (s.value? d' o').map (setRow d o value personId) = s.value? d' o' := by
      cases hw : s.value? d' o' with
      | none => rfl
      | some w =>
        obtain ⟨rfl, rfl⟩ := keys_of_value? hw
        simp [setRow, isOf_iff, h]
    rw [hsame]
    by_cases ho : o' = o
    · have hd : d' ≠ d := fun e => h ⟨e, ho⟩
      simp [heldBy, ho, hd]
    · simp [heldBy, ho]

theorem heldBy_insertById {d o : Int} {v : StoredValue} (hv : v.definitionId = d ∧ v.objectId = o)
    (hn : s.value? d o = none) (o' : Int) :
    { s with values := insertById StoredValue.id v s.values }.heldBy o' =
      if o' = o then Function.update (s.heldBy o) d (some v.unnumbered) else s.heldBy o' := by
  funext d'
  rw [heldBy, value?]
  by_cases h : d' = d ∧ o' = o
  · obtain ⟨rfl, rfl⟩ := h
    have hl : ∀ w ∈ s.values, w.isOf d' o' = false := by simpa [value?] using hn
    have hf := find?_insertById_self (f := StoredValue.id)
      (p := fun w : StoredValue => w.isOf d' o') (isOf_iff.2 hv) hl
    simp [hf]
  · have hv' : v.isOf d' o' = false := by
      rw [Bool.eq_false_iff, ne_eq, isOf_iff, hv.1, hv.2]
      exact fun e => h ⟨e.1.symm, e.2.symm⟩
    rw [find?_insertById_of_not (p := fun w : StoredValue => w.isOf d' o') hv']
    by_cases ho : o' = o
    · have hd : d' ≠ d := fun e => h ⟨e, ho⟩
      simp [heldBy, value?, ho, hd]
    · simp [heldBy, value?, ho]

theorem value?_removeValue (d o d' o' : Int) :
    (s.removeValue d o).value? d' o' = if d' = d ∧ o' = o then none else s.value? d' o' := by
  simp only [value?, removeValue, List.find?_filter]
  split
  · rename_i h
    obtain ⟨rfl, rfl⟩ := h
    simp
  · rename_i h
    congr 1
    funext v
    by_cases hv : v.isOf d' o' = true
    · obtain ⟨rfl, rfl⟩ := isOf_iff.1 hv
      have hn : v.isOf d o = false := by rwa [Bool.eq_false_iff, ne_eq, isOf_iff]
      simp [hn]
    · simp [hv]

theorem heldBy_removeValue (d o o' : Int) :
    (s.removeValue d o).heldBy o' =
      if o' = o then Function.update (s.heldBy o) d none else s.heldBy o' := by
  funext d'
  rw [heldBy, value?_removeValue]
  by_cases ho : o' = o
  · by_cases hd : d' = d <;> simp [heldBy, ho, hd]
  · simp [heldBy, ho]

/-- A value of a definition that exists can always be set. -/
theorem amends_setValue (hx : s.dossier? id = some x) {d : Int} (hd : s.hasDefinition d = true)
    (value : Option String) (personId : Option Int) :
    ∃ t, s.setValue d id value personId = .ok t ∧
      s.Amends t id (x.hold d (some (valueRow d id value personId (x.held d)))) := by
  have hheld := (dossier?_eq_some_iff.1 hx).2.1
  unfold setValue
  cases hv : s.value? d id with
  | some v =>
    refine ⟨_, rfl, amends_of_values hx ?_ fun o ho => ?_⟩
    · rw [hheld]
      exact (heldBy_map_setRow hv value personId id).trans (if_pos rfl)
    · exact (heldBy_map_setRow hv value personId o).trans (if_neg ho)
  | none =>
    have hfree : (s.values.any fun w => w.definitionId == d && w.objectId == id) = false := by
      simpa [value?, StoredValue.isOf] using hv
    let row : StoredValue :=
      ⟨freshId (s.values.map StoredValue.id), d, id, value, personId, none⟩
    have hrow : row.unnumbered = valueRow d id value personId (x.held d) := by
      simp [row, StoredValue.unnumbered, valueRow, hheld, heldBy, hv]
    refine ⟨{ s with values := insertById StoredValue.id row s.values }, ?_,
      amends_of_values hx ?_ fun o ho => ?_⟩
    · simp [insertValue, present, require, hfree, hd, row, bind, Except.bind, pure, Except.pure]
    · rw [← hrow, hheld]
      exact (heldBy_insertById ⟨rfl, rfl⟩ hv id).trans (if_pos rfl)
    · exact (heldBy_insertById ⟨rfl, rfl⟩ hv o).trans (if_neg ho)

theorem amends_removeValue (hx : s.dossier? id = some x) (d : Int) :
    s.Amends (s.removeValue d id) id (x.hold d none) := by
  refine amends_of_values hx ?_ fun o ho => ?_
  · rw [(dossier?_eq_some_iff.1 hx).2.1]
    exact (heldBy_removeValue d id id).trans (if_pos rfl)
  · exact (heldBy_removeValue d id o).trans (if_neg ho)

/-! ## Evidence -/

theorem hasEvidence_eq (hx : s.dossier? id = some x) (kind : EvidenceKind) (link : String) :
    s.hasEvidence id kind link =
      x.evidence.any fun e => e.kind == kind.name && e.link == link := by
  rw [(dossier?_eq_some_iff.1 hx).2.2, evidenceOf, List.any_map, List.any_filter, hasEvidence]
  simp only [Function.comp_apply, Evidence.unnumbered, Bool.and_assoc]

/-- A link can always be attached to an assessment that exists. -/
theorem amends_attach (hx : s.dossier? id = some x) (kind : EvidenceKind) (link : String) :
    ∃ t n, s.attach id kind link = .ok (t, n) ∧ s.Amends t id (x.attach kind link) := by
  obtain ⟨ha, hh, he⟩ := dossier?_eq_some_iff.1 hx
  have hid := id_of_dossier? hx
  have hex : s.hasAssessment id = true := by rw [← assessment?_isSome, ha]; rfl
  have hkind : evidenceKinds.contains kind.name = true := by cases kind <;> decide
  let row : Evidence :=
    { Dossier.exhibit id kind link with id := freshId (s.evidence.map Evidence.id) }
  refine ⟨{ s with evidence := s.evidence ++ [row] }, freshId (s.evidence.map Evidence.id), ?_, ?_⟩
  · cases kind <;>
      simp only [attach, insertEvidence, present, require, hex, hkind, if_true, bind, Except.bind,
        pure, Except.pure, row, Dossier.exhibit]
  · refine ⟨⟨rfl, rfl, rfl, rfl⟩, rfl, dossier?_eq_some_iff.2 ⟨ha, hh, ?_⟩,
      fun o ho => ⟨rfl, rfl, ?_⟩⟩
    · simp [evidenceOf, Dossier.attach, he, List.filter_append, row, hid, Evidence.unnumbered,
        Dossier.exhibit]
    · simp [evidenceOf, List.filter_append, row, Dossier.exhibit, Ne.symm ho]

end Store

end BulkAssessment
