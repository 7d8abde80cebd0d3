import BulkAssessment.Operation
import Mathlib.Data.List.Nodup

/-!
# Keys of a store

The schema makes the ids of assessments and definitions and the slugs of assessments
unique (`Store.Keyed`), so a look-up by a key finds the row that has it. The tables are in the
order of the ids (`Store.InIdOrder`), so the last definition of a title has the greatest id.

No row of an import touches people, roles or definitions, nor what an assessment is known
by. `Store.SameFrame` relates two stores that agree in all of that; keys and the look-ups
that read nothing else carry over between such stores.
-/

namespace BulkAssessment

/-- The keys that the schema declares unique are unique. -/
structure Store.Keyed (s : Store) : Prop where
  assessmentIds : (s.assessments.map Assessment.id).Nodup
  slugs : (s.assessments.map Assessment.slug).Nodup
  definitionIds : (s.definitions.map Definition.id).Nodup

/-- The tables of assessments and of definitions are in the order of the ids. -/
structure Store.InIdOrder (s : Store) : Prop where
  assessments : s.assessments.Pairwise fun a b => a.id < b.id
  definitions : s.definitions.Pairwise fun c d => c.id < d.id

/-- What an assessment is known by. -/
def Assessment.identity (a : Assessment) : Int × String × String × String :=
  (a.id, a.slug, a.title, a.assessmentType)

/-- Two stores with the same people, roles, definitions and identities of assessments. -/
structure Store.SameFrame (s t : Store) : Prop where
  people : t.people = s.people
  roles : t.roles = s.roles
  definitions : t.definitions = s.definitions
  identities : t.assessments.map Assessment.identity = s.assessments.map Assessment.identity

/-- In a list with unique keys the look-up of a key finds exactly the rows that have it. -/
theorem find?_key_eq_some_iff {α κ : Type} [DecidableEq κ] {key : α → κ} {rows : List α}
    (h : (rows.map key).Nodup) {k : κ} {x : α} :
    (rows.find? fun y => key y == k) = some x ↔ x ∈ rows ∧ key x = k := by
  constructor
  · intro hx
    exact ⟨List.mem_of_find?_eq_some hx, by simpa using List.find?_some hx⟩
  · rintro ⟨hm, rfl⟩
    cases hf : rows.find? fun y => key y == key x with
    | none => simpa using List.find?_eq_none.1 hf x hm
    | some y =>
      have hy : key y = key x := by simpa using List.find?_some hf
      rw [List.inj_on_of_nodup_map h (List.mem_of_find?_eq_some hf) hm hy]

/-- What no step of a loop changes, the loop does not change. -/
theorem foldl_keeps {α β γ : Type} {g : β → α → β} {f : β → γ} {as : List α}
    (hstep : ∀ b, ∀ a ∈ as, f (g b a) = f b) (b : β) : f (as.foldl g b) = f b := by
  induction as generalizing b with
  | nil => rfl
  | cons a as ih =>
    rw [List.foldl_cons, ih fun b a ha => hstep b a (List.mem_cons_of_mem _ ha)]
    exact hstep b a List.mem_cons_self

namespace Store

variable {s t u : Store}

/-! ## Look-ups by key -/

theorem Keyed.assessment?_eq_some_iff (hk : s.Keyed) {id : Int} {a : Assessment} :
    s.assessment? id = some a ↔ a ∈ s.assessments ∧ a.id = id :=
  find?_key_eq_some_iff hk.assessmentIds

theorem Keyed.assessmentBySlug?_eq_some_iff (hk : s.Keyed) {slug : String} {a : Assessment} :
    s.assessmentBySlug? slug = some a ↔ a ∈ s.assessments ∧ a.slug = slug :=
  find?_key_eq_some_iff hk.slugs

theorem Keyed.subject_eq_ok_iff (hk : s.Keyed) {code : String} {a : Assessment} :
    s.subject code = .ok a ↔ a ∈ s.assessments ∧ a.slug = code := by
  rw [← hk.assessmentBySlug?_eq_some_iff, subject]
  split <;> simp_all

theorem Keyed.eq_of_id (hk : s.Keyed) {a b : Assessment} (ha : a ∈ s.assessments)
    (hb : b ∈ s.assessments) (h : a.id = b.id) : a = b :=
  List.inj_on_of_nodup_map hk.assessmentIds ha hb h

theorem Keyed.eq_of_definitionId (hk : s.Keyed) {c d : Definition} (hc : c ∈ s.definitions)
    (hd : d ∈ s.definitions) (h : c.id = d.id) : c = d :=
  List.inj_on_of_nodup_map hk.definitionIds hc hd h

theorem Keyed.eq_of_slug (hk : s.Keyed) {a b : Assessment} (ha : a ∈ s.assessments)
    (hb : b ∈ s.assessments) (h : a.slug = b.slug) : a = b :=
  List.inj_on_of_nodup_map hk.slugs ha hb h

theorem assessment?_isSome {id : Int} :
    (s.assessment? id).isSome = s.hasAssessment id := by
  rw [Bool.eq_iff_iff, assessment?, hasAssessment, List.find?_isSome, List.any_eq_true]

theorem mem_of_assessment?_eq_some {id : Int} {a : Assessment} (h : s.assessment? id = some a) :
    a ∈ s.assessments ∧ a.id = id :=
  ⟨List.mem_of_find?_eq_some h, by simpa using List.find?_some h⟩

theorem of_definitionTitled?_eq_some {id : Int} {title : String} {d : Definition}
    (h : s.definitionTitled? id title = some d) : d ∈ s.definitions ∧ d.title = title := by
  have hmem := List.mem_reverse.1 (List.mem_of_find?_eq_some h)
  exact ⟨(List.mem_filter.1 hmem).1, by simpa using List.find?_some h⟩

/-- Of the definitions of an assessment with one title the title stands for the one with the
greatest id. -/
theorem InIdOrder.le_of_definitionTitled? (ho : s.InIdOrder) {id : Int} {title : String}
    {c d : Definition} (h : s.definitionTitled? id title = some d) (hc : c ∈ s.definitionsOf id)
    (htitle : c.title = title) : c.id ≤ d.id := by
  obtain ⟨-, before, after, hsplit, hlater⟩ := List.find?_eq_some_iff_append.1 h
  have hsorted : (s.definitionsOf id).reverse.Pairwise fun c d => d.id < c.id :=
    List.pairwise_reverse.2 (ho.definitions.filter _)
  have hmem : c ∈ before ++ d :: after := hsplit ▸ List.mem_reverse.2 hc
  rw [hsplit] at hsorted
  rcases List.mem_append.1 hmem with hbefore | hrest
  · exact absurd htitle (by simpa using hlater c hbefore)
  · rcases List.mem_cons.1 hrest with rfl | hafter
    · exact Int.le_refl _
    · have hlt := (List.pairwise_cons.1 (List.pairwise_append.1 hsorted).2.1).1 c hafter
      exact Int.le_of_lt hlt

/-! ## Stores with one frame -/

theorem SameFrame.refl (s : Store) : s.SameFrame s := ⟨rfl, rfl, rfl, rfl⟩

theorem SameFrame.trans (h : s.SameFrame t) (k : t.SameFrame u) : s.SameFrame u :=
  ⟨k.people.trans h.people, k.roles.trans h.roles, k.definitions.trans h.definitions,
    k.identities.trans h.identities⟩

theorem SameFrame.symm (h : s.SameFrame t) : t.SameFrame s :=
  ⟨h.people.symm, h.roles.symm, h.definitions.symm, h.identities.symm⟩

theorem SameFrame.map_id (h : s.SameFrame t) :
    t.assessments.map Assessment.id = s.assessments.map Assessment.id := by
  simpa [Assessment.identity, Function.comp_def] using congrArg (List.map Prod.fst) h.identities

theorem SameFrame.map_slug (h : s.SameFrame t) :
    t.assessments.map Assessment.slug = s.assessments.map Assessment.slug := by
  simpa [Assessment.identity, Function.comp_def] using
    congrArg (List.map fun i => i.2.1) h.identities

theorem SameFrame.keyed (h : s.SameFrame t) (hk : s.Keyed) : t.Keyed :=
  ⟨h.map_id ▸ hk.assessmentIds, h.map_slug ▸ hk.slugs, h.definitions ▸ hk.definitionIds⟩

theorem SameFrame.hasAssessment (h : s.SameFrame t) (id : Int) :
    t.hasAssessment id = s.hasAssessment id := by
  have hany (u : Store) : u.hasAssessment id = (u.assessments.map Assessment.id).any (· == id) := by
    rw [Store.hasAssessment, List.any_map]
    rfl
  rw [hany, hany, h.map_id]

theorem SameFrame.definitionsOf (h : s.SameFrame t) (id : Int) :
    t.definitionsOf id = s.definitionsOf id := by
  rw [Store.definitionsOf, Store.definitionsOf, h.definitions]

theorem SameFrame.definitionTitled? (h : s.SameFrame t) (id : Int) (title : String) :
    t.definitionTitled? id title = s.definitionTitled? id title := by
  rw [Store.definitionTitled?, Store.definitionTitled?, h.definitionsOf]

theorem SameFrame.cellValue? (h : s.SameFrame t) (d : Definition) (raw : String) :
    t.cellValue? d raw = s.cellValue? d raw := by
  simp only [Store.cellValue?, personByEmail?, h.people]

/-- An assessment had its id, its slug and its title before. -/
theorem SameFrame.exists_before (h : s.SameFrame t) {b : Assessment} (hb : b ∈ t.assessments) :
    ∃ a ∈ s.assessments, b.id = a.id ∧ b.slug = a.slug ∧ b.title = a.title := by
  have hidentity : b.identity ∈ s.assessments.map Assessment.identity :=
    h.identities ▸ List.mem_map_of_mem hb
  obtain ⟨a, ha, hsame⟩ := List.mem_map.1 hidentity
  simp only [Assessment.identity, Prod.mk.injEq] at hsame
  exact ⟨a, ha, hsame.1.symm, hsame.2.1.symm, hsame.2.2.1.symm⟩

/-- Over one frame the assessments are told by looking up the ids. -/
theorem SameFrame.assessments_eq_map (h : s.SameFrame t) (hk : s.Keyed)
    {f : Assessment → Assessment}
    (hf : ∀ a ∈ s.assessments, t.assessment? a.id = some (f a)) :
    t.assessments = s.assessments.map f := by
  have hself : t.assessments.map (t.assessment? ∘ Assessment.id) = t.assessments.map some :=
    List.map_congr_left fun b hb => (h.keyed hk).assessment?_eq_some_iff.2 ⟨hb, rfl⟩
  have hlookup : s.assessments.map (t.assessment? ∘ Assessment.id) =
      s.assessments.map (some ∘ f) := List.map_congr_left hf
  refine List.map_injective_iff.2 (fun _ _ => Option.some.inj) ?_
  calc t.assessments.map some
      = (t.assessments.map Assessment.id).map t.assessment? := by rw [List.map_map, hself]
    _ = (s.assessments.map Assessment.id).map t.assessment? := by rw [h.map_id]
    _ = (s.assessments.map f).map some := by rw [List.map_map, hlookup, List.map_map]

/-- Changing rows of assessments without changing what they are known by keeps the frame. -/
theorem sameFrame_of_map {f : Assessment → Assessment} (hf : ∀ a, (f a).identity = a.identity)
    (hp : t.people = s.people) (hr : t.roles = s.roles) (hd : t.definitions = s.definitions)
    (ha : t.assessments = s.assessments.map f) : s.SameFrame t := by
  refine ⟨hp, hr, hd, ?_⟩
  rw [ha, List.map_map]
  exact List.map_congr_left fun a _ => hf a

end Store

end BulkAssessment
