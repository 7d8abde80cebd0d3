import BulkAssessment.Proofs.Keys
import Mathlib.Data.Finset.Card

/-!
# Outcomes in closed form

The outcome of an operation is told from slugs that were reported. As slugs and ids are unique,
it only matters which requested ids failed and which were done in part: the four lists are four
selections of the requested ids (`Store.sortedBy`, `Store.outcome_eq_sortedBy`).

The lists read nothing of an assessment but its id and its title, so they are the same for all
stores with one frame.

Whatever slugs are reported, each requested id is in exactly one of the lists (`Buckets`), and no
two links lead to the same page (`outcome_partitions_requested`).
-/

namespace BulkAssessment

namespace Store

/-- The requested ids sorted by two tests, for those that failed and for those done in part.
Assessments that failed and those done in part are listed in the order of the table, all others
in the order in which they are first requested. -/
def sortedBy (s : Store) (appUrl : String) (requested : List Int) (failed halfDone : Int → Bool) :
    Outcome where
  updateErrors :=
    (s.assessments.filter fun a => requested.contains a.id && failed a.id).map
      (Assessment.mention appUrl)
  partialErrors :=
    (s.assessments.filter fun a => requested.contains a.id && (!failed a.id && halfDone a.id)).map
      (Assessment.mention appUrl)
  succeeded :=
    (((Keyed.firsts requested).filter fun id => !failed id && !halfDone id).filterMap
      s.assessment?).map (Assessment.mention appUrl)
  deleted := (Keyed.firsts requested).filter fun id => !s.hasAssessment id

variable {s t : Store} {appUrl : String} {requested : List Int} {errors partials : TextSet}
  {failed halfDone : Int → Bool}

theorem slugMatches_eq (slugs : TextSet) :
    s.slugMatches slugs requested =
      s.assessments.filter fun a => requested.contains a.id && decide (a.slug ∈ slugs) := by
  unfold slugMatches assessmentsBySlugs
  rw [List.filter_filter]
  refine List.filter_congr fun a _ => ?_
  congr 1
  rw [Bool.eq_iff_iff, List.contains_iff_mem, decide_eq_true_iff]
  exact Iff.rfl

theorem any_id_filter (test : Int → Bool) (id : Int) :
    ((s.assessments.filter fun a => test a.id).any fun a => a.id == id) =
      (s.hasAssessment id && test id) := by
  rw [Bool.eq_iff_iff, List.any_eq_true, Bool.and_eq_true, hasAssessment, List.any_eq_true]
  constructor
  · rintro ⟨a, ha, hid⟩
    obtain ⟨hmem, htest⟩ := List.mem_filter.1 ha
    rw [beq_iff_eq.1 hid] at htest
    exact ⟨⟨a, hmem, hid⟩, htest⟩
  · rintro ⟨⟨a, hmem, hid⟩, htest⟩
    rw [← beq_iff_eq.1 hid] at htest
    exact ⟨a, List.mem_filter.2 ⟨hmem, htest⟩, hid⟩

/-- The outcome is the requested ids, sorted by what was reported under their slugs. -/
theorem outcome_eq_sortedBy
    (hfailed : ∀ a ∈ s.assessments, a.id ∈ requested → (a.slug ∈ errors ↔ failed a.id = true))
    (hhalf : ∀ a ∈ s.assessments, a.id ∈ requested → failed a.id = false →
      (a.slug ∈ partials ↔ halfDone a.id = true)) :
    s.outcome appUrl errors partials requested =
      s.sortedBy appUrl requested failed halfDone := by
  have hfailures : s.slugMatches errors requested =
      s.assessments.filter fun a => requested.contains a.id && failed a.id := by
    rw [slugMatches_eq]
    refine List.filter_congr fun a ha => ?_
    by_cases hid : a.id ∈ requested
    · rw [Bool.eq_iff_iff, Bool.and_eq_true, Bool.and_eq_true, decide_eq_true_iff,
        hfailed a ha hid]
    · simp [hid]
  have hhalves : ((s.slugMatches partials requested).filter fun a =>
      !(s.slugMatches errors requested).any fun b => b.id == a.id) =
        s.assessments.filter fun a =>
          requested.contains a.id && (!failed a.id && halfDone a.id) := by
    rw [hfailures, slugMatches_eq, List.filter_filter]
    refine List.filter_congr fun a ha => ?_
    have hexists : s.hasAssessment a.id = true := List.any_eq_true.2 ⟨a, ha, beq_self_eq_true _⟩
    rw [any_id_filter fun id => requested.contains id && failed id, hexists]
    by_cases hid : a.id ∈ requested
    · cases hfail : failed a.id with
      | true => simp [hid]
      | false => simp [hid, hhalf a ha hid hfail]
    · simp [hid]
  have hothers : ∀ id ∈ Keyed.firsts requested,
      (!((s.assessments.filter fun a => requested.contains a.id && failed a.id) ++
        s.assessments.filter fun a => requested.contains a.id && (!failed a.id && halfDone a.id)).any
          fun a => a.id == id) =
        (!s.hasAssessment id || (!failed id && !halfDone id)) := by
    intro id hid
    rw [List.any_append, any_id_filter fun id => requested.contains id && failed id,
      any_id_filter fun id => requested.contains id && (!failed id && halfDone id)]
    have hrequested : requested.contains id = true :=
      List.contains_iff_mem.2 (Keyed.mem_firsts.1 hid)
    rw [hrequested]
    cases s.hasAssessment id <;> cases failed id <;> cases halfDone id <;> rfl
  have hsucceeded : (((Keyed.firsts requested).filter fun id =>
      !s.hasAssessment id || (!failed id && !halfDone id)).filterMap s.assessment?) =
        ((Keyed.firsts requested).filter fun id => !failed id && !halfDone id).filterMap
          s.assessment? := by
    rw [List.filterMap_filter, List.filterMap_filter]
    refine List.filterMap_congr fun id _ => ?_
    rw [← assessment?_isSome]
    cases s.assessment? id <;> simp
  have hdeleted : (((Keyed.firsts requested).filter fun id =>
      !s.hasAssessment id || (!failed id && !halfDone id)).filter fun id =>
        (s.assessment? id).isNone) =
          (Keyed.firsts requested).filter fun id => !s.hasAssessment id := by
    rw [List.filter_filter]
    refine List.filter_congr fun id _ => ?_
    rw [← assessment?_isSome]
    cases s.assessment? id <;> simp
  unfold outcome sortedBy othersThan
  dsimp only
  rw [hhalves, hfailures, List.filter_congr hothers, hsucceeded, hdeleted]

theorem SameFrame.sortedBy (h : s.SameFrame t) (appUrl : String) (requested : List Int)
    (failed halfDone : Int → Bool) :
    t.sortedBy appUrl requested failed halfDone = s.sortedBy appUrl requested failed halfDone := by
  -- a selection by id is one of the identities, which say what is mentioned
  let mentionOf (i : Int × String × String × String) : Mention :=
    ⟨i.2.2.1, assessmentUrl appUrl i.1⟩
  have hselect (u : Store) (test : Int → Bool) :
      (u.assessments.filter fun a => test a.id).map (Assessment.mention appUrl) =
        ((u.assessments.map Assessment.identity).filter fun i => test i.1).map mentionOf := by
    rw [List.filter_map, List.map_map]
    rfl
  have hfind (u : Store) (id : Int) :
      (u.assessment? id).map (Assessment.mention appUrl) =
        ((u.assessments.map Assessment.identity).find? fun i => i.1 == id).map mentionOf := by
    rw [List.find?_map, Option.map_map]
    rfl
  unfold Store.sortedBy
  simp only [List.map_filterMap, h.hasAssessment, hfind, h.identities,
    hselect _ fun id => requested.contains id && failed id,
    hselect _ fun id => requested.contains id && (!failed id && halfDone id)]

/-- What the outcome over a later store lists, told from the assessments before. -/
theorem SameFrame.outcome_eq_sortedBy (h : s.SameFrame t)
    (hfailed : ∀ a ∈ s.assessments, a.id ∈ requested → (a.slug ∈ errors ↔ failed a.id = true))
    (hhalf : ∀ a ∈ s.assessments, a.id ∈ requested → failed a.id = false →
      (a.slug ∈ partials ↔ halfDone a.id = true)) :
    t.outcome appUrl errors partials requested =
      s.sortedBy appUrl requested failed halfDone := by
  rw [← h.sortedBy]
  refine Store.outcome_eq_sortedBy (fun b hb => ?_) (fun b hb => ?_)
  · obtain ⟨a, ha, hid, hslug, -⟩ := h.exists_before hb
    rw [hid, hslug]
    exact hfailed a ha
  · obtain ⟨a, ha, hid, hslug, -⟩ := h.exists_before hb
    rw [hid, hslug]
    exact hhalf a ha

end Store

/-! ## Each requested id once -/

/-- The requested ids by what became of them. -/
structure Buckets where
  failed : List Assessment
  halfDone : List Assessment
  done : List Assessment
  /-- Ids without an assessment. -/
  gone : List Int

namespace Buckets

/-- The ids in all buckets. -/
def ids (b : Buckets) : List Int :=
  b.failed.map Assessment.id ++ b.halfDone.map Assessment.id ++ b.done.map Assessment.id ++ b.gone

/-- The buckets as they are reported. -/
def report (appUrl : String) (b : Buckets) : Outcome :=
  ⟨b.failed.map (Assessment.mention appUrl), b.halfDone.map (Assessment.mention appUrl),
    b.done.map (Assessment.mention appUrl), b.gone⟩

theorem total_report (appUrl : String) (b : Buckets) : (b.report appUrl).total = b.ids.length := by
  simp [report, Outcome.total, ids, Nat.add_assoc]

end Buckets

/-- The requested ids, sorted by the slugs that failed and those done in part. -/
def Store.buckets (s : Store) (errors partials : TextSet) (requested : List Int) : Buckets where
  failed := s.assessments.filter fun a => a.id ∈ requested ∧ a.slug ∈ errors
  halfDone := s.assessments.filter fun a =>
    a.id ∈ requested ∧ a.slug ∈ partials ∧ a.slug ∉ errors
  done := ((Keyed.firsts requested).filterMap s.assessment?).filter fun a =>
    a.slug ∉ errors ∧ a.slug ∉ partials
  gone := (Keyed.firsts requested).filter fun id => !s.hasAssessment id

section Partition

variable {s : Store} {appUrl : String} {errors partials : TextSet} {requested : List Int}

theorem assessmentUrl_inj {i j : Int} (h : assessmentUrl appUrl i = assessmentUrl appUrl j) :
    i = j := by
  unfold assessmentUrl at h
  exact Text.intText_inj ((String.append_right_inj _).1 h)

theorem outcome_eq_report (hk : s.Keyed) :
    s.outcome appUrl errors partials requested =
      (s.buckets errors partials requested).report appUrl := by
  have hlookup {a : Assessment} (ha : a ∈ s.assessments) : s.assessment? a.id = some a :=
    hk.assessment?_eq_some_iff.2 ⟨ha, rfl⟩
  let listed (slugs : TextSet) (id : Int) : Bool :=
    (s.assessment? id).any fun a => decide (a.slug ∈ slugs)
  have hsorted : s.outcome appUrl errors partials requested =
      s.sortedBy appUrl requested (listed errors) (listed partials) := by
    refine Store.outcome_eq_sortedBy (fun a ha _ => ?_) (fun a ha _ _ => ?_)
    · simp [listed, hlookup ha]
    · simp [listed, hlookup ha]
  have hfailed : (s.assessments.filter fun a => requested.contains a.id && listed errors a.id) =
      (s.buckets errors partials requested).failed := by
    refine List.filter_congr fun a ha => ?_
    simp [listed, hlookup ha]
  have hhalf : (s.assessments.filter fun a => requested.contains a.id &&
      (!listed errors a.id && listed partials a.id)) =
        (s.buckets errors partials requested).halfDone := by
    refine List.filter_congr fun a ha => ?_
    simp [listed, hlookup ha, and_comm]
  have hdone : ((Keyed.firsts requested).filter fun id =>
      !listed errors id && !listed partials id).filterMap s.assessment? =
        (s.buckets errors partials requested).done := by
    unfold Store.buckets
    rw [List.filterMap_filter, List.filter_filterMap]
    refine List.filterMap_congr fun id _ => ?_
    cases ha : s.assessment? id with
    | none => simp
    | some a => simp [listed, ha, Option.filter]
  rw [hsorted, Store.sortedBy, hfailed, hhalf, hdone]
  rfl

theorem ids_filter_perm (hk : s.Keyed) (requested : List Int) (test : Assessment → Bool) :
    ((s.assessments.filter fun a => decide (a.id ∈ requested) && test a).map Assessment.id).Perm
      ((Keyed.firsts requested).filter fun id => (s.assessment? id).any test) := by
  have hnodup := hk.assessmentIds.sublist
    ((List.filter_sublist (p := fun a => decide (a.id ∈ requested) && test a)).map Assessment.id)
  have hfirsts := (Keyed.nodup_firsts requested).filter fun id => (s.assessment? id).any test
  refine (List.perm_ext_iff_of_nodup hnodup hfirsts).2 fun id => ?_
  simp only [List.mem_map, List.mem_filter, Keyed.mem_firsts, Option.any_eq_true,
    hk.assessment?_eq_some_iff, Bool.and_eq_true, decide_eq_true_eq]
  constructor
  · rintro ⟨a, ⟨ha, hid, htest⟩, rfl⟩
    exact ⟨hid, a, ⟨ha, rfl⟩, htest⟩
  · rintro ⟨hid, a, ⟨ha, rfl⟩, htest⟩
    exact ⟨a, ⟨ha, hid, htest⟩, rfl⟩

theorem count_filter_eq (l : List Int) (test : Int → Bool) (i : Int) :
    (l.filter test).count i = if test i then l.count i else 0 := by
  split
  · rename_i htest
    exact List.count_filter htest
  · rename_i htest
    exact List.count_eq_zero.2 fun hmem => htest (List.mem_filter.1 hmem).2

theorem ids_filterMap (test : Assessment → Bool) (ids : List Int) :
    ((ids.filterMap s.assessment?).filter test).map Assessment.id =
      ids.filter fun id => (s.assessment? id).any test := by
  induction ids with
  | nil => rfl
  | cons id ids ih =>
    cases ha : s.assessment? id with
    | none =>
      rw [List.filterMap_cons_none ha, ih, List.filter_cons_of_neg]
      simp [ha]
    | some a =>
      have hid := (Store.mem_of_assessment?_eq_some ha).2
      rw [List.filterMap_cons_some ha]
      by_cases htest : test a = true
      · rw [List.filter_cons_of_pos htest, List.map_cons, ih, List.filter_cons_of_pos, hid]
        simpa [ha] using htest
      · rw [List.filter_cons_of_neg htest, ih, List.filter_cons_of_neg]
        simpa [ha] using htest

theorem ids_buckets_perm (hk : s.Keyed) :
    (s.buckets errors partials requested).ids.Perm (Keyed.firsts requested) := by
  have hfailed := ids_filter_perm hk requested fun a => decide (a.slug ∈ errors)
  have hhalf := ids_filter_perm hk requested fun a =>
    decide (a.slug ∈ partials ∧ a.slug ∉ errors)
  simp only [← Bool.decide_and] at hfailed hhalf
  unfold Buckets.ids Store.buckets
  rw [ids_filterMap]
  refine (((hfailed.append hhalf).append_right _).append_right _).trans ?_
  refine List.perm_iff_count.2 fun i => ?_
  simp only [List.count_append, count_filter_eq, ← Store.assessment?_isSome]
  -- an id without an assessment is gone, and for the others the slug decides
  cases s.assessment? i with
  | none => simp
  | some a =>
    by_cases herror : a.slug ∈ errors <;> by_cases hpartial : a.slug ∈ partials <;>
      simp [herror, hpartial]

theorem nodup_urls (hk : s.Keyed) :
    (((s.buckets errors partials requested).report appUrl).updateErrors ++
      ((s.buckets errors partials requested).report appUrl).partialErrors ++
      ((s.buckets errors partials requested).report appUrl).succeeded).map Mention.url |>.Nodup := by
  have hids : (s.buckets errors partials requested).ids.Nodup :=
    (ids_buckets_perm hk).nodup_iff.2 (Keyed.nodup_firsts requested)
  have hpages : Function.Injective (assessmentUrl appUrl) := fun _ _ => assessmentUrl_inj
  have hfound := (List.nodup_append.1 hids).1.map hpages
  simpa [Buckets.report, Assessment.mention, Function.comp_def] using hfound

/-- The link to an assessment is listed exactly if the assessment is, as no other has its page. -/
theorem mention_mem_map_iff (hk : s.Keyed) {a : Assessment} (ha : a ∈ s.assessments)
    {as : List Assessment} (has : ∀ b ∈ as, b ∈ s.assessments) :
    a.mention appUrl ∈ as.map (Assessment.mention appUrl) ↔ a ∈ as := by
  refine ⟨fun h => ?_, List.mem_map_of_mem⟩
  obtain ⟨b, hb, hsame⟩ := List.mem_map.1 h
  have hid : b.id = a.id := assessmentUrl_inj (congrArg Mention.url hsame)
  rwa [← hk.eq_of_id (has b hb) ha hid]

theorem mention_mem_updateErrors_iff (hk : s.Keyed) {a : Assessment} (ha : a ∈ s.assessments) :
    a.mention appUrl ∈ (s.outcome appUrl errors partials requested).updateErrors ↔
      a.id ∈ requested ∧ a.slug ∈ errors := by
  rw [outcome_eq_report hk]
  refine (mention_mem_map_iff hk ha fun b hb => (List.mem_filter.1 hb).1).trans ?_
  simp [ha]

theorem mention_mem_partialErrors_iff (hk : s.Keyed) {a : Assessment} (ha : a ∈ s.assessments) :
    a.mention appUrl ∈ (s.outcome appUrl errors partials requested).partialErrors ↔
      a.id ∈ requested ∧ a.slug ∈ partials ∧ a.slug ∉ errors := by
  rw [outcome_eq_report hk]
  refine (mention_mem_map_iff hk ha fun b hb => (List.mem_filter.1 hb).1).trans ?_
  simp [ha]

theorem mention_mem_succeeded_iff (hk : s.Keyed) {a : Assessment} (ha : a ∈ s.assessments) :
    a.mention appUrl ∈ (s.outcome appUrl errors partials requested).succeeded ↔
      a.id ∈ requested ∧ a.slug ∉ errors ∧ a.slug ∉ partials := by
  have hfound {b : Assessment} : b ∈ (Keyed.firsts requested).filterMap s.assessment? ↔
      b.id ∈ requested ∧ b ∈ s.assessments := by
    simp only [List.mem_filterMap, Keyed.mem_firsts, hk.assessment?_eq_some_iff]
    constructor
    · rintro ⟨id, hid, hb, rfl⟩
      exact ⟨hid, hb⟩
    · rintro ⟨hid, hb⟩
      exact ⟨b.id, hid, hb, rfl⟩
  rw [outcome_eq_report hk]
  refine (mention_mem_map_iff hk ha fun b hb => (hfound.1 (List.mem_filter.1 hb).1).2).trans ?_
  refine List.mem_filter.trans ?_
  rw [hfound]
  simp [ha]

/-- Whatever slugs are reported, each requested id is in exactly one of the four lists, once, and
nothing else is in them: those that failed and those done in part in the order of the table, which
is that of the ids, the others in the order in which they are first requested. So the total is the
number of requested ids, and no two links lead to the same page. -/
theorem outcome_partitions_requested (hk : s.Keyed) (appUrl : String)
    (errors partials : TextSet) (requested : List Int) :
    let b := s.buckets errors partials requested
    let o := s.outcome appUrl errors partials requested
    o = b.report appUrl ∧ b.ids.Perm (Keyed.firsts requested) ∧
      (s.InIdOrder → (b.failed.Pairwise fun a c => a.id < c.id) ∧
        b.halfDone.Pairwise fun a c => a.id < c.id) ∧
      o.total = requested.toFinset.card ∧
      ((o.updateErrors ++ o.partialErrors ++ o.succeeded).map Mention.url).Nodup := by
  intro b o
  have ho : o = b.report appUrl := outcome_eq_report hk
  have hperm : b.ids.Perm (Keyed.firsts requested) := ids_buckets_perm hk
  refine ⟨ho, hperm, fun hordered => ?_, ?_, ?_⟩
  · exact ⟨hordered.assessments.filter _, hordered.assessments.filter _⟩
  · have hset : requested.toFinset = (Keyed.firsts requested).toFinset := by
      ext id
      simp [Keyed.mem_firsts]
    rw [ho, Buckets.total_report, hperm.length_eq, hset,
      List.toFinset_card_of_nodup (Keyed.nodup_firsts requested)]
  · rw [ho]
    exact nodup_urls hk

end Partition

/-- Four assessments. -/
def fourStore : Store :=
  { Store.empty with
    assessments :=
      [⟨1, "A-1", "Backups", "In Progress", "Control", none, none⟩,
        ⟨2, "A-2", "Passwords", "In Progress", "Control", none, none⟩,
        ⟨3, "A-3", "Firewalls", "In Progress", "Control", none, none⟩,
        ⟨4, "A-4", "Laptops", "In Progress", "Control", none, none⟩] }

/-- A slug is in both sets, two slugs are unknown, ids are repeated and one is gone. -/
theorem outcome_of_overlapping :
    ∃ o, o = fourStore.outcome "http://ggrc.test/" (.ofList ["A-2", "A-1", "B-9"])
        (.ofList ["A-2", "A-3", "A-5"]) [4, 99, 2, 1, 3, 4, 99, 1] ∧
      (o.updateErrors.map Mention.title, o.partialErrors.map Mention.title,
        o.succeeded, o.deleted) =
          (["Backups", "Passwords"], ["Firewalls"],
            [⟨"Laptops", "http://ggrc.test/assessments/4"⟩], [99]) ∧
      o.total = 5 ∧
      ((o.updateErrors ++ o.partialErrors ++ o.succeeded).map Mention.url).Nodup ∧
      (fourStore.buckets (.ofList ["A-2", "A-1", "B-9"]) (.ofList ["A-2", "A-3", "A-5"])
        [4, 99, 2, 1, 3, 4, 99, 1]).failed.Pairwise fun a c => a.id < c.id := by
  have hkeyed : fourStore.Keyed := ⟨by decide, by decide, by decide⟩
  obtain ⟨ho, -, hordered, htotal, hurls⟩ := outcome_partitions_requested hkeyed
    "http://ggrc.test/" (.ofList ["A-2", "A-1", "B-9"]) (.ofList ["A-2", "A-3", "A-5"])
    [4, 99, 2, 1, 3, 4, 99, 1]
  refine ⟨_, rfl, ?_, htotal.trans (by decide), hurls, (hordered ⟨by decide, by decide⟩).1⟩
  rw [ho]
  decide +kernel

end BulkAssessment
