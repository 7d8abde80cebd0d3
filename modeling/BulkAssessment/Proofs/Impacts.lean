import BulkAssessment.Impact
import BulkAssessment.Proofs.Stubs

/-!
# Which changes affect

A field *differs* between two snapshots if it is in one of them only or has different values in
them (`Snapshot.Differs`); these are the fields that are told as changed
(`Snapshot.mem_changed_iff`). No other fields count for a verdict, and of them only those that are
not bookkeeping (`ImpactRules.affected_congr`), as long as no field is declared twice
(`ImpactRules.Separate`). The rules for the pairs of kinds are of that sort.

So a change does not affect exactly if a harmless field differs and all that differ are harmless or
bookkeeping. The verdict does not grow with the change: nothing at all affects, and so does
bookkeeping alone.
-/

namespace BulkAssessment

namespace Snapshot

/-- A field is in one of two snapshots only, or its values in them are different. -/
inductive Differs (before after : Snapshot) (field : String) : Prop where
  | removed (x : Json) (hbefore : before.get? field = some x) (hafter : after.get? field = none)
  | added (y : Json) (hbefore : before.get? field = none) (hafter : after.get? field = some y)
  | altered (x y : Json) (hbefore : before.get? field = some x) (hafter : after.get? field = some y)
      (hvalues : x.same y = false)

/-- All fields that differ between two snapshots are among some. -/
def DiffersOnlyIn (fields : List String) (s t : Snapshot) : Prop :=
  ∀ field, s.Differs t field → field ∈ fields

/-- The snapshot with fields set one after the other. -/
def setAll (s : Snapshot) (settings : List (String × Json)) : Snapshot :=
  settings.foldl (fun t e => t.set e.1 e.2) s

variable {s t u : Snapshot} {before after : Snapshot} {field : String}

/-! ## Fields that differ -/

theorem agree_eq_false_iff : agree before after field = false ↔ before.Differs after field := by
  unfold agree
  constructor
  · intro h
    cases hx : before.get? field with
    | none =>
      cases hy : after.get? field with
      | none =>
        rw [hx, hy] at h
        cases h
      | some y => exact .added y hx hy
    | some x =>
      cases hy : after.get? field with
      | none => exact .removed x hx hy
      | some y =>
        rw [hx, hy] at h
        exact .altered x y hx hy h
  · rintro (⟨x, hx, hy⟩ | ⟨y, hx, hy⟩ | ⟨x, y, hx, hy, hvalues⟩)
    · rw [hx, hy]
    · rw [hx, hy]
    · rw [hx, hy]
      exact hvalues

theorem agree_iff : agree before after field = true ↔ ¬before.Differs after field := by
  rw [← agree_eq_false_iff, Bool.not_eq_false]

theorem agree_comm (s t : Snapshot) (field : String) : agree s t field = agree t s field := by
  unfold agree
  cases s.get? field <;> cases t.get? field <;> simp [Json.same_comm]

theorem agree_trans (h : agree s t field = true) (k : agree t u field = true) :
    agree s u field = true := by
  unfold agree at *
  cases hs : s.get? field <;> cases ht : t.get? field <;> cases hu : u.get? field <;>
    simp only [hs, ht, hu, Bool.false_eq_true] at h k ⊢
  exact Json.same_trans h k

theorem differs_comm : before.Differs after field ↔ after.Differs before field := by
  rw [← agree_eq_false_iff, ← agree_eq_false_iff, agree_comm]

/-- What a field is replaced by that does not differ from it is as good. -/
theorem differs_congr {before' after' : Snapshot} (hbefore : ¬before.Differs before' field)
    (hafter : ¬after.Differs after' field) :
    before'.Differs after' field ↔ before.Differs after field := by
  rw [← agree_iff] at hbefore hafter
  rw [← not_iff_not, ← agree_iff, ← agree_iff]
  constructor
  · intro h
    exact agree_trans (agree_trans hbefore h) (agree_comm after after' field ▸ hafter)
  · intro h
    exact agree_trans (agree_trans (agree_comm before before' field ▸ hbefore) h) hafter

theorem mem_keys_of_get? {x : Json} (h : s.get? field = some x) :
    field ∈ s.fields.map Prod.fst := by
  have hlookup (ms : List (String × Json)) : Json.member? field ms = Keyed.get? field ms := by
    induction ms with
    | nil => rfl
    | cons m rest ih => rw [Json.member?, Keyed.get?, ih]
  rw [get?, hlookup] at h
  exact Keyed.get?_isSome_iff.1 (by rw [h]; rfl)

theorem mem_changed_iff : field ∈ before.changed after ↔ before.Differs after field := by
  rw [changed, TextSet.mem_ofList, List.mem_filter, Bool.not_eq_true', agree_eq_false_iff,
    List.map_append, List.mem_append]
  refine and_iff_right_of_imp fun h => ?_
  cases h with
  | removed x hbefore hafter => exact .inl (mem_keys_of_get? hbefore)
  | added y hbefore hafter => exact .inr (mem_keys_of_get? hafter)
  | altered x y hbefore hafter hvalues => exact .inl (mem_keys_of_get? hbefore)

instance (before after : Snapshot) (field : String) : Decidable (before.Differs after field) :=
  decidable_of_iff _ agree_eq_false_iff

instance (fields : List String) (s t : Snapshot) : Decidable (DiffersOnlyIn fields s t) :=
  decidable_of_iff (∀ field ∈ (s.changed t).toList, field ∈ fields)
    (forall_congr' fun _ => imp_congr_left mem_changed_iff)

/-! ## Fields that are set -/

theorem get?_setAll (s : Snapshot) (settings : List (String × Json)) (field : String) :
    (s.setAll settings).get? field =
      ((settings.filter fun e => e.1 = field).getLast?.map Prod.snd).or (s.get? field) := by
  have hfields : (s.setAll settings).fields =
      settings.foldl (fun ms e => Json.setMember e.1 e.2 ms) s.fields :=
    (List.foldl_hom Snapshot.fields fun _ _ => rfl).symm
  rw [get?, get?, hfields]
  refine Keyed.read_foldl_last (fun ms e => ?_) settings s.fields
  rw [Json.member?_setMember]
  exact if_congr eq_comm rfl rfl

/-- Setting fields changes those that are set to another value than they had, in the end. -/
theorem differs_setAll_iff {settings : List (String × Json)} :
    s.Differs (s.setAll settings) field ↔
      ∃ e, (settings.filter fun e => e.1 = field).getLast? = some e ∧
        ∀ x, s.get? field = some x → x.same e.2 = false := by
  rw [← agree_eq_false_iff, agree, get?_setAll]
  cases (settings.filter fun e => e.1 = field).getLast? with
  | none =>
    cases s.get? field with
    | none => simp
    | some x => simp [x.same_refl]
  | some e => cases s.get? field <;> simp

end Snapshot

namespace ImpactRules

open Snapshot

/-! ## Verdicts -/

/-- No field is declared in two ways. -/
structure Separate (r : ImpactRules) : Prop where
  harmless : ∀ field ∈ r.harmless, field ∉ r.harmful
  ignored : ∀ field ∈ r.ignored, field ∉ r.harmful ∧ field ∉ r.harmless

theorem separate_between (cause effect : ObjectKind) : (between cause effect).Separate := by
  cases cause <;> cases effect <;> exact ⟨by decide, by decide⟩

variable {r : ImpactRules} {before after : Snapshot}

theorem declares_iff {field : String} :
    r.declares field = true ↔ field ∈ r.harmless ∨ field ∈ r.harmful ∨ field ∈ r.ignored := by
  simp [declares, or_assoc]

/-- The changes that do not affect, however the fields are declared. -/
theorem affectedBy_eq_false_iff {changed : TextSet} :
    r.affectedBy changed = false ↔ (∀ field ∈ changed, r.declares field = true) ∧
      (∀ field ∈ changed, field ∉ r.harmful) ∧ ∃ field ∈ changed, field ∈ r.harmless := by
  have hany (p : String → Bool) :
      changed.toList.any p = true ↔ ∃ field ∈ changed, p field = true := List.any_eq_true
  unfold affectedBy
  split_ifs with hundeclared hharmful hharmless
  · obtain ⟨field, hfield, hnot⟩ := (hany _).1 hundeclared
    refine iff_of_false nofun fun h => ?_
    rw [h.1 field hfield] at hnot
    cases hnot
  · obtain ⟨field, hfield, hmem⟩ := (hany _).1 hharmful
    exact iff_of_false nofun fun h => h.2.1 field hfield (List.contains_iff_mem.1 hmem)
  · -- the groups before are told to have no changed member
    simp only [hany, Bool.not_eq_true', not_exists, not_and, Bool.not_eq_false,
      List.contains_iff_mem] at hundeclared hharmful hharmless
    exact iff_of_true rfl ⟨hundeclared, hharmful, hharmless⟩
  · refine iff_of_false nofun fun h => hharmless ?_
    simpa only [hany, List.contains_iff_mem] using h.2.2

/-- A change does not affect exactly if a harmless field differs and all that differ are harmless or
bookkeeping. -/
theorem affected_eq_false_iff (hr : r.Separate) :
    r.affected before after = false ↔
      (∃ field ∈ r.harmless, before.Differs after field) ∧
        ∀ field, before.Differs after field → field ∈ r.harmless ∨ field ∈ r.ignored := by
  rw [affected, affectedBy_eq_false_iff]
  simp only [mem_changed_iff, declares_iff]
  constructor
  · rintro ⟨hdeclared, hharmful, field, hdiffers, hharmless⟩
    refine ⟨⟨field, hharmless, hdiffers⟩, fun other hother => ?_⟩
    rcases hdeclared other hother with hharmless | hmem | hignored
    · exact .inl hharmless
    · exact absurd hmem (hharmful other hother)
    · exact .inr hignored
  · rintro ⟨⟨field, hharmless, hdiffers⟩, hall⟩
    refine ⟨fun other hother => ?_, fun other hother => ?_, field, hdiffers, hharmless⟩
    · exact (hall other hother).imp_right .inr
    · rcases hall other hother with hharmless | hignored
      · exact hr.harmless other hharmless
      · exact (hr.ignored other hignored).1

/-- Only the fields that are no bookkeeping count for a verdict. -/
theorem affected_congr (hr : r.Separate) {before' after' : Snapshot}
    (h : ∀ field ∉ r.ignored, before'.Differs after' field ↔ before.Differs after field) :
    r.affected before' after' = r.affected before after := by
  have hverdict : r.affected before' after' = false ↔ r.affected before after = false := by
    rw [affected_eq_false_iff hr, affected_eq_false_iff hr]
    refine and_congr ?_ (forall_congr' fun field => ?_)
    · exact exists_congr fun field => and_congr_right fun hharmless =>
        h field fun hignored => (hr.ignored field hignored).2 hharmless
    · by_cases hignored : field ∈ r.ignored
      · simp [hignored]
      · rw [h field hignored]
  rw [← Bool.not_inj_iff, Bool.eq_iff_iff, Bool.not_eq_true', Bool.not_eq_true', hverdict]

/-- What differs between two snapshots decides whether a change from one to the other affects: it
does not exactly if a harmless field differs and no field but harmless ones and bookkeeping. So it
does not matter which of them is the earlier one, nor what is done to bookkeeping fields on either
side. Setting fields one after the other changes those alone, if their last values are new. -/
theorem verdict_of_changes (cause effect : ObjectKind) (before after : Snapshot) :
    (∀ field, field ∈ before.changed after ↔ before.Differs after field) ∧
    ((between cause effect).affected before after = false ↔
      (∃ field ∈ (between cause effect).harmless, before.Differs after field) ∧
        ∀ field, before.Differs after field →
          field ∈ (between cause effect).harmless ∨ field ∈ (between cause effect).ignored) ∧
    (between cause effect).affected after before = (between cause effect).affected before after ∧
    (∀ before' after', DiffersOnlyIn (between cause effect).ignored before before' →
      DiffersOnlyIn (between cause effect).ignored after after' →
        (between cause effect).affected before' after' =
          (between cause effect).affected before after) ∧
    ∀ (settings : List (String × Json)) (field : String),
      (field ∈ before.changed (before.setAll settings) ↔
        ∃ e, (settings.filter fun e => e.1 = field).getLast? = some e ∧
          ∀ x, before.get? field = some x → x.same e.2 = false) ∧
      (field ∉ settings.map Prod.fst → field ∉ before.changed (before.setAll settings)) := by
  have hr := separate_between cause effect
  refine ⟨fun field => mem_changed_iff, affected_eq_false_iff hr,
    affected_congr hr fun field _ => differs_comm, fun before' after' hbefore hafter => ?_,
    fun settings field => ⟨mem_changed_iff.trans differs_setAll_iff, fun hunset hchanged => ?_⟩⟩
  · exact affected_congr hr fun field hcounts =>
      differs_congr (fun h => hcounts (hbefore field h)) fun h => hcounts (hafter field h)
  · obtain ⟨e, he, -⟩ := differs_setAll_iff.1 (mem_changed_iff.1 hchanged)
    obtain ⟨hmem, hfield⟩ := List.mem_filter.1 (List.mem_of_getLast? he)
    exact hunset (of_decide_eq_true hfield ▸ List.mem_map_of_mem hmem)

/-- Evidence before somebody makes notes on it. -/
def plainEvidence : Snapshot :=
  Snapshot.empty.setAll
    [("link", .string "a.example"), ("notes", .string ""), ("modified_by_id", .int 1)]

/-- The same evidence without bookkeeping. -/
def unstampedEvidence : Snapshot :=
  Snapshot.empty.setAll [("link", .string "a.example"), ("notes", .string "")]

/-- What is set when the notes are made, the second time for good. -/
def noting : List (String × Json) :=
  [("notes", .string "draft"), ("updated_at", .string "2020-01-02"), ("notes", .string "seen")]

/-- Notes on evidence leave its assessment alone, with or without bookkeeping before them, and so
does taking them back. To do nothing affects. -/
theorem verdict_of_changes_noted :
    DiffersOnlyIn (between .evidence .assessment).ignored plainEvidence unstampedEvidence ∧
      (between .evidence .assessment).affected plainEvidence (plainEvidence.setAll noting) = false ∧
      (between .evidence .assessment).affected (plainEvidence.setAll noting) plainEvidence = false ∧
      (between .evidence .assessment).affected unstampedEvidence (plainEvidence.setAll noting) =
        false ∧
      (between .evidence .assessment).affected plainEvidence plainEvidence = true ∧
      "link" ∉ plainEvidence.changed (plainEvidence.setAll noting) := by
  obtain ⟨-, hverdict, hback, hignored, hset⟩ :=
    verdict_of_changes .evidence .assessment plainEvidence (plainEvidence.setAll noting)
  have hbookkeeping : DiffersOnlyIn (between .evidence .assessment).ignored plainEvidence
      unstampedEvidence := by decide +kernel
  have honly : DiffersOnlyIn
      ((between .evidence .assessment).harmless ++ (between .evidence .assessment).ignored)
      plainEvidence (plainEvidence.setAll noting) := by decide +kernel
  have hnoted : (between .evidence .assessment).affected plainEvidence
      (plainEvidence.setAll noting) = false :=
    hverdict.2 ⟨⟨"notes", by decide, by decide +kernel⟩, fun field hfield =>
      List.mem_append.1 (honly field hfield)⟩
  refine ⟨hbookkeeping, hnoted, hback.trans hnoted, ?_, by decide +kernel, ?_⟩
  · exact (hignored _ _ hbookkeeping (by decide +kernel)).trans hnoted
  · exact (hset noting "link").2 (by decide)

end ImpactRules

end BulkAssessment
