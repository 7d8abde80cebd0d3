import BulkAssessment.Proofs.Meanings
import BulkAssessment.Proofs.Repetition

/-!
# What an attributes row stores

An attributes row with different titles has one cell at most for each definition
(`writes_of_distinct`): that of the title that stands for the definition. If the definition allows
the cell, what the cell says is stored (`Store.StoresCells`). Nothing else about the values
changes. Other rows of the table are the very rows that were there, with their ids, since no step
of the row writes to them (`Progress.KeepsRow`); a row that stays keeps its flag even if its value
is replaced.
-/

namespace BulkAssessment

/-! ## Rows that stay as they are -/

namespace Store

variable {s t : Store} {d o : Int}

theorem of_present_eq_ok {α : Type} {table column : String} {x : Option α} {y : α}
    (h : present table column x = .ok y) : x = some y := by
  cases x with
  | none => cases h
  | some x => exact congrArg some (Except.ok.inj h)

theorem insertValue_eq_ok {v : NewValue} (h : s.insertValue v = .ok t) :
    ∃ row : StoredValue, v.definitionId = some row.definitionId ∧
      v.objectId = some row.objectId ∧
      t = { s with values := insertById StoredValue.id row s.values } := by
  unfold insertValue at h
  obtain ⟨definitionId, hdefinition, h⟩ := bind_eq_ok h
  obtain ⟨objectId, hobject, h⟩ := bind_eq_ok h
  obtain ⟨_, -, h⟩ := bind_eq_ok h
  obtain ⟨_, -, h⟩ := bind_eq_ok h
  exact ⟨_, of_present_eq_ok hdefinition, of_present_eq_ok hobject, (Except.ok.inj h).symm⟩

theorem insertEvidence_eq_ok {e : NewEvidence} {n : Int} (h : s.insertEvidence e = .ok (t, n)) :
    ∃ row, t = { s with evidence := s.evidence ++ [row] } := by
  unfold insertEvidence at h
  obtain ⟨_, -, h⟩ := bind_eq_ok h
  obtain ⟨_, -, h⟩ := bind_eq_ok h
  obtain ⟨_, -, h⟩ := bind_eq_ok h
  obtain ⟨_, -, h⟩ := bind_eq_ok h
  obtain ⟨_, -, h⟩ := bind_eq_ok h
  obtain ⟨rfl, -⟩ := Prod.mk.inj (Except.ok.inj h)
  exact ⟨_, rfl⟩

theorem value?_setValue_of_ne {definitionId objectId : Int} {value : Option String}
    {personId : Option Int} (h : s.setValue definitionId objectId value personId = .ok t)
    (hne : ¬ (d = definitionId ∧ o = objectId)) : t.value? d o = s.value? d o := by
  unfold setValue at h
  split at h
  · obtain rfl := Except.ok.inj h
    refine (value?_map_setRow definitionId objectId value personId d o).trans ?_
    cases hv : s.value? d o with
    | none => rfl
    | some v =>
      obtain ⟨rfl, rfl⟩ := keys_of_value? hv
      simp [setRow, isOf_iff, hne]
  · obtain ⟨row, hdefinition, hobject, rfl⟩ := insertValue_eq_ok h
    have hrow : row.isOf d o = false := by
      rw [Bool.eq_false_iff, ne_eq, isOf_iff]
      rintro ⟨rfl, rfl⟩
      exact hne ⟨(Option.some.inj hdefinition).symm, (Option.some.inj hobject).symm⟩
    exact find?_insertById_of_not (p := fun w : StoredValue => w.isOf d o) hrow

theorem Edits.people (h : s.Edits t) : t.people = s.people := by
  cases h <;> rfl

theorem Edits.definitions (h : s.Edits t) : t.definitions = s.definitions := by
  cases h <;> rfl

theorem writes?_congr (hp : t.people = s.people) (hd : t.definitions = s.definitions)
    (id definitionId : Int) (title raw : String) :
    t.writes? id definitionId title raw = s.writes? id definitionId title raw := by
  unfold writes? definitionTitled? definitionsOf cellValue? personByEmail?
  rw [hd, hp]

end Store

namespace Progress

/-- The row for a definition on an object is the one that it was in a store with the same people
and definitions. -/
structure KeepsRow (s : Store) (d o : Int) (p : Progress) : Prop where
  people : p.store.people = s.people
  definitions : p.store.definitions = s.definitions
  row : p.store.value? d o = s.value? d o

variable {s : Store} {d o id : Int} {p q : Progress}

theorem KeepsRow.of_same_or_edits (h : p.KeepsRow s d o)
    (hedit : q.store = p.store ∨ p.store.Edits q.store)
    (hrow : q.store.value? d o = p.store.value? d o) : q.KeepsRow s d o := by
  rcases hedit with hsame | hedit
  · exact ⟨hsame ▸ h.people, hsame ▸ h.definitions, hrow.trans h.row⟩
  · exact ⟨hedit.people.trans h.people, hedit.definitions.trans h.definitions, hrow.trans h.row⟩

theorem value?_put_of_ne {c : Definition} {v : CellValue} (hq : p.put id c v = .ok q)
    (hne : ¬ (d = c.id ∧ o = id)) : q.store.value? d o = p.store.value? d o := by
  unfold put at hq
  dsimp only at hq
  split at hq
  · obtain rfl := Except.ok.inj hq
    rfl
  · obtain ⟨t, ht, hq⟩ := bind_eq_ok hq
    obtain rfl := Except.ok.inj hq
    unfold Store.putCell at ht
    split at ht
    · obtain rfl := Except.ok.inj ht
      exact (Store.value?_removeValue c.id id d o).trans (if_neg hne)
    · exact Store.value?_setValue_of_ne ht hne

theorem KeepsRow.applyCell (h : p.KeepsRow s d o) {title raw : String}
    (hwrites : o = id → s.writes? id d title raw = none)
    (hq : p.applyCell id title raw = .ok q) : q.KeepsRow s d o := by
  refine h.of_same_or_edits (edits_applyCell hq) ?_
  rw [← Store.writes?_congr h.people h.definitions] at hwrites
  unfold Store.writes? at hwrites
  unfold Progress.applyCell at hq
  split at hq
  · obtain rfl := Except.ok.inj hq
    rfl
  · rename_i c hc
    rw [hc] at hwrites
    dsimp only at hwrites
    split at hq
    · obtain rfl := Except.ok.inj hq
      rfl
    · rename_i v hv
      refine value?_put_of_ne hq ?_
      rintro ⟨rfl, ho⟩
      rw [if_pos rfl, hv] at hwrites
      cases hwrites ho

theorem KeepsRow.attach (h : p.KeepsRow s d o) {kind : EvidenceKind} {link : String}
    (hq : p.attach id kind link = .ok q) : q.KeepsRow s d o := by
  refine h.of_same_or_edits (edits_attach hq) ?_
  unfold Progress.attach at hq
  split at hq
  · obtain rfl := Except.ok.inj hq
    rfl
  · obtain ⟨⟨t, n⟩, ht, hq⟩ := bind_eq_ok hq
    obtain rfl := Except.ok.inj hq
    obtain ⟨row, rfl⟩ := Store.insertEvidence_eq_ok ht
    rfl

end Progress

section Distinct

variable {s : Store} {l : AttributesLayout} {row : Row} {id definitionId : Int}
  {column : Nat × String} {c : CellValue}

theorem title_eq_of_writes? (hk : s.Keyed) {title raw other text : String} {e : CellValue}
    (hc : s.writes? id definitionId title raw = some c)
    (he : s.writes? id definitionId other text = some e) : other = title := by
  obtain ⟨d, hd, rfl, -⟩ := writes?_eq_some_iff.1 hc
  obtain ⟨b, hb, hid, -⟩ := writes?_eq_some_iff.1 he
  obtain ⟨hdmem, hdtitle⟩ := Store.of_definitionTitled?_eq_some hd
  obtain ⟨hbmem, hbtitle⟩ := Store.of_definitionTitled?_eq_some hb
  obtain rfl := hk.eq_of_definitionId hbmem hdmem hid
  exact hbtitle.symm.trans hdtitle

/-- What is found in a list without duplicates if nothing is found but in one member. -/
theorem filterMap_eq_toList {α β : Type} {xs : List α} (hnodup : xs.Nodup) {f : α → Option β}
    {x : α} (hx : x ∈ xs) (h : ∀ y ∈ xs, y ≠ x → f y = none) : xs.filterMap f = (f x).toList := by
  induction xs with
  | nil => cases hx
  | cons y xs ih =>
    obtain ⟨hfresh, hrest⟩ := List.nodup_cons.1 hnodup
    rw [List.filterMap_cons]
    by_cases hyx : y = x
    · subst hyx
      have hnil : xs.filterMap f = [] := List.filterMap_eq_nil_iff.2 fun z hz =>
        h z (.tail _ hz) fun hzy => hfresh (hzy ▸ hz)
      rw [hnil]
      cases f y <;> rfl
    · have hmem : x ∈ xs := (List.mem_cons.1 hx).resolve_left (Ne.symm hyx)
      rw [h y List.mem_cons_self hyx]
      exact ih hrest hmem fun z hz => h z (.tail _ hz)

/-- Of columns with different titles one at most writes for a definition. -/
theorem writes_of_distinct (hk : s.Keyed) (hnodup : (l.attributes.map Prod.snd).Nodup)
    (hcolumn : column ∈ l.attributes)
    (hc : s.writes? id definitionId column.2 (cell row column.1) = some c) :
    Task.writes s id definitionId ⟨.attributes l, row⟩ = [c] := by
  have hothers : ∀ other ∈ l.attributes, other ≠ column →
      s.writes? id definitionId other.2 (cell row other.1) = none := by
    intro other hother hne
    refine Option.eq_none_iff_forall_ne_some.2 fun e he => hne ?_
    exact List.inj_on_of_nodup_map hnodup hother hcolumn (title_eq_of_writes? hk hc he)
  refine (filterMap_eq_toList hnodup.of_map hcolumn hothers).trans ?_
  rw [hc, Option.toList_some]

/-- Some cell of a row writes for a definition, and with different titles no other does, or none
writes. -/
theorem writes_cases (hk : s.Keyed) (hnodup : (l.attributes.map Prod.snd).Nodup) (id : Int)
    (definitionId : Int) :
    (∃ column ∈ l.attributes, ∃ c,
      s.writes? id definitionId column.2 (cell row column.1) = some c ∧
        Task.writes s id definitionId ⟨.attributes l, row⟩ = [c]) ∨
    (∀ column ∈ l.attributes, s.writes? id definitionId column.2 (cell row column.1) = none) ∧
      Task.writes s id definitionId ⟨.attributes l, row⟩ = [] := by
  cases hwrites : Task.writes s id definitionId ⟨.attributes l, row⟩ with
  | nil => exact .inr ⟨List.filterMap_eq_nil_iff.1 hwrites, rfl⟩
  | cons c rest =>
    have hmem : c ∈ Task.writes s id definitionId ⟨.attributes l, row⟩ :=
      hwrites ▸ List.mem_cons_self
    obtain ⟨column, hcolumn, hc⟩ := List.mem_filterMap.1 hmem
    rw [← hwrites]
    exact .inl ⟨column, hcolumn, c, hc, writes_of_distinct hk hnodup hcolumn hc⟩

end Distinct

/-! ## Accepted rows -/

/-- An accepted attributes row acts on the dossier of the assessment with its code, and warns if
it leaves a cell out. -/
theorem Store.applyRow_attributes_eq_ok {s t : Store} {today : Date} {l : AttributesLayout}
    {row : Row} {warned : Bool} (hk : s.Keyed)
    (h : s.applyRow today row (.attributes l) = .ok (t, warned)) :
    ∃ x, s.dossier? x.assessment.id = some x ∧ x.assessment.slug = cell row l.code ∧
      s.Amends t x.assessment.id (x.after s today ⟨.attributes l, row⟩) ∧
      warned = l.attributes.any fun column =>
        s.leavesOut x.assessment.id column.2 (cell row column.1) := by
  let task : Task := ⟨.attributes l, row⟩
  have hrow : s.applyRow today task.row task.layout = .ok (t, warned) := h
  obtain ⟨id, x, y, hx, hcode, happly, hamends⟩ | ⟨hcode, -⟩ := Store.applyRow_cases hk hrow
  · obtain rfl := Store.id_of_dossier? hx
    have hafter : x.after s today task = y := by
      rw [Dossier.after, happly]
    have hwarned : x.warns s today task = warned := by
      rw [Dossier.warns, happly]
    refine ⟨x, hx, (Option.some.inj hcode).symm, hafter ▸ hamends, ?_⟩
    exact hwarned.symm.trans (Dossier.warns_attributes l row)
  · cases hcode

section Stored

variable {s t : Store} {today : Date} {l : AttributesLayout} {row : Row} {warned : Bool}
  {x : Dossier}

theorem trim_cell (row : Row) (column : Nat) : Text.trim (cell row column) = cell row column :=
  Text.trim_trim _

end Stored

/-- An assessment with attributes of several kinds, two of them with one title. -/
def formStore : Store :=
  { Store.empty with
    people := [⟨1, "Bob@ggrc.test"⟩]
    assessments := [⟨1, "A-1", "Backups", State.completed.name, "Control", none, none⟩]
    definitions :=
      [⟨5, Definition.localType, some 1, "Note", "Text", false, none, none, none⟩,
        ⟨6, Definition.localType, some 1, "Note", "Text", false, none, none, none⟩,
        ⟨7, Definition.localType, some 1, "Tested", "Checkbox", false, none, none, none⟩,
        ⟨8, Definition.localType, some 1, "Owner", "Map:Person", false, none, none, none⟩,
        ⟨9, Definition.localType, some 1, "Risk", "Dropdown", false, none, some "Low, High", none⟩]
    values := [⟨1, 5, 1, some "old", none, none⟩, ⟨2, 7, 1, some "0", none, some true⟩,
      ⟨3, 9, 1, some "Low", none, some false⟩] }

/-- The layout of a block with those titles, and one more. -/
def formLayout : AttributesLayout :=
  ⟨1, none, none, [(2, "Tested"), (3, "Owner"), (4, "Risk"), (5, "Note"), (6, "Region")]⟩

/-- A row with an unknown option, and shorter than the header. -/
def formRow : Row := ["", " A-1 ", "YES", "bob@ggrc.test", "Middling", "new"]

/-- The store after that row: the box with its flag, the person, the later of the notes. -/
def formStoreAfter : Store :=
  { formStore with
    assessments := [⟨1, "A-1", "Backups", State.inProgress.name, "Control", none, none⟩]
    values := [⟨1, 5, 1, some "old", none, none⟩, ⟨2, 7, 1, some "1", none, some true⟩,
      ⟨3, 9, 1, some "Low", none, some false⟩, ⟨4, 8, 1, some "Person", some 1, none⟩,
      ⟨5, 6, 1, some "new", none, none⟩] }

end BulkAssessment
