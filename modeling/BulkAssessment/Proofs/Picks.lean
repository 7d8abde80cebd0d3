import BulkAssessment.Proofs.Effects

/-!
# Options are picked once and for all

The options that the parts of a cell pick are trimmed and have no commas, and none of them is empty
since the parts are not blank. So a text in which they are joined has them for its parts
(`filledPieces_join_picks`), and each of them picks itself (`FirstFit.self`). What a cell is matched
to is therefore matched to itself (`matchOptions?_join_picks`), and it depends on the cell only up
to the case of its parts, the blanks around them and parts that are blank (`SameParts`).

What an import stores for a definition with options is such a text (`Definition.Fixes`). A row
leaves a value as it is or stores what one of its cells says (`Run.content_apply_cases`), so after
any rows of any imports all values that were not there before are fixed points (`Store.FixesNew`).
-/

namespace BulkAssessment

/-- Parts that are the same up to their case, the blanks around them, and parts that are blank. -/
inductive SameParts : List String → List String → Prop where
  | nil : SameParts [] []
  | blankLeft (part : String) {parts others : List String} (hblank : Text.IsBlankText part)
      (h : SameParts parts others) : SameParts (part :: parts) others
  | blankRight (other : String) {parts others : List String} (hblank : Text.IsBlankText other)
      (h : SameParts parts others) : SameParts parts (other :: others)
  | cons (part other : String) {parts others : List String}
      (hsame : Text.sameFolded (Text.trim part) (Text.trim other) = true)
      (h : SameParts parts others) : SameParts (part :: parts) (other :: others)

/-- The attribute has options, one or several of which are picked. -/
def Definition.HasOptions (d : Definition) : Prop :=
  AttributeKind.ofName d.typeName ∈ [.dropdown, .multiselect]

instance (d : Definition) : Decidable d.HasOptions :=
  inferInstanceAs (Decidable (_ ∈ _))

/-- A text is a fixed point of a definition: it is matched to itself, and as a cell it says
itself. -/
structure Definition.Fixes (d : Definition) (text : String) : Prop where
  matched : matchOptions? d.options text = some text
  read : ∀ s : Store, s.cellValue? d text = some (.ofText text)

/-- The values that definitions with options have in a later store are as they were, or fixed
points. -/
def Store.FixesNew (s t : Store) : Prop :=
  ∀ d ∈ s.definitions, d.HasOptions → ∀ objectId v, t.value? d.id objectId = some v →
    (s.value? d.id objectId).map StoredValue.content = some v.content ∨
      ∃ text, v.content = .ofText text ∧ d.Fixes text

/-! ## What picks an option -/

section Fits

variable {options : Option String} {part other pick list : String} {parts picks : List String}

theorem firstFit_congr (h : Text.sameFolded part other = true) :
    FirstFit options part pick ↔ FirstFit options other pick := by
  have hfits (option : String) : Text.sameFolded option part = Text.sameFolded option other := by
    rw [Bool.eq_iff_iff, Text.sameFolded_iff, Text.sameFolded_iff, Text.sameFolded_iff.1 h]
  simp only [FirstFit, hfits]

theorem FirstFit.same (h : FirstFit options part pick) : Text.sameFolded pick part = true := by
  obtain ⟨-, -, -, -, -, hfits, -⟩ := h
  exact hfits

theorem FirstFit.mem (h : FirstFit options part pick) :
    ∃ list ∈ options, pick ∈ optionsOf list := by
  obtain ⟨list, before, after, hlist, hsplit, -, -⟩ := h
  exact ⟨list, hlist, hsplit ▸ List.mem_append_right before List.mem_cons_self⟩

/-- An option that is picked picks itself. -/
theorem FirstFit.self (h : FirstFit options part pick) : FirstFit options pick pick :=
  (firstFit_congr h.same).2 h

theorem exists_firstFit_iff : (∃ pick, FirstFit options part pick) ↔
    ∃ list ∈ options, ∃ option ∈ optionsOf list, Text.sameFolded option part = true := by
  constructor
  · rintro ⟨pick, hpick⟩
    obtain ⟨list, hlist, hmem⟩ := hpick.mem
    exact ⟨list, hlist, pick, hmem, hpick.same⟩
  · rintro ⟨list, hlist, option, hmem, hfits⟩
    have hsome : ((optionsOf list).find? fun x => Text.sameFolded x part).isSome = true :=
      List.find?_isSome.2 ⟨option, hmem, hfits⟩
    obtain ⟨pick, hpick⟩ := Option.isSome_iff_exists.1 hsome
    obtain ⟨hfirst, before, after, hsplit, hearlier⟩ := List.find?_eq_some_iff_append.1 hpick
    refine ⟨pick, list, before, after, hlist, hsplit, hfirst, fun x hx => ?_⟩
    simpa using hearlier x hx

/-! ## Picked options as parts -/

theorem of_mem_optionsOf (h : pick ∈ optionsOf list) :
    Text.trim pick = pick ∧ ',' ∉ pick.toList := by
  obtain ⟨piece, hpiece, rfl⟩ := List.mem_map.1 h
  exact ⟨Text.trim_trim piece, fun hcomma =>
    Text.not_mem_of_mem_pieces hpiece ((Text.trim_sublist piece).subset hcomma)⟩

theorem FirstFit.not_mem (h : FirstFit options part pick) : ',' ∉ pick.toList := by
  obtain ⟨list, -, hmem⟩ := h.mem
  exact (of_mem_optionsOf hmem).2

theorem FirstFit.trim_eq (h : FirstFit options part pick) : Text.trim pick = pick := by
  obtain ⟨list, -, hmem⟩ := h.mem
  exact (of_mem_optionsOf hmem).1

theorem firstFit_self_of_mem (h : List.Forall₂ (FirstFit options) parts picks) :
    ∀ pick ∈ picks, FirstFit options pick pick := by
  induction h with
  | nil => exact List.forall_mem_nil _
  | cons hpick _ ih => exact List.forall_mem_cons.2 ⟨hpick.self, ih⟩

theorem ne_empty_of_mem_picks (h : List.Forall₂ (FirstFit options) parts picks)
    (hparts : ∀ part ∈ parts, part ≠ "") : ∀ pick ∈ picks, pick ≠ "" := by
  induction h with
  | nil => exact List.forall_mem_nil _
  | cons hpick _ ih =>
    obtain ⟨hpart, hrest⟩ := List.forall_mem_cons.1 hparts
    have hne := (not_congr (Text.eq_empty_iff_of_sameFolded hpick.same)).2 hpart
    exact List.forall_mem_cons.2 ⟨hne, ih hrest⟩

/-- The pieces of a text in which options are joined are those options, if there are any. -/
theorem pieces_join_picks (h : List.Forall₂ (FirstFit options) parts picks) (hne : picks ≠ []) :
    Text.pieces ',' (Text.join "," picks) = picks :=
  Text.pieces_join hne fun pick hpick => (firstFit_self_of_mem h pick hpick).not_mem

/-- The options that filled parts pick are filled parts again. -/
theorem filledPieces_join_picks (h : List.Forall₂ (FirstFit options) parts picks)
    (hparts : ∀ part ∈ parts, part ≠ "") :
    Text.filledPieces ',' (Text.join "," picks) = picks := by
  refine (Text.filledPieces_join ',' picks).trans (Text.flatMap_eq_self fun pick hpick => ?_)
  have hself := firstFit_self_of_mem h pick hpick
  exact Text.filledPieces_eq_singleton hself.not_mem hself.trim_eq
    (ne_empty_of_mem_picks h hparts pick hpick)

/-- So the text in which they are joined is matched to itself. -/
theorem matchOptions?_join_picks (h : List.Forall₂ (FirstFit options) parts picks)
    (hparts : ∀ part ∈ parts, part ≠ "") :
    matchOptions? options (Text.join "," picks) = some (Text.join "," picks) := by
  refine matchOptions?_eq_some_iff.2 ⟨picks, ?_, rfl⟩
  rw [filledPieces_join_picks h hparts]
  exact List.forall₂_same.2 (firstFit_self_of_mem h)

end Fits

/-! ## Matching the parts of a cell -/

section Matching

variable {options : Option String} {cell other result : String} {parts others picks : List String}

theorem exists_picks_iff : (∃ picks, List.Forall₂ (FirstFit options) parts picks) ↔
    ∀ part ∈ parts, ∃ pick, FirstFit options part pick := by
  induction parts with
  | nil => exact iff_of_true ⟨[], .nil⟩ (List.forall_mem_nil _)
  | cons part parts ih =>
    rw [List.forall_mem_cons, ← ih]
    constructor
    · rintro ⟨picks, hpicks⟩
      obtain ⟨pick, picks, hpick, hrest, -⟩ := List.forall₂_cons_left_iff.1 hpicks
      exact ⟨⟨pick, hpick⟩, picks, hrest⟩
    · rintro ⟨⟨pick, hpick⟩, picks, hrest⟩
      exact ⟨pick :: picks, .cons hpick hrest⟩

theorem isSome_matchOptions?_iff : (matchOptions? options cell).isSome = true ↔
    ∀ part ∈ Text.filledPieces ',' cell, ∃ list ∈ options, ∃ option ∈ optionsOf list,
      Text.sameFolded option part = true := by
  simp only [← exists_firstFit_iff, ← exists_picks_iff, Option.isSome_iff_exists,
    matchOptions?_eq_some_iff]
  constructor
  · rintro ⟨-, picks, hpicks, -⟩
    exact ⟨picks, hpicks⟩
  · rintro ⟨picks, hpicks⟩
    exact ⟨_, picks, hpicks, rfl⟩

theorem SameParts.forall₂_filled (h : SameParts parts others) :
    List.Forall₂ (fun part other => Text.sameFolded part other = true)
      ((parts.map Text.trim).filter fun part => !part.isEmpty)
      ((others.map Text.trim).filter fun other => !other.isEmpty) := by
  induction h with
  | nil => exact .nil
  | blankLeft part hblank _ ih =>
    rw [List.map_cons, Text.trim_eq_empty_iff.2 hblank]
    exact ih
  | blankRight other hblank _ ih =>
    rw [List.map_cons, Text.trim_eq_empty_iff.2 hblank]
    exact ih
  | cons part other hsame _ ih =>
    have hempty : (Text.trim part).isEmpty = (Text.trim other).isEmpty := by
      rw [Bool.eq_iff_iff, String.isEmpty_iff, String.isEmpty_iff]
      exact Text.eq_empty_iff_of_sameFolded hsame
    rw [List.map_cons, List.map_cons, List.filter_cons, List.filter_cons, hempty]
    split
    · exact .cons hsame ih
    · exact ih

theorem forall₂_firstFit_congr
    (h : List.Forall₂ (fun part other => Text.sameFolded part other = true) parts others) :
    List.Forall₂ (FirstFit options) parts picks ↔
      List.Forall₂ (FirstFit options) others picks := by
  induction h generalizing picks with
  | nil => rfl
  | cons hsame _ ih =>
    simp only [List.forall₂_cons_left_iff, firstFit_congr hsame, ih]

/-- Case, blanks around parts and blank parts do not count. -/
theorem matchOptions?_congr (h : SameParts (Text.pieces ',' cell) (Text.pieces ',' other)) :
    matchOptions? options other = matchOptions? options cell := by
  refine Option.ext fun result => ?_
  rw [matchOptions?_eq_some_iff, matchOptions?_eq_some_iff]
  exact exists_congr fun picks => and_congr_left fun _ =>
    (forall₂_firstFit_congr h.forall₂_filled).symm

end Matching

/-! ## What imports store -/

section Stored

variable {s : Store} {d : Definition} {raw : String} {c : CellValue}

theorem fixes_empty (hd : d.HasOptions) : d.Fixes "" := by
  have hnone : List.Forall₂ (FirstFit d.options) [] [] := .nil
  have hmatch := matchOptions?_join_picks hnone (List.forall_mem_nil _)
  rw [Text.join] at hmatch
  refine ⟨hmatch, fun s => ?_⟩
  unfold Store.cellValue?
  rcases List.mem_pair.1 hd with hkind | hkind <;> rw [hkind] <;> rfl

theorem fixes_pick (hkind : AttributeKind.ofName d.typeName = .dropdown) {pick : String}
    (hraw : raw ≠ "") (hpick : FirstFit d.options raw pick) : d.Fixes pick := by
  have hone : List.Forall₂ (FirstFit d.options) [raw] [pick] := .cons hpick .nil
  have hmatch : matchOption? d.options pick = some pick := by
    rw [matchOption?_eq_some_iff, hpick.trim_eq]
    exact hpick.self
  have hmatches := matchOptions?_join_picks hone (List.forall_mem_singleton.2 hraw)
  rw [Text.join] at hmatches
  refine ⟨hmatches, fun s => ?_⟩
  unfold Store.cellValue?
  rw [hkind, hmatch]
  exact ite_self _

theorem fixes_picks (hkind : AttributeKind.ofName d.typeName = .multiselect) {picks : List String}
    (hpicks : List.Forall₂ (FirstFit d.options) (Text.filledPieces ',' raw) picks) :
    d.Fixes (Text.join "," picks) := by
  have hmatch := matchOptions?_join_picks hpicks fun _ => Text.ne_empty_of_mem_filledPieces
  refine ⟨hmatch, fun s => ?_⟩
  unfold Store.cellValue?
  rw [hkind, hmatch]
  exact ite_self _

/-- What a cell says for a definition with options is a fixed point. -/
theorem fixes_of_cellValue? (hd : d.HasOptions) (hraw : Text.trim raw = raw)
    (h : s.cellValue? d raw = some c) : ∃ text, c = .ofText text ∧ d.Fixes text := by
  unfold Definition.HasOptions at hd
  cases Store.says_of_cellValue? hraw h with
  | option hkind hfilled pick hpick => exact ⟨pick, rfl, fixes_pick hkind hfilled hpick⟩
  | options hkind hfilled picks hpicks => exact ⟨_, rfl, fixes_picks hkind hpicks⟩
  | unselected hkind hempty => exact ⟨raw, rfl, hempty ▸ fixes_empty hd⟩
  | checked hkind hword => simp [hkind] at hd
  | unchecked hkind hword => simp [hkind] at hd
  | nobody hkind hempty => simp [hkind] at hd
  | person hkind hfilled p hp hemail => simp [hkind] at hd
  | text hkind => simp_all

theorem CellValue.row?_ofText (text : String) : (ofText text).row? = some (ofText text) :=
  if_neg nofun

/-- A row leaves a value as it is or stores what one of its cells says. -/
theorem Run.content_apply_cases {r : Run} (hk : r.store.Keyed) (today : Date) (task : Task)
    (definitionId objectId : Int) :
    ((r.apply today task).store.value? definitionId objectId).map StoredValue.content =
        (r.store.value? definitionId objectId).map StoredValue.content ∨
      ∃ c ∈ task.writes r.store objectId definitionId,
        ((r.apply today task).store.value? definitionId objectId).map StoredValue.content =
          c.row? := by
  simp only [← Store.content_heldBy]
  cases ha : r.store.assessment? objectId with
  | none => exact .inl (by rw [(sameOn_apply_of_unknown hk ha today task).held])
  | some a =>
    obtain rfl := (Store.mem_of_assessment?_eq_some ha).2
    have hx := Store.dossier?_of_assessment? ha
    rw [← (Store.dossier?_eq_some_iff.1 (dossier?_apply today hk hx task)).2.1]
    split
    · rw [Dossier.held_after]
      rcases foldl_overwrite_cases (task.writes r.store a.id definitionId)
        (r.store.heldBy a.id definitionId) with hkept | hstored
      · exact .inl (congrArg _ hkept)
      · exact .inr hstored
    · exact .inl rfl

theorem Run.fixesNew_apply {r : Run} (hk : r.store.Keyed) (hframe : s.SameFrame r.store)
    (h : s.FixesNew r.store) (today : Date) (task : Task) :
    s.FixesNew (r.apply today task).store := by
  intro d hd hoptions objectId v hv
  rcases content_apply_cases hk today task d.id objectId with hkept | ⟨c, hc, hstored⟩
  · rw [hv] at hkept
    obtain ⟨w, hw, hcontent⟩ := Option.map_eq_some_iff.1 hkept.symm
    exact hcontent ▸ h d hd hoptions objectId w hw
  · right
    obtain ⟨b, hb, hid, column, hvalue⟩ := Task.exists_cell_of_mem_writes hc
    have hdr : d ∈ r.store.definitions := hframe.definitions ▸ hd
    obtain rfl := hk.eq_of_definitionId hb hdr hid
    obtain ⟨text, rfl, hfixes⟩ := fixes_of_cellValue? hoptions (trim_cell _ _) hvalue
    rw [hv, CellValue.row?_ofText] at hstored
    exact ⟨text, Option.some.inj hstored, hfixes⟩

theorem Imports.fixesNew (hk : s.Keyed) {jobs : List (Date × List Block)} {m : Imports}
    (hm : (Imports.start s jobs).Reaches m) : s.FixesNew m.store := by
  have hstart : s.SameFrame s ∧ s.FixesNew s :=
    ⟨.refl s, fun d _ _ objectId v hv => .inl (by rw [hv]; rfl)⟩
  have hkept := Imports.reaches_keeps (P := fun t => s.SameFrame t ∧ s.FixesNew t)
    (fun r hkr hr today task => ⟨hr.1.trans (Run.sameFrame_apply today hkr task),
      Run.fixesNew_apply hkr hr.1 hr.2 today task⟩) hm hk hstart
  exact hkept.2.2

end Stored

/-- A cell is matched exactly if every part of it that is not blank fits an option. The text that it
is matched to has for its pieces the first options that these parts fit, in their order, and is
empty if there are none; it is matched to itself. Cells that are the same up to case, blanks around
parts and blank parts are matched to the same. And whatever rows are applied by imports, what a
definition with options has that it did not have before is such a fixed point. -/
theorem options_canonical (options : Option String) (cell : String) :
    ((matchOptions? options cell).isSome = true ↔
      ∀ part ∈ Text.filledPieces ',' cell, ∃ list ∈ options, ∃ option ∈ optionsOf list,
        Text.sameFolded option part = true) ∧
    (∀ result, matchOptions? options cell = some result →
      (Text.filledPieces ',' cell = [] → result = "") ∧
      (Text.filledPieces ',' cell ≠ [] →
        List.Forall₂ (FirstFit options) (Text.filledPieces ',' cell) (Text.pieces ',' result)) ∧
      matchOptions? options result = some result) ∧
    (∀ other, SameParts (Text.pieces ',' cell) (Text.pieces ',' other) →
      matchOptions? options other = matchOptions? options cell) ∧
    ∀ s : Store, s.Keyed → ∀ (jobs : List (Date × List Block)) (m : Imports),
      (Imports.start s jobs).Reaches m → s.FixesNew m.store := by
  refine ⟨isSome_matchOptions?_iff, fun result h => ?_, fun other => matchOptions?_congr,
    fun s hk jobs m hm => Imports.fixesNew hk hm⟩
  obtain ⟨picks, hpicks, rfl⟩ := matchOptions?_eq_some_iff.1 h
  refine ⟨fun hnil => ?_, fun hne => ?_, ?_⟩
  · rw [hnil, List.forall₂_nil_left_iff] at hpicks
    rw [hpicks]
    rfl
  · have hsome : picks ≠ [] := by
      rintro rfl
      exact hne (List.forall₂_nil_right_iff.1 hpicks)
    rwa [pieces_join_picks hpicks hsome]
  · exact matchOptions?_join_picks hpicks fun _ => Text.ne_empty_of_mem_filledPieces

/-- Options with two spellings of one of them, and an empty one. -/
def riskOptions : Option String := some "Low, high ,HIGH,,Nil"

/-- Several of them can be picked. -/
def risks : Definition :=
  ⟨5, Definition.localType, some 1, "Risks", "Multiselect", false, none, riskOptions, none⟩

/-- An assessment with an attribute of that sort. -/
def pickingStore : Store :=
  { Store.empty with
    assessments := [⟨1, "A-1", "Backups", State.inProgress.name, "Control", none, none⟩]
    definitions := [risks] }

/-- A block with a cell of two parts that are not blank. -/
def pickingBlock : Block :=
  ⟨[Column.assessment, Column.code, "Risks"], [["", "A-1", " ,hIGH, low ,,"]]⟩

/-- The first of the two spellings is stored, and stays what it is. -/
theorem options_canonical_picked :
    matchOptions? riskOptions " ,hIGH, low ,," = some "high,Low" ∧
      matchOptions? riskOptions "high,Low" = some "high,Low" ∧
      matchOptions? riskOptions "HIGH,LOW " = some "high,Low" ∧
      (pickingStore.importBlocks ⟨2024, 5, 17⟩ [pickingBlock]).store.value? 5 1 =
        some ⟨1, 5, 1, some "high,Low", none, none⟩ ∧
      risks.Fixes "high,Low" := by
  have hkeyed : pickingStore.Keyed := ⟨by decide, by decide, by decide⟩
  have hmatch : matchOptions? riskOptions " ,hIGH, low ,," = some "high,Low" := by decide +kernel
  have hvalue : (pickingStore.importBlocks ⟨2024, 5, 17⟩ [pickingBlock]).store.value? 5 1 =
      some ⟨1, 5, 1, some "high,Low", none, none⟩ := by decide +kernel
  have hreach := Imports.reaches_importBlocks pickingStore ⟨2024, 5, 17⟩ [pickingBlock]
  have hparts : SameParts (Text.pieces ',' " ,hIGH, low ,,") (Text.pieces ',' "HIGH,LOW ") := by
    have hcell : Text.pieces ',' " ,hIGH, low ,," = [" ", "hIGH", " low ", "", ""] := by
      decide +kernel
    have hother : Text.pieces ',' "HIGH,LOW " = ["HIGH", "LOW "] := by decide +kernel
    have hblank : Text.IsBlankText "" := by simp [Text.IsBlankText]
    rw [hcell, hother]
    refine .blankLeft _ (Text.trim_eq_empty_iff.1 (by decide +kernel)) ?_
    refine .cons _ _ (by decide +kernel) (.cons _ _ (by decide +kernel) ?_)
    exact .blankLeft _ hblank (.blankLeft _ hblank .nil)
  obtain ⟨-, hresult, hsame, hstored⟩ := options_canonical riskOptions " ,hIGH, low ,,"
  refine ⟨hmatch, (hresult _ hmatch).2.2, (hsame _ hparts).trans hmatch, hvalue, ?_⟩
  have hnew := hstored pickingStore hkeyed _ _ hreach
  dsimp only at hnew
  rcases hnew risks List.mem_cons_self (by decide) 1 _ hvalue with hkept | ⟨text, htext, hfixes⟩
  · cases hkept
  · obtain rfl : "high,Low" = text := Option.some.inj (congrArg CellValue.value htext)
    exact hfixes

end BulkAssessment
