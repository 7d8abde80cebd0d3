import BulkAssessment.Proofs.Comments

/-!
# Blocks that are read back

The builder and the importer share nothing but the names of the columns. The builder puts the
values of a stub under their titles, whatever the titles are, and joins its links by line breaks;
the importer looks each column up by name, takes the blanks off a cell and cuts it into lines.
Together they give back what the stubs hold (`request_read_back`): a title that is not the name of
a fixed column has one column of its own, and the lines of a cell are those of the links that were
joined, also if a link has line breaks and blanks itself.

Evidence and comments come along with values, so no stub that has any goes without a row.
-/

namespace BulkAssessment

/-! ## Blocks that have rows -/

namespace Block

variable {header : Row} {rows : List Row} {b : Block}

theorem ofRows?_eq_none_iff : ofRows? header rows = none ↔ rows = [] := by
  simp [ofRows?]

theorem of_ofRows?_eq_some (h : ofRows? header rows = some b) : b = ⟨header, rows⟩ := by
  unfold ofRows? at h
  split at h
  · cases h
  · exact (Option.some.inj h).symm

theorem filter_attributeColumns {titles : List String} (hnodup : titles.Nodup) {title : String}
    (h : title ∈ titles) (hfree : title ∉ fixedColumns) (start : Nat) :
    ∃ i, titles[i]? = some title ∧
      (attributeColumns start titles).filter (fun column => column.2 == title) =
        [(i + start, title)] := by
  have hkeys : ((attributeColumns start titles).map Prod.snd).Nodup := by
    rw [titles_attributeColumns]
    exact hnodup.filter _
  have hmem : title ∈ (attributeColumns start titles).map Prod.snd := by
    rw [titles_attributeColumns]
    exact List.mem_filter.2 ⟨h, decide_eq_true hfree⟩
  obtain ⟨column, hcolumn, rfl⟩ := List.mem_map.1 hmem
  obtain ⟨i, hi, hget⟩ := getElem?_of_mem_attributeColumns hcolumn
  have honly : ∀ other ∈ attributeColumns start titles, (other.2 == column.2) = true →
      other = column := fun other hother hsame =>
    List.inj_on_of_nodup_map hkeys hother hcolumn (by simpa using hsame)
  refine ⟨i, hget, ?_⟩
  rw [filter_eq_of_forall_eq hkeys.of_map honly, if_pos ⟨hcolumn, beq_self_eq_true _⟩, ← hi]

end Block

/-! ## Rows -/

/-- Cutting the joined links of a cell into lines gives the lines of each link. -/
theorem evidenceLines_trim_join (links : List String) :
    evidenceLines (Text.trim (Text.join "\n" links)) = links.flatMap evidenceLines :=
  (Text.filledPieces_trim '\n' _).trans (Text.filledPieces_join '\n' links)

/-- Read through the layout of its block, the row of a stub gives back what the stub holds. -/
structure Stub.ReadBack (titles : List String) (header : Row) (l : AttributesLayout)
    (stub : Stub) (row : Row) : Prop where
  length : row.length = header.length
  key : (BlockLayout.attributes l).key row = Text.trim stub.slug
  urls : evidenceLines (cellOf row l.urls) = stub.urls.flatMap evidenceLines
  files : evidenceLines (cellOf row l.files) = stub.files.flatMap evidenceLines
  /-- Each title has one column, with the value of the stub or nothing. -/
  value : ∀ title ∈ titles, title ∉ Block.fixedColumns → ∃ column,
    l.attributes.filter (fun c => c.2 == title) = [(column, title)] ∧
      cell row column = Text.trim ((stub.value? title).getD "")

/-- Read through the layout of its block, the row of a comment gives back its text and the id of
its definition. -/
structure CommentRecord.ReadBack (l : CommentLayout) (c : CommentRecord) (row : Row) : Prop where
  description : cell row l.description = Text.trim c.description
  /-- An id is read back if 64 bits hold it. -/
  definition : Text.InRange64 c.definitionId →
    Text.readId? (cell row l.definition) = some c.definitionId

theorem CommentRecord.readBack (c : CommentRecord) :
    c.ReadBack ⟨1, 2⟩ (Assembly.commentRow c) where
  description := rfl
  definition h := by rw [c.cell_definition, Text.readId?_intText h]

namespace Assembly

variable {a : Assembly} {b : Block}

theorem readBack_attributesRow (hnodup : a.titles.Nodup) (stub : Stub) :
    stub.ReadBack a.titles (Block.fixedColumns ++ a.titles)
      ⟨1, some 2, some 3, Block.attributeColumns 4 a.titles⟩ (a.attributesRow stub) where
  length := by simp [attributesRow, Block.fixedColumns]
  key := rfl
  urls := evidenceLines_trim_join stub.urls
  files := evidenceLines_trim_join stub.files
  value title h hfree := by
    obtain ⟨i, hget, hcolumn⟩ := Block.filter_attributeColumns hnodup h hfree 4
    exact ⟨i + 4, hcolumn, cell_attributesRow hget stub⟩

/-! ## The blocks of an assembly -/

/-- The stubs that have values. -/
def valued (a : Assembly) : List Stub :=
  a.registry.toList.filter fun stub => !stub.values.isEmpty

theorem mem_valued {stub : Stub} :
    stub ∈ a.valued ↔ stub ∈ a.registry.toList ∧ stub.values ≠ [] := by
  simp [valued]

/-- What the import reads of the blocks of an assembly is what its stubs hold. -/
structure ReadBack (a : Assembly) : Prop where
  /-- The attributes block is recognized and has a row for each stub with values. -/
  attributes : ∀ b, a.attributesBlock? = some b → ∃ l, b.layout? = some (.attributes l) ∧
    List.Forall₂ (Stub.ReadBack a.titles b.header l) a.valued b.rows
  no_attributes : a.attributesBlock? = none ↔ a.valued = []
  /-- The comments block is recognized and has a row for each comment. -/
  comments : ∀ b, a.commentsBlock? = some b → ∃ l, b.layout? = some (.comment l) ∧
    List.Forall₂ (CommentRecord.ReadBack l) (a.registry.toList.flatMap Stub.comments) b.rows
  no_comments : a.commentsBlock? = none ↔ a.registry.toList.flatMap Stub.comments = []

/-- Titles that differ, none of them `State`, are all that it takes. -/
theorem readBack (hnodup : a.titles.Nodup) (hstate : Column.state ∉ a.titles) : a.ReadBack where
  attributes b hb := by
    obtain rfl := Block.of_ofRows?_eq_some hb
    have hlayout := layoutOf?_attributes a.titles
    rw [attributesLayout, findIdx?_eq_none hstate] at hlayout
    refine ⟨_, hlayout, List.forall₂_map_right_iff.2 (List.forall₂_same.2 fun stub _ => ?_)⟩
    exact readBack_attributesRow hnodup stub
  no_attributes := Block.ofRows?_eq_none_iff.trans List.map_eq_nil_iff
  comments b hb := by
    obtain rfl := Block.of_ofRows?_eq_some hb
    refine ⟨_, layoutOf?_comments, List.forall₂_map_right_iff.2 (List.forall₂_same.2 ?_)⟩
    exact fun c _ => c.readBack
  no_comments := Block.ofRows?_eq_none_iff.trans List.map_eq_nil_iff

/-- The import reads a row that gives back what a stub holds. -/
def Carries (a : Assembly) (stub : Stub) : Prop :=
  ∃ b l, a.attributesBlock? = some b ∧ b.layout? = some (.attributes l) ∧
    ∃ row ∈ b.rows, stub.ReadBack a.titles b.header l row

/-- No stub with values goes without a row. -/
theorem ReadBack.carries (h : a.ReadBack) {stub : Stub} (hstub : stub ∈ a.registry.toList)
    (hvalues : stub.values ≠ []) : a.Carries stub := by
  have hmem : stub ∈ a.valued := mem_valued.2 ⟨hstub, hvalues⟩
  obtain ⟨b, hb⟩ := Option.ne_none_iff_exists'.1 fun hnone =>
    List.ne_nil_of_mem hmem (h.no_attributes.1 hnone)
  obtain ⟨l, hl, hrows⟩ := h.attributes b hb
  obtain ⟨i, hi, rfl⟩ := List.getElem_of_mem hmem
  have hlt : i < b.rows.length := hrows.length_eq ▸ hi
  exact ⟨b, l, hb, hl, b.rows[i], List.getElem_mem hlt, hrows.get hi hlt⟩

end Assembly

/-! ## Requests -/

variable {people : PeopleIndex} {request : BulkRequest} {id : Int}

/-- Evidence and comments come along with values. -/
theorem BulkRequest.values_collect_ne_nil (h : (request.collect people id).urls ≠ [] ∨
    (request.collect people id).files ≠ [] ∨ (request.collect people id).comments ≠ []) :
    (request.collect people id).values ≠ [] := by
  intro hnil
  have hempty : (request.collect people id).values.isEmpty = !request.hasValues id :=
    values_collect_isEmpty
  have hnone : request.hasValues id = false := by simpa [hnil] using hempty
  rw [collect_of_not_hasValues hnone] at h
  rcases h with h | h | h <;> exact h rfl

/-- What the import reads of the blocks of a request without the title `State` is what the request
says: of the attributes block the stubs with values, and of the comments block the comments in the
order in which they are submitted. No stub with evidence or comments goes without a row. -/
theorem request_read_back (people : PeopleIndex) (request : BulkRequest)
    (hstate : ∀ v ∈ request.submissions, v.title ≠ Column.state) :
    (Assembly.ofRequest people request).ReadBack ∧
      (Assembly.ofRequest people request).registry.toList.flatMap Stub.comments =
        request.named.flatMap request.commentsOf ∧
      ∀ stub ∈ (Assembly.ofRequest people request).registry.toList,
        stub.urls ≠ [] ∨ stub.files ≠ [] ∨ stub.comments ≠ [] →
          (Assembly.ofRequest people request).Carries stub := by
  have htitles : Column.state ∉ (Assembly.ofRequest people request).titles := by
    intro hmem
    obtain ⟨v, hv, htitle⟩ := List.mem_map.1 (Keyed.mem_firsts.1 hmem)
    exact hstate v hv htitle
  have hread := Assembly.readBack (Keyed.nodup_firsts _) htitles
  refine ⟨hread, ?_, fun stub hstub hattached => ?_⟩
  · rw [Registry.toList_ofRequest, List.flatMap_map]
    simp only [BulkRequest.comments_collect]
  · refine hread.carries hstub ?_
    rw [Registry.toList_ofRequest] at hstub
    obtain ⟨id, -, rfl⟩ := List.mem_map.1 hstub
    exact BulkRequest.values_collect_ne_nil hattached

/-- A request with a title that is the name of a fixed column, links with line breaks and blanks, a
comment, and an assessment that nothing is submitted for. -/
def raggedRequest : BulkRequest :=
  ⟨[2], [⟨1, " A-1 ",
    [⟨.string "B-2", Column.code, "Text", some 1, 5,
        some ⟨none, [" http://a \n\n http://b", "\n"], []⟩⟩,
      ⟨.string " done ", "Note", "Text", some 1, 6, some ⟨some (some " seen "), [], []⟩⟩]⟩]⟩

/-- The row of the first assessment has its code, the two links and the note. -/
theorem request_read_back_ragged :
    ∃ b l row, (Assembly.ofRequest ⟨[]⟩ raggedRequest).attributesBlock? = some b ∧
      b.layout? = some (.attributes l) ∧ row ∈ b.rows ∧ cell row l.code = "A-1" ∧
      evidenceLines (cellOf row l.urls) = ["http://a", "http://b"] ∧
      ∃ column, l.attributes.filter (fun c => c.2 == "Note") = [(column, "Note")] ∧
        cell row column = "done" := by
  obtain ⟨-, -, hcarried⟩ := request_read_back ⟨[]⟩ raggedRequest (by decide)
  obtain ⟨b, l, hb, hl, row, hrow, hread⟩ := hcarried (raggedRequest.collect ⟨[]⟩ 1) (by decide)
    (Or.inl (by decide))
  obtain ⟨column, hcolumn, hcell⟩ := hread.value "Note" (by decide) (by decide)
  exact ⟨b, l, row, hb, hl, hrow, hread.key.trans (by decide), hread.urls.trans (by decide),
    column, hcolumn, hcell.trans (by decide)⟩

end BulkAssessment
