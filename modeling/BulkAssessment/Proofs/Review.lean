import BulkAssessment.Proofs.Rows

/-!
# Completion and review

What a state row makes of a status depends on two of its cells, on the status and on whether
the mandatory values are there (`Order.obey`). So the status that completion leaves an
assessment with comes from the orders that reach the assessment, one after the other:

* if `State` is one of the titles under which values are submitted, then the rows that should
  store the values order what stands under that title (`Store.submittedOrders`);
* then the rows that complete order what the flags of their ids say (`Store.completionOrder`).

An assessment with verifiers and without a completed state is completed exactly if these
orders, obeyed in turn, end in completion. There is no such order as long as no title is
`State` and no other id that is requested reaches the assessment without having verifiers.
-/

namespace BulkAssessment

/-- What a state row asks for: a state and the date of a verification, both as texts. -/
structure Order where
  state : String
  date : String

namespace Order

/-- The transition that an order asks for, or why it is refused. -/
def transition (filled : Bool) (today : Date) (status : String) (o : Order) :
    Except Rejection Transition :=
  match State.ofName? o.state with
  | none => .error (.unknownState o.state)
  | some target =>
    if o.date.isEmpty then
      if target.needsValues && !filled then .error .unfilled
      else .ok ⟨target.name, if target = .completed then some today.storedText else none, none⟩
    else if status ≠ State.inReview.name then .error (.notInReview status)
    else match Date.ofCell? o.date with
      | none => .error (.badDate o.date)
      | some d => .ok ⟨target.name, none, some d.storedText⟩

/-- The status after an order. -/
def obey (filled : Bool) (status : String) (o : Order) : String :=
  match State.ofName? o.state with
  | none => status
  | some target =>
    if o.date.isEmpty then if target.needsValues && !filled then status else target.name
    else if status ≠ State.inReview.name then status
    else match Date.ofCell? o.date with
      | none => status
      | some _ => target.name

/-- An order to move to a state. -/
def moveTo (target : State) : Order := ⟨target.name, ""⟩

theorem obey_moveTo_finished (filled : Bool) (status : String) (stub : Stub) :
    obey filled status (moveTo stub.finishedState) =
      if filled then stub.finishedState.name else status := by
  unfold Stub.finishedState
  cases stub.needsVerification <;> cases filled <;> rfl

theorem transition_moveTo_finished (filled : Bool) (today : Date) (status : String) (stub : Stub) :
    transition filled today status (moveTo stub.finishedState) =
      if filled then
        .ok ⟨stub.finishedState.name,
          if stub.finishedState = .completed then some today.storedText else none, none⟩
      else .error .unfilled := by
  unfold Stub.finishedState
  cases stub.needsVerification <;> cases filled <;> rfl

end Order

/-- The assessment after an order, its dates included. -/
def Assessment.obey (filled : Bool) (today : Date) (a : Assessment) (o : Order) : Assessment :=
  match o.transition filled today a.status with
  | .ok t => a.after t
  | .error _ => a

theorem Assessment.status_obey (filled : Bool) (today : Date) (a : Assessment) (o : Order) :
    (a.obey filled today o).status = o.obey filled a.status := by
  unfold Assessment.obey Order.transition Order.obey
  cases State.ofName? o.state with
  | none => rfl
  | some target =>
    dsimp only
    by_cases hdate : o.date.isEmpty = true
    · rw [if_pos hdate, if_pos hdate]
      by_cases hblocked : (target.needsValues && !filled) = true
      · rw [if_pos hblocked, if_pos hblocked]
      · rw [if_neg hblocked, if_neg hblocked]
        rfl
    · rw [if_neg hdate, if_neg hdate]
      by_cases hreview : a.status ≠ State.inReview.name
      · rw [if_pos hreview, if_pos hreview]
      · rw [if_neg hreview, if_neg hreview]
        cases Date.ofCell? o.date <;> rfl

theorem Assessment.id_obey (filled : Bool) (today : Date) (a : Assessment) (o : Order) :
    (a.obey filled today o).id = a.id := by
  unfold Assessment.obey
  cases o.transition filled today a.status <;> rfl

/-- The order of a state row. -/
def Task.order? (task : Task) : Option Order :=
  match task.layout with
  | .state l => some ⟨cell task.row l.state, cellOf task.row l.verifiedDate⟩
  | _ => none

/-! ## State rows -/

namespace Dossier

variable {s : Store} {today : Date} {x : Dossier}

/-- The dossier after orders, one after the other. -/
def obey (s : Store) (today : Date) (x : Dossier) (os : List Order) : Dossier :=
  { x with assessment := os.foldl (Assessment.obey (x.isFilled s) today) x.assessment }

@[simp] theorem held_obey (os : List Order) : (x.obey s today os).held = x.held := by
  dsimp only [obey]

/-- What a state row asks for is read off two of its cells. -/
theorem transition_eq (x : Dossier) (l : StateLayout) (row : Row) :
    x.transition s today l row =
      Order.transition (x.isFilled s) today x.assessment.status
        ⟨cell row l.state, cellOf row l.verifiedDate⟩ := by
  unfold transition Order.transition
  cases State.ofName? (cell row l.state) with
  | none => rfl
  | some target => cases Date.ofCell? (cellOf row l.verifiedDate) <;> rfl

theorem apply_of_order (today : Date) {task : Task} {o : Order} (ho : task.order? = some o) :
    x.apply s today task =
      (o.transition (x.isFilled s) today x.assessment.status).map fun t => (x.transit t, false) := by
  obtain ⟨layout, row⟩ := task
  cases layout with
  | state l =>
    obtain rfl := Option.some.inj ho
    rw [← transition_eq]
    unfold apply
    rfl
  | attributes l => cases ho
  | comment l => cases ho

/-- A state row does to the assessment what it orders, and nothing else. -/
theorem after_of_order (today : Date) {task : Task} {o : Order} (ho : task.order? = some o) :
    x.after s today task = x.obey s today [o] := by
  unfold after obey
  rw [apply_of_order today ho, List.foldl_cons, List.foldl_nil, Assessment.obey]
  cases o.transition (x.isFilled s) today x.assessment.status <;> rfl

theorem isFilled_obey (today : Date) (os : List Order) :
    (x.obey s today os).isFilled s = x.isFilled s := by
  have hid : (x.obey s today os).assessment.id = x.assessment.id :=
    foldl_keeps (f := Assessment.id) (fun a o _ => a.id_obey (x.isFilled s) today o) _
  unfold isFilled
  rw [hid]
  rfl

theorem obey_append (today : Date) (os ps : List Order) :
    (x.obey s today os).obey s today ps = x.obey s today (os ++ ps) := by
  have hfilled := isFilled_obey (s := s) (x := x) today os
  unfold obey at hfilled ⊢
  rw [hfilled, List.foldl_append]

theorem foldl_after_of_orders (today : Date) {f : Int → Task} {g : Int → Order}
    (h : ∀ id, (f id).order? = some (g id)) (x : Dossier) (ids : List Int) :
    (ids.map f).foldl (Dossier.after s today) x = x.obey s today (ids.map g) := by
  induction ids generalizing x with
  | nil => rfl
  | cons id ids ih =>
    rw [List.map_cons, List.map_cons, List.foldl_cons, after_of_order today (h id), ih,
      obey_append, List.singleton_append]

theorem status_obey (today : Date) (x : Dossier) (os : List Order) :
    (x.obey s today os).assessment.status =
      os.foldl (Order.obey (x.isFilled s)) x.assessment.status :=
  (List.foldl_hom Assessment.status fun a o => (a.status_obey (x.isFilled s) today o).symm).symm

end Dossier

/-! ## Attributes rows -/

theorem Dossier.after_attributes {s : Store} {today : Date} (x : Dossier) (l : AttributesLayout)
    (row : Row) : x.after s today ⟨.attributes l, row⟩ = (x.applyAttributes s l row).1 := by
  unfold after apply
  dsimp only

/-- The assessment is the same, or it was finished or not started and is in progress again. -/
def Assessment.KeptOrReopened (a b : Assessment) : Prop :=
  b = a ∨ reopens a.status = true ∧ b = { a with status := State.inProgress.name }

theorem Assessment.KeptOrReopened.trans {a b c : Assessment} (h : a.KeptOrReopened b)
    (k : b.KeptOrReopened c) : a.KeptOrReopened c := by
  rcases h with rfl | ⟨hreopens, rfl⟩
  · exact k
  · -- what is in progress is not reopened again
    have hdone : reopens State.inProgress.name = false := by decide
    rcases k with rfl | ⟨hprogress, -⟩
    · exact Or.inr ⟨hreopens, rfl⟩
    · rw [hdone] at hprogress
      cases hprogress

theorem Assessment.KeptOrReopened.status {a b : Assessment} (h : a.KeptOrReopened b) :
    b.status = a.status ∨ b.status = State.inProgress.name := by
  rcases h with rfl | ⟨-, rfl⟩
  · exact Or.inl rfl
  · exact Or.inr rfl

theorem Dossier.keptOrReopened_after_attributes {s : Store} {today : Date} (x : Dossier)
    (l : AttributesLayout) (row : Row) :
    x.assessment.KeptOrReopened (x.after s today ⟨.attributes l, row⟩).assessment := by
  have hassessment : (applyEvidence (x.applyCells s l row) l row).dossier.assessment =
      x.assessment := by simp
  rw [after_attributes]
  unfold applyAttributes Draft.finish
  generalize applyEvidence (x.applyCells s l row) l row = p at hassessment
  dsimp only
  rw [← hassessment]
  split
  · rename_i hreopened
    exact Or.inr ⟨(Bool.and_eq_true_iff.1 hreopened).1, rfl⟩
  · exact Or.inl rfl

/-! ## The orders that reach an assessment -/

section Orders

variable {s : Store} {request : BulkRequest} {today : Date} {id : Int} {x : Dossier}
  {slug : String}

/-- What is submitted under the title `State`, by the ids whose rows reach a slug. -/
def Store.submittedOrders (s : Store) (request : BulkRequest) (slug : String) : List Order :=
  if Column.state ∈ request.titles then
    (request.named.filter fun id => s.leadsTo request slug id && request.hasValues id).map fun id =>
      ⟨s.cellText request id Column.state, s.cellText request id Column.verifiedDate⟩
  else []

/-- The ids whose completion reaches a slug: those with a slug that no row reported. -/
def Store.completers (s : Store) (today : Date) (request : BulkRequest) (slug : String) :
    List Int :=
  (Keyed.firsts request.ids).filter fun id => s.leadsTo request slug id &&
    (!(s.slugOf request id).isEmpty &&
      !decide (s.slugOf request id ∈ (s.runSave today request).report.errors))

/-- What completion orders for an id. -/
def Store.completionOrder (s : Store) (request : BulkRequest) (id : Int) : Order :=
  .moveTo (s.stubOf request id).finishedState

/-- The orders that reach the assessment with a slug when a request is completed. -/
def Store.orders (s : Store) (today : Date) (request : BulkRequest) (slug : String) :
    List Order :=
  s.submittedOrders request slug ++
    (s.completers today request slug).map (s.completionOrder request)

theorem trim_finishedState (stub : Stub) :
    Text.trim stub.finishedState.name = stub.finishedState.name := by
  unfold Stub.finishedState
  cases stub.needsVerification <;> decide

theorem order?_completionTask (id : Int) :
    (s.completionTask request id).order? = some (s.completionOrder request id) := by
  have hcell : cell (s.completionTask request id).row 2 =
      Text.trim (s.stubOf request id).finishedState.name := rfl
  rw [trim_finishedState] at hcell
  unfold Task.order? Store.completionOrder Order.moveTo
  rw [← hcell]
  rfl

theorem order?_savingTask (h : Column.state ∈ request.titles) (id : Int) :
    (s.savingTask request id).order? =
      some ⟨s.cellText request id Column.state, s.cellText request id Column.verifiedDate⟩ := by
  have hstate := cellOf_savingTask s request id Column.state
  have hdate := cellOf_savingTask s request id Column.verifiedDate
  cases hfind : request.titles.findIdx? fun title => title == Column.state with
  | none => simpa using List.findIdx?_eq_none_iff.1 hfind Column.state h
  | some i =>
    rw [hfind] at hstate
    rw [← hstate, ← hdate]
    unfold Task.order? Store.savingTask attributesLayout
    rw [hfind]
    rfl

/-- The rows that store values do what is submitted under the title `State`. -/
theorem afterSaving_of_state (today : Date) (h : Column.state ∈ request.titles) (x : Dossier) :
    x.afterSaving s today request = x.obey s today (s.submittedOrders request x.assessment.slug) := by
  rw [Dossier.afterSaving, rowsUnder_savingRows, Store.submittedOrders, if_pos h]
  exact Dossier.foldl_after_of_orders today (order?_savingTask h) x _

/-- Without that title they keep the assessment or reopen it. -/
theorem keptOrReopened_afterSaving (today : Date) (h : Column.state ∉ request.titles)
    (x : Dossier) : x.assessment.KeptOrReopened (x.afterSaving s today request).assessment := by
  rw [Dossier.afterSaving, rowsUnder_savingRows]
  generalize request.named.filter _ = ids
  induction ids generalizing x with
  | nil => exact Or.inl rfl
  | cons id ids ih =>
    have hrow : x.assessment.KeptOrReopened
        (x.after s today (s.savingTask request id)).assessment := by
      rw [savingTask_of_not_state h]
      exact x.keptOrReopened_after_attributes _ _
    rw [List.map_cons, List.foldl_cons]
    exact hrow.trans (ih _)

theorem foldl_completionRows (today : Date) (x : Dossier) (slug : String) :
    (Operation.rowsUnder slug (s.completionRows request
      (s.runSave today request).report.errors)).foldl (Dossier.after s today) x =
        x.obey s today ((s.completers today request slug).map (s.completionOrder request)) := by
  rw [rowsUnder_completionRows]
  exact Dossier.foldl_after_of_orders today order?_completionTask x _

/-- From statuses other than completion, completion is reached from both or from neither. -/
theorem foldl_completionOrder_iff (filled : Bool) (ids : List Int) {u v : String}
    (hu : u ≠ State.completed.name) (hv : v ≠ State.completed.name) :
    (ids.map (s.completionOrder request)).foldl (Order.obey filled) u = State.completed.name ↔
      (ids.map (s.completionOrder request)).foldl (Order.obey filled) v =
        State.completed.name := by
  induction ids generalizing u v with
  | nil => exact iff_of_false hu hv
  | cons id ids ih =>
    rw [List.map_cons, List.foldl_cons, List.foldl_cons, Store.completionOrder,
      Order.obey_moveTo_finished, Order.obey_moveTo_finished]
    cases filled with
    | true => exact Iff.rfl
    | false => exact ih hu hv

/-- If all the ids are to be verified, then the status stays or becomes `In Review`. -/
theorem foldl_completionOrder_of_verifiers (filled : Bool) {ids : List Int}
    (h : ∀ id ∈ ids, (s.stubOf request id).needsVerification = true) (u : String) :
    (ids.map (s.completionOrder request)).foldl (Order.obey filled) u = u ∨
      (ids.map (s.completionOrder request)).foldl (Order.obey filled) u =
        State.inReview.name := by
  induction ids generalizing u with
  | nil => exact Or.inl rfl
  | cons id ids ih =>
    have hfinished : (s.stubOf request id).finishedState = .inReview := by
      unfold Stub.finishedState
      rw [if_pos (h id List.mem_cons_self)]
    have hrest := fun v => ih (fun i hi => h i (List.mem_cons_of_mem _ hi)) v
    rw [List.map_cons, List.foldl_cons, Store.completionOrder, Order.obey_moveTo_finished,
      hfinished]
    cases filled with
    | true =>
      rcases hrest State.inReview.name with hsame | hsame
      · exact Or.inr hsame
      · exact Or.inr hsame
    | false => exact hrest u

end Orders

/-! ## Completion -/

section Completion

variable {s t : Store} {request : BulkRequest} {today : Date} {id : Int} {x : Dossier}
  {appUrl : String} {o : Outcome}

/-- The dossier after completion is that after saving with the status that completion orders. -/
theorem status_runComplete (today : Date) (hk : s.Keyed) (hx : s.dossier? id = some x)
    (request : BulkRequest) :
    ∃ z, (s.runComplete today request).store.dossier? id = some z ∧
      z.assessment.status =
        ((s.completers today request x.assessment.slug).map (s.completionOrder request)).foldl
          (Order.obey ((x.afterSaving s today request).isFilled s))
          (x.afterSaving s today request).assessment.status := by
  have hrun := Operation.complete.dossier?_run today hk hx request
  rw [Operation.rows, Operation.rowsUnder, List.map_append, under_append,
    List.foldl_append] at hrun
  refine ⟨_, hrun, ?_⟩
  rw [← Operation.rowsUnder, ← Operation.rowsUnder, foldl_completionRows]
  exact Dossier.status_obey today _ _

/-- An assessment that is not completed is completed exactly if the orders that reach it say
so. -/
theorem status_runComplete_iff (today : Date) (hopen : x.assessment.status ≠ State.completed.name)
    (request : BulkRequest) :
    ((s.completers today request x.assessment.slug).map (s.completionOrder request)).foldl
        (Order.obey ((x.afterSaving s today request).isFilled s))
        (x.afterSaving s today request).assessment.status = State.completed.name ↔
      (s.orders today request x.assessment.slug).foldl
        (Order.obey ((x.afterSaving s today request).isFilled s)) x.assessment.status =
          State.completed.name := by
  rw [Store.orders, List.foldl_append]
  by_cases hstate : Column.state ∈ request.titles
  · -- what is saved are orders too, so both sides obey the same ones
    rw [afterSaving_of_state today hstate, Dossier.isFilled_obey, Dossier.status_obey]
  · rw [Store.submittedOrders, if_neg hstate, List.foldl_nil]
    refine foldl_completionOrder_iff _ _ ?_ hopen
    rcases (keptOrReopened_afterSaving (s := s) today hstate x).status with hsame | hsame
    · rwa [hsame]
    · rw [hsame]
      decide

theorem isFilled_runSave (today : Date) (hk : s.Keyed) (hx : s.dossier? id = some x)
    (request : BulkRequest) :
    (s.runSave today request).store.isFilled id =
      (x.afterSaving s today request).isFilled s := by
  rw [Store.isFilled_eq (dossier?_runSave today hk hx request),
    Dossier.isFilled_congr _ (s.sameFrame_runSave hk today request)]

/-- If no title is `State` and all ids whose completion reaches an assessment are to be verified,
then its status stays or becomes `In Progress` or `In Review`. -/
theorem status_of_verifiers (today : Date) (hstate : Column.state ∉ request.titles)
    (hneeds : ∀ i ∈ s.completers today request x.assessment.slug,
      (s.stubOf request i).needsVerification = true) {status : String}
    (hstatus : status =
      ((s.completers today request x.assessment.slug).map (s.completionOrder request)).foldl
        (Order.obey ((x.afterSaving s today request).isFilled s))
        (x.afterSaving s today request).assessment.status) :
    status = x.assessment.status ∨ status = State.inProgress.name ∨
      status = State.inReview.name := by
  rcases foldl_completionOrder_of_verifiers ((x.afterSaving s today request).isFilled s) hneeds
    (x.afterSaving s today request).assessment.status with hkept | hreview
  · rw [hkept] at hstatus
    rw [hstatus]
    rcases (keptOrReopened_afterSaving (s := s) today hstate x).status with hsame | hprogress
    · exact Or.inl hsame
    · exact Or.inr (Or.inl hprogress)
  · exact Or.inr (Or.inr (hstatus.trans hreview))

/-- An assessment that is not completed is completed by a request exactly if the orders that
reach it end in completion. If it has verifiers, no title is `State`, and the other ids that
reach it are to be verified too, then its state stays as it is or becomes `In Progress` or
`In Review`. -/
theorem status_after_complete (hk : s.Keyed)
    (h : Operation.complete.perform s appUrl today request = .ok (t, o)) {a : Assessment}
    (ha : s.assessment? id = some a) (hverifier : s.hasVerifier id = true)
    (hopen : a.status ≠ State.completed.name) :
    ∃ b, t.assessment? id = some b ∧
      (b.status = State.completed.name ↔
        (s.orders today request a.slug).foldl
          (Order.obey ((s.runSave today request).store.isFilled id)) a.status =
            State.completed.name) ∧
      (Column.state ∉ request.titles →
        (∀ i ∈ request.ids, i ≠ id → Text.trim (s.slugOf request i) = a.slug →
          (s.stubOf request i).needsVerification = true) →
        b.status = a.status ∨ b.status = State.inProgress.name ∨
          b.status = State.inReview.name) := by
  have hx : s.dossier? id = some ⟨a, s.heldBy id, s.evidenceOf id⟩ :=
    Store.dossier?_eq_some_iff.2 ⟨ha, rfl, rfl⟩
  obtain ⟨z, hz, hstatus⟩ := status_runComplete today hk hx request
  have hrun : t = (s.runComplete today request).store := Operation.store_of_perform h
  refine ⟨z.assessment, ?_, ?_, fun hstate hothers => ?_⟩
  · rw [hrun]
    exact (Store.dossier?_eq_some_iff.1 hz).1
  · rw [hstatus, isFilled_runSave today hk hx]
    exact status_runComplete_iff today hopen request
  · refine status_of_verifiers today hstate (fun i hi => ?_) hstatus
    obtain ⟨hmem, hleads⟩ := List.mem_filter.1 hi
    by_cases hid : i = id
    · -- its own stub has the flag of the store
      rw [hid, Store.needsVerification_stubOf, ha, hverifier]
      rfl
    · refine hothers i (Keyed.mem_firsts.1 hmem) hid ?_
      simpa [Store.leadsTo] using (Bool.and_eq_true_iff.1 hleads).1

/-- Two assessments, one of them with somebody to verify it. -/
def verifiedStore : Store :=
  { Store.empty with
    people := [⟨7, "verifier@example.com"⟩]
    assessments :=
      [⟨1, "A-1", "Backups", State.inProgress.name, "Control", none, none⟩,
        ⟨2, "A-2", "Passwords", State.inProgress.name, "Control", none, none⟩]
    roles := [⟨1, 7, Role.verifier⟩] }

/-- The other assessment is to be completed, and a value comes under the title `State`. -/
def stateRequest : BulkRequest :=
  ⟨[2], [⟨1, "A-1", [⟨.string State.completed.name, Column.state, "Text", some 1, 5, none⟩]⟩]⟩

/-- The value completes the assessment that is to be verified. -/
theorem status_completed_by_title :
    ∃ t o b, Operation.complete.perform verifiedStore "" ⟨2024, 5, 17⟩ stateRequest = .ok (t, o) ∧
      t.assessment? 1 = some b ∧ b.status = State.completed.name := by
  have hkeyed : verifiedStore.Keyed := ⟨by decide, by decide, by decide⟩
  obtain ⟨t, o, h⟩ : ∃ t o,
      Operation.complete.perform verifiedStore "" ⟨2024, 5, 17⟩ stateRequest = .ok (t, o) :=
    ⟨_, _, rfl⟩
  have ha : verifiedStore.assessment? 1 =
      some ⟨1, "A-1", "Backups", State.inProgress.name, "Control", none, none⟩ := rfl
  obtain ⟨b, hb, hcompleted, -⟩ := status_after_complete hkeyed h ha (by decide) (by decide)
  exact ⟨t, o, b, h, hb, hcompleted.2 (by decide +kernel)⟩

end Completion

end BulkAssessment
