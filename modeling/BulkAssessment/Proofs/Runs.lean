import BulkAssessment.Proofs.Locality
import Mathlib.Logic.Relation

/-!
# Runs, one after the other and interleaved

An import is a list of rows to apply (`Block.tasks`, `Store.importBlocks_eq`). What it makes of
an assessment is what the rows with its code make of its dossier, one after the other
(`Run.dossier?_foldl`): rows with other codes, comments and rejected rows do not matter.

Several imports may be under way at a time. Each row is a transaction, so a step takes any of
them and applies its next row to the store that is there (`Imports.Step`). Every state that is
reached by such steps stands between two rows of some interleaving.
-/

namespace BulkAssessment

/-- The rows of the blocks that are recognized, in their order. -/
def Block.tasks (blocks : List Block) : List Task :=
  blocks.flatMap fun b => match b.layout? with
    | none => []
    | some layout => b.rows.map fun row => ⟨layout, row⟩

/-- Apply a row and report on it. -/
def Run.apply (today : Date) (r : Run) (task : Task) : Run :=
  r.step today task.layout task.row

/-- The dossier after a row about its assessment. -/
def Dossier.after (s : Store) (today : Date) (x : Dossier) (task : Task) : Dossier :=
  match x.apply s today task with
  | .ok (y, _) => y
  | .error _ => x

/-- The rows with a code. -/
def Task.under (code : String) (tasks : List Task) : List Task :=
  tasks.filter fun task => task.code? == some code

/-- An import under way. -/
structure Import where
  today : Date
  /-- The rows that are still to be applied. -/
  pending : List Task
  report : Report

/-- A store and the imports that are under way on it. -/
structure Imports where
  store : Store
  running : List Import

namespace Imports

/-- Before the first row of any import. -/
def start (s : Store) (jobs : List (Date × List Block)) : Imports :=
  ⟨s, jobs.map fun job => ⟨job.1, Block.tasks job.2, Report.empty⟩⟩

/-- One of the imports applies its next row. -/
inductive Step : Imports → Imports → Prop where
  | row (s : Store) (before later : List Import) (today : Date) (task : Task)
      (rest : List Task) (report : Report) :
      Step ⟨s, before ++ ⟨today, task :: rest, report⟩ :: later⟩
        ⟨(Run.apply today ⟨s, report⟩ task).store,
          before ++ ⟨today, rest, (Run.apply today ⟨s, report⟩ task).report⟩ :: later⟩

/-- The states between the rows of the interleavings. -/
abbrev Reaches : Imports → Imports → Prop := Relation.ReflTransGen Step

end Imports

/-! ## Runs as lists of rows -/

theorem Run.block_eq (today : Date) (r : Run) (b : Block) :
    r.block today b = (Block.tasks [b]).foldl (Run.apply today) r := by
  rw [Run.block, Block.tasks, List.flatMap_singleton]
  cases b.layout? with
  | none => rfl
  | some layout =>
    show b.rows.foldl (step today layout) r =
      (b.rows.map fun row => (⟨layout, row⟩ : Task)).foldl (apply today) r
    rw [List.foldl_map]
    rfl

theorem Block.tasks_cons (b : Block) (blocks : List Block) :
    Block.tasks (b :: blocks) = Block.tasks [b] ++ Block.tasks blocks := by
  simp only [Block.tasks, List.flatMap_cons, List.flatMap_nil, List.append_nil]

/-- An import applies its rows one after the other. -/
theorem Store.importBlocks_eq (s : Store) (today : Date) (blocks : List Block) :
    s.importBlocks today blocks = (Block.tasks blocks).foldl (Run.apply today) (Run.start s) := by
  have go : ∀ (blocks : List Block) (r : Run),
      blocks.foldl (Run.block today) r = (Block.tasks blocks).foldl (Run.apply today) r := by
    intro blocks
    induction blocks with
    | nil => intro r; rfl
    | cons b bs ih =>
      intro r
      rw [List.foldl_cons, ih, Block.tasks_cons, List.foldl_append, Run.block_eq]
  exact go blocks (Run.start s)

namespace Imports

/-- An import with no other beside it applies its rows one after the other. -/
theorem reaches_foldl (today : Date) (tasks : List Task) (r : Run) :
    Reaches ⟨r.store, [⟨today, tasks, r.report⟩]⟩
      ⟨(tasks.foldl (Run.apply today) r).store,
        [⟨today, [], (tasks.foldl (Run.apply today) r).report⟩]⟩ := by
  induction tasks generalizing r with
  | nil => exact .refl
  | cons task tasks ih =>
    exact .head (Step.row r.store [] [] today task tasks r.report) (ih (r.apply today task))

/-- The import of blocks is one of the interleavings. -/
theorem reaches_importBlocks (s : Store) (today : Date) (blocks : List Block) :
    (start s [(today, blocks)]).Reaches
      ⟨(s.importBlocks today blocks).store,
        [⟨today, [], (s.importBlocks today blocks).report⟩]⟩ := by
  rw [Store.importBlocks_eq]
  exact reaches_foldl today (Block.tasks blocks) (Run.start s)

end Imports

/-! ## The meaning of a row depends on the frame alone -/

section Frame

variable {s t : Store} {today : Date} (x : Dossier)

theorem Draft.applyCell_congr (h : s.SameFrame t) (p : Draft) (title raw : String) :
    p.applyCell t title raw = p.applyCell s title raw := by
  rw [Draft.applyCell, Draft.applyCell, h.definitionTitled?]
  simp only [h.cellValue?]

theorem Dossier.applyAttributes_congr (h : s.SameFrame t) (l : AttributesLayout) (row : Row) :
    x.applyAttributes t l row = x.applyAttributes s l row := by
  simp only [Dossier.applyAttributes, Dossier.applyCells, Draft.applyCell_congr h]

theorem Dossier.isFilled_congr (h : s.SameFrame t) : x.isFilled t = x.isFilled s := by
  unfold Dossier.isFilled
  rw [h.definitionsOf]

theorem Dossier.transition_congr (h : s.SameFrame t) (l : StateLayout) (row : Row) :
    x.transition t today l row = x.transition s today l row := by
  unfold Dossier.transition
  rw [x.isFilled_congr h]

theorem Dossier.apply_congr (h : s.SameFrame t) (task : Task) :
    x.apply t today task = x.apply s today task := by
  simp only [Dossier.apply, Dossier.applyAttributes_congr x h, Dossier.transition_congr x h]

theorem Dossier.after_congr (h : s.SameFrame t) (task : Task) :
    x.after t today task = x.after s today task := by
  rw [Dossier.after, Dossier.after, x.apply_congr h]

theorem Dossier.identity_transit (t : Transition) :
    (x.transit t).assessment.identity = x.assessment.identity := rfl

theorem Dossier.identity_applyAttributes (l : AttributesLayout) (row : Row) :
    (x.applyAttributes s l row).1.assessment.identity = x.assessment.identity := by
  simp only [Dossier.applyAttributes, Draft.finish]
  split
  · rw [Dossier.identity_transit]
    simp
  · simp

theorem Dossier.identity_after (task : Task) :
    (x.after s today task).assessment.identity = x.assessment.identity := by
  unfold Dossier.after Dossier.apply
  cases task.layout with
  | attributes l => exact x.identity_applyAttributes l task.row
  | state l =>
    dsimp only
    cases x.transition s today l task.row <;> rfl
  | comment l => rfl

theorem Dossier.id_after (task : Task) :
    (x.after s today task).assessment.id = x.assessment.id :=
  congrArg Prod.fst (x.identity_after task)

theorem Dossier.slug_after (task : Task) :
    (x.after s today task).assessment.slug = x.assessment.slug :=
  congrArg (fun i => i.2.1) (x.identity_after task)

end Frame

/-! ## What a run makes of an assessment -/

namespace Run

variable {s : Store} {r : Run} {today : Date} {id : Int} {x : Dossier}

/-- The store after a row: that of an accepted one, or the store before. -/
theorem store_apply (r : Run) (today : Date) (task : Task) :
    (r.apply today task).store =
      match r.store.applyRow today task.row task.layout with
      | .ok (t, _) => t
      | .error _ => r.store := by
  rw [apply, step]
  cases r.store.applyRow today task.row task.layout with
  | error e => rfl
  | ok p =>
    obtain ⟨t, _ | _⟩ := p <;> rfl

theorem sameFrame_apply (today : Date) (hk : r.store.Keyed) (task : Task) :
    r.store.SameFrame (r.apply today task).store := by
  rw [store_apply]
  cases h : r.store.applyRow today task.row task.layout with
  | error e => exact .refl _
  | ok p =>
    obtain ⟨_, _, _, _, _, _, ha⟩ | ⟨_, _, ha⟩ := Store.applyRow_cases hk h
    · exact ha.frame
    · dsimp only
      rw [ha]
      exact ⟨rfl, rfl, rfl, rfl⟩

theorem sameFrame_foldl (hk : r.store.Keyed) (tasks : List Task) :
    r.store.SameFrame (tasks.foldl (Run.apply today) r).store := by
  induction tasks generalizing r with
  | nil => exact .refl _
  | cons task tasks ih =>
    have h := sameFrame_apply today hk task
    exact h.trans (ih (h.keyed hk))

theorem sameFrame_importBlocks (hk : s.Keyed) (blocks : List Block) :
    s.SameFrame (s.importBlocks today blocks).store := by
  rw [Store.importBlocks_eq]
  exact sameFrame_foldl (r := Run.start s) hk _

/-- A row changes the dossier of an assessment only if it has the code of that assessment. -/
theorem dossier?_apply (today : Date) (hk : r.store.Keyed) (hx : r.store.dossier? id = some x)
    (task : Task) :
    (r.apply today task).store.dossier? id =
      some (if task.code? = some x.assessment.slug then x.after r.store today task else x) := by
  rw [store_apply]
  split_ifs with hc
  · have hrow := Store.applyRow_of_code today hk hx hc
    rw [Dossier.after]
    cases hy : x.apply r.store today task with
    | error e =>
      simp only [hy] at hrow ⊢
      rw [hrow]
      exact hx
    | ok p =>
      simp only [hy] at hrow ⊢
      obtain ⟨t, ht, ha⟩ := hrow
      rw [ht]
      exact ha.own
  · cases h : r.store.applyRow today task.row task.layout with
    | error e => exact hx
    | ok p =>
      -- an accepted row is about the assessment with its code, or adds a comment
      obtain ⟨o, z, y, hz, hcode, _, ha⟩ | ⟨_, _, ha⟩ := Store.applyRow_cases hk h
      · have hne : id ≠ o := by
          rintro rfl
          rw [hx, Option.some.injEq] at hz
          exact hc (hz ▸ hcode)
        exact (ha.others id hne).dossier?.trans hx
      · dsimp only
        rw [ha]
        exact hx

/-- What a run makes of an assessment is what the rows with its code make of its dossier. -/
theorem dossier?_foldl (hk : s.Keyed) (hf : s.SameFrame r.store)
    (hx : r.store.dossier? id = some x) (tasks : List Task) :
    (tasks.foldl (Run.apply today) r).store.dossier? id =
      some ((Task.under x.assessment.slug tasks).foldl (Dossier.after s today) x) := by
  -- `after` reads only the frame of the store, which every row of the run keeps
  induction tasks generalizing r x with
  | nil => exact hx
  | cons task tasks ih =>
    have hkr := hf.keyed hk
    have hstep := dossier?_apply today hkr hx task
    have hframe := hf.trans (sameFrame_apply today hkr task)
    rw [List.foldl_cons]
    by_cases hc : task.code? = some x.assessment.slug
    · rw [if_pos hc, Dossier.after_congr x hf] at hstep
      have h := ih hframe hstep
      rw [Dossier.slug_after] at h
      rw [h]
      simp [Task.under, hc]
    · rw [if_neg hc] at hstep
      rw [ih hframe hstep]
      simp [Task.under, hc]

/-- Nothing is stored on an id that no assessment has. -/
theorem sameOn_apply_of_unknown (hk : r.store.Keyed) (hn : r.store.assessment? id = none)
    (today : Date) (task : Task) : r.store.SameOn (r.apply today task).store id := by
  rw [store_apply]
  cases h : r.store.applyRow today task.row task.layout with
  | error e => exact .refl _ _
  | ok p =>
    obtain ⟨o, z, y, hz, -, -, ha⟩ | ⟨_, _, ha⟩ := Store.applyRow_cases hk h
    · have hne : id ≠ o := by
        rintro rfl
        rw [Store.dossier?, hn] at hz
        cases hz
      exact ha.others id hne
    · dsimp only
      rw [ha]
      exact ⟨rfl, rfl, rfl⟩

theorem sameOn_foldl_of_unknown (hk : r.store.Keyed) (hn : r.store.assessment? id = none)
    (tasks : List Task) : r.store.SameOn (tasks.foldl (Run.apply today) r).store id := by
  induction tasks generalizing r with
  | nil => exact .refl _ _
  | cons task tasks ih =>
    have hsame := sameOn_apply_of_unknown hk hn today task
    have hkt := (sameFrame_apply today hk task).keyed hk
    exact hsame.trans (ih hkt (hsame.assessment.trans hn))

theorem sameOn_importBlocks_of_unknown (hk : s.Keyed) (hn : s.assessment? id = none)
    (blocks : List Block) : s.SameOn (s.importBlocks today blocks).store id := by
  rw [Store.importBlocks_eq]
  exact sameOn_foldl_of_unknown (r := Run.start s) hk hn _

end Run

/-- What every row keeps is kept by every interleaving of imports. -/
theorem Imports.reaches_keeps {P : Store → Prop}
    (hrow : ∀ r : Run, r.store.Keyed → P r.store →
      ∀ (today : Date) (task : Task), P (r.apply today task).store)
    {m n : Imports} (hreach : m.Reaches n) (hk : m.store.Keyed) (hm : P m.store) :
    n.store.Keyed ∧ P n.store := by
  induction hreach with
  | refl => exact ⟨hk, hm⟩
  | tail _ hstep ih =>
    cases hstep with
    | row s before later today task rest report =>
      obtain ⟨hks, hs⟩ : s.Keyed ∧ P s := ih
      exact ⟨(Run.sameFrame_apply (r := ⟨s, report⟩) today hks task).keyed hks,
        hrow ⟨s, report⟩ hks hs today task⟩

end BulkAssessment
