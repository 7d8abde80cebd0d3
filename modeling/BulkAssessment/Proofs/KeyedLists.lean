import BulkAssessment.Keyed
import Mathlib.Data.List.Induction

/-!
# Keyed lists by their keys and look-ups

A keyed list with distinct keys is determined by its keys and by what a look-up of each of them
finds (`Keyed.eq_map_get?`). A list that is built by entering one thing after the other has the
keys in the order in which they are first entered (`Keyed.keys_foldl`), and the entry of a key is
made by what is entered under that key alone (`Keyed.get?_foldl`). Where each thing that is entered
replaces what it finds, the last one stays (`Keyed.read_foldl_last`).
-/

namespace BulkAssessment.Keyed

variable {κ α : Type} [DecidableEq κ]

/-! ## Look-ups -/

theorem get?_modify (key other : κ) (f : α → α) (entries : List (κ × α)) :
    get? other (modify key f entries) =
      if other = key then (get? other entries).map f else get? other entries := by
  induction entries with
  | nil => split <;> rfl
  | cons e rest ih =>
    obtain ⟨k, x⟩ := e
    unfold modify at ih ⊢
    by_cases hk : k = key <;> by_cases ho : k = other <;> simp_all [get?]

theorem get?_isSome_iff {key : κ} {entries : List (κ × α)} :
    (get? key entries).isSome = true ↔ key ∈ keys entries := by
  induction entries with
  | nil => simp [keys]
  | cons e rest ih =>
    obtain ⟨k, x⟩ := e
    unfold keys at ih ⊢
    by_cases hk : k = key
    · simp [get?, hk]
    · simp [get?, hk, ih, Ne.symm hk]

/-- A list with distinct keys is determined by its keys and their entries. -/
theorem eq_map_get? {entries : List (κ × α)} (h : (keys entries).Nodup) (d : α) :
    entries = (keys entries).map fun k => (k, (get? k entries).getD d) := by
  induction entries with
  | nil => rfl
  | cons e rest ih =>
    obtain ⟨k, x⟩ := e
    obtain ⟨hk, hrest⟩ := List.nodup_cons.1 h
    have hlater : ∀ j ∈ keys rest, get? j ((k, x) :: rest) = get? j rest := by
      intro j hj
      have hne : k ≠ j := by
        rintro rfl
        exact hk hj
      rw [get?, if_neg hne]
    show (k, x) :: rest = (k, (get? k ((k, x) :: rest)).getD d) :: (keys rest).map _
    rw [get?, if_pos rfl, Option.getD_some, List.map_congr_left fun j hj => by rw [hlater j hj],
      ← ih hrest]

theorem mem_iff_get? {entries : List (κ × α)} (h : (keys entries).Nodup) {key : κ} {x : α} :
    (key, x) ∈ entries ↔ get? key entries = some x := by
  induction entries with
  | nil => simp
  | cons e rest ih =>
    obtain ⟨j, y⟩ := e
    obtain ⟨hj, hrest⟩ := List.nodup_cons.1 h
    rw [List.mem_cons, ih hrest, get?, Prod.mk.injEq]
    by_cases hkey : j = key
    · subst hkey
      have hnone : get? j rest ≠ some x := fun hx => hj (get?_isSome_iff.1 (by rw [hx]; rfl))
      simp [hnone, eq_comm]
    · simp [hkey, Ne.symm hkey]

theorem mem_map_graph {ι β : Type} {ks : List ι} {f : ι → β} {key : ι} {x : β} :
    (key, x) ∈ ks.map (fun k => (k, f k)) ↔ key ∈ ks ∧ x = f key := by
  rw [List.mem_map]
  constructor
  · rintro ⟨k, hk, hentry⟩
    obtain ⟨rfl, rfl⟩ := Prod.mk.inj hentry
    exact ⟨hk, rfl⟩
  · rintro ⟨hk, rfl⟩
    exact ⟨key, hk, rfl⟩

/-! ## Entering one after the other -/

/-- What a step either sets or keeps is as the last step that sets it leaves it. -/
theorem read_foldl_last {σ β γ : Type} {read : σ → Option γ} {step : σ → β → σ} {v : β → γ}
    {p : β → Prop} [DecidablePred p]
    (hstep : ∀ st x, read (step st x) = if p x then some (v x) else read st)
    (xs : List β) (st : σ) :
    read (xs.foldl step st) = ((xs.filter fun x => p x).getLast?.map v).or (read st) := by
  induction xs using List.reverseRecOn with
  | nil => rfl
  | append_singleton xs x ih =>
    rw [List.foldl_append, List.foldl_cons, List.foldl_nil, hstep, List.filter_append]
    by_cases hx : p x
    · rw [if_pos hx, List.filter_cons_of_pos (by simpa using hx), List.getLast?_append]
      rfl
    · rw [if_neg hx, ih, List.filter_cons_of_neg (by simpa using hx), List.filter_nil,
        List.append_nil]

section Entering

variable {β : Type} {g : List (κ × α) → β → List (κ × α)} {k : β → κ} {f : β → Option α → α}

theorem keys_foldl (hg : ∀ es x, g es x = alter (k x) (f x) es) (xs : List β)
    (entries : List (κ × α)) :
    keys (xs.foldl g entries) = (xs.map k).foldl addKey (keys entries) := by
  induction xs generalizing entries with
  | nil => rfl
  | cons x xs ih => rw [List.foldl_cons, ih, hg, keys_alter, List.map_cons, List.foldl_cons]

/-- The entry of a key is made by the alterations under that key alone. -/
theorem get?_foldl (hg : ∀ es x, g es x = alter (k x) (f x) es) (key : κ) (xs : List β)
    (entries : List (κ × α)) :
    get? key (xs.foldl g entries) =
      (xs.filter fun x => k x = key).foldl (fun v x => some (f x v)) (get? key entries) := by
  induction xs generalizing entries with
  | nil => rfl
  | cons x xs ih =>
    rw [List.foldl_cons, ih, hg]
    by_cases hx : k x = key
    · rw [List.filter_cons_of_pos (by simpa using hx), List.foldl_cons, ← hx, get?_alter_self]
    · rw [List.filter_cons_of_neg (by simpa using hx), get?_alter_of_ne (Ne.symm hx)]

/-- If each entry takes the place of the one before, then the last one under a key stays. -/
theorem get?_foldl_set {v : β → α} (hg : ∀ es x, g es x = alter (k x) (fun _ => v x) es)
    (key : κ) (xs : List β) (entries : List (κ × α)) :
    get? key (xs.foldl g entries) =
      ((xs.filter fun x => k x = key).getLast?.map v).or (get? key entries) := by
  refine read_foldl_last (fun es x => ?_) xs entries
  rw [hg]
  split
  · rename_i hx
    rw [← hx, get?_alter_self]
  · rename_i hx
    rw [get?_alter_of_ne (Ne.symm hx)]

end Entering

theorem firsts_concat (ks : List κ) (key : κ) :
    firsts (ks ++ [key]) = if key ∈ ks then firsts ks else firsts ks ++ [key] := by
  have hlast : firsts (ks ++ [key]) = addKey (firsts ks) key := List.foldl_append
  simp only [hlast, addKey, mem_firsts]

/-- Keys that are there already change nothing. -/
theorem firsts_append {ks later : List κ} (h : ∀ key ∈ later, key ∈ ks) :
    firsts (ks ++ later) = firsts ks := by
  have hkeep (ls : List κ) (hls : ∀ key ∈ ls, key ∈ firsts ks) :
      ls.foldl addKey (firsts ks) = firsts ks := by
    induction ls with
    | nil => rfl
    | cons l ls ih =>
      rw [List.foldl_cons, addKey, if_pos (hls l List.mem_cons_self)]
      exact ih fun key hkey => hls key (.tail _ hkey)
  rw [firsts, List.foldl_append]
  exact hkeep later fun key hkey => mem_firsts.2 (h key hkey)

/-- The distinct members in the order of first occurrence, as the library lists them. -/
theorem firsts_eq_eraseDups (ks : List κ) : firsts ks = ks.eraseDups := by
  induction ks using List.reverseRecOn with
  | nil => rfl
  | append_singleton ks key ih =>
    rw [firsts_concat, List.eraseDups_append, ← ih]
    by_cases hkey : key ∈ ks
    · simp [List.removeAll, hkey]
    · simp [List.removeAll, List.eraseDups_cons, hkey]

end BulkAssessment.Keyed
