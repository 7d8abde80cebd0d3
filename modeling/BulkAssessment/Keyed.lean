/-!
# Lists of keyed entries

An association list in which a key keeps the place where it first appeared. `alter`
changes the entry of a key in place, or appends one for a new key; `firsts` lists
the distinct members of a list in the order of their first occurrence.
-/

namespace BulkAssessment.Keyed

variable {κ α : Type} [DecidableEq κ]

/-- The entry of a key. -/
def get? (key : κ) : List (κ × α) → Option α
  | [] => none
  | (k, x) :: rest => if k = key then some x else get? key rest

/-- Give the entry of `key` the value that `f` makes of what stands there now; a
key without an entry gets one at the end. -/
def alter (key : κ) (f : Option α → α) : List (κ × α) → List (κ × α)
  | [] => [(key, f none)]
  | (k, x) :: rest => if k = key then (k, f (some x)) :: rest else (k, x) :: alter key f rest

/-- Change the entry of `key`, if it has one. -/
def modify (key : κ) (f : α → α) (entries : List (κ × α)) : List (κ × α) :=
  entries.map fun e => if e.1 = key then (e.1, f e.2) else e

/-- The keys in order. -/
def keys (entries : List (κ × α)) : List κ :=
  entries.map Prod.fst

/-- The list with `key` appended unless it is a member already. -/
def addKey (seen : List κ) (key : κ) : List κ :=
  if key ∈ seen then seen else seen ++ [key]

/-- The distinct members of a list, in the order of their first occurrence. -/
def firsts (ks : List κ) : List κ :=
  ks.foldl addKey []

@[simp] theorem get?_nil (key : κ) : get? key ([] : List (κ × α)) = none := rfl

theorem get?_alter_self (key : κ) (f : Option α → α) (entries : List (κ × α)) :
    get? key (alter key f entries) = some (f (get? key entries)) := by
  induction entries with
  | nil => simp [alter, get?]
  | cons e rest ih =>
    obtain ⟨k, x⟩ := e
    by_cases h : k = key <;> simp [alter, get?, h, ih]

theorem get?_alter_of_ne {key other : κ} (h : other ≠ key) (f : Option α → α)
    (entries : List (κ × α)) : get? other (alter key f entries) = get? other entries := by
  induction entries with
  | nil => simp [alter, get?, h.symm]
  | cons e rest ih =>
    obtain ⟨k, x⟩ := e
    by_cases hk : k = key
    · subst hk; simp [alter, get?, h.symm]
    · simp [alter, get?, hk, ih]

theorem keys_alter (key : κ) (f : Option α → α) (entries : List (κ × α)) :
    keys (alter key f entries) = addKey (keys entries) key := by
  induction entries with
  | nil => simp [alter, keys, addKey]
  | cons e rest ih =>
    obtain ⟨k, x⟩ := e
    by_cases hk : k = key
    · simp [alter, keys, addKey, hk]
    · simp only [keys, addKey] at ih ⊢
      simp only [alter, hk, if_false, List.map_cons, ih, List.mem_cons, Ne.symm hk, false_or]
      split <;> simp_all

@[simp] theorem keys_modify (key : κ) (f : α → α) (entries : List (κ × α)) :
    keys (modify key f entries) = keys entries := by
  induction entries with
  | nil => rfl
  | cons e rest ih =>
    simp only [keys, modify, List.map_cons, List.map_map] at ih ⊢
    rw [ih]
    split <;> rfl

theorem mem_addKey {seen : List κ} {key other : κ} :
    other ∈ addKey seen key ↔ other ∈ seen ∨ other = key := by
  unfold addKey
  split <;> rename_i h
  · exact ⟨Or.inl, fun o => o.elim id fun e => e ▸ h⟩
  · simp

theorem nodup_addKey {seen : List κ} (h : seen.Nodup) (key : κ) : (addKey seen key).Nodup := by
  unfold addKey
  split
  · exact h
  · rename_i hk
    rw [List.nodup_append]
    exact ⟨h, by simp, fun a ha b hb => by
      simp only [List.mem_singleton] at hb
      rintro rfl
      exact hk (hb ▸ ha)⟩

theorem mem_foldl_addKey {ks seen : List κ} {key : κ} :
    key ∈ ks.foldl addKey seen ↔ key ∈ seen ∨ key ∈ ks := by
  induction ks generalizing seen with
  | nil => simp
  | cons k ks ih => simp [ih, mem_addKey, or_assoc]

theorem mem_firsts {ks : List κ} {key : κ} : key ∈ firsts ks ↔ key ∈ ks := by
  simp [firsts, mem_foldl_addKey]

theorem nodup_firsts (ks : List κ) : (firsts ks).Nodup := by
  have go : ∀ (ks seen : List κ), seen.Nodup → (ks.foldl addKey seen).Nodup := by
    intro ks
    induction ks with
    | nil => exact fun _ h => h
    | cons k ks ih => exact fun seen h => ih _ (nodup_addKey h k)
  exact go ks [] List.nodup_nil

end BulkAssessment.Keyed
