import BulkAssessment.Decimal.Binary64

/-!
# JSON values

A number is an integer or a double, and the two kinds are never equal: `1` and `1.0`
are different values. The members of an object are listed in increasing order of
their keys, each key once; `setMember` keeps that order.

`same` is equality of values with the two zeros among the doubles taken for one.
-/

namespace BulkAssessment

open Decimal

/-- A JSON number: an integer of 64 bits, signed or unsigned, or a finite double. -/
inductive Number where
  | int (n : Int)
  | double (x : Binary64)
  deriving DecidableEq, Repr

/-- Equality of numbers of one kind. -/
def Number.same : Number → Number → Bool
  | .int m, .int n => m == n
  | .double x, .double y => x.same y
  | _, _ => false

theorem Number.same_comm (m n : Number) : m.same n = n.same m := by
  cases m <;> cases n <;> simp [Number.same, Binary64.same_comm, Bool.beq_comm]

theorem Number.same_refl (n : Number) : n.same n = true := by
  cases n <;> simp [Number.same, Binary64.same_refl]

theorem Number.same_trans {l m n : Number} (h : l.same m = true) (k : m.same n = true) :
    l.same n = true := by
  cases m <;> cases l <;> simp only [Number.same, Bool.false_eq_true, beq_iff_eq] at h
  · rwa [h]
  · cases n <;> simp only [Number.same, Bool.false_eq_true] at k
    exact Binary64.same_trans h k

/-- A JSON value. -/
inductive Json where
  | null
  | bool (b : Bool)
  | number (n : Number)
  | string (s : String)
  | array (items : List Json)
  | object (members : List (String × Json))
  deriving Inhabited, Repr

namespace Json

/-- The integer `n` as a value. -/
def int (n : Int) : Json := .number (.int n)

/-- Set the member of a key in a list ordered by keys. -/
def setMember {α : Type} (key : String) (x : α) : List (String × α) → List (String × α)
  | [] => [(key, x)]
  | (k, y) :: rest =>
    if key < k then (key, x) :: (k, y) :: rest
    else if key = k then (key, x) :: rest
    else (k, y) :: setMember key x rest

/-- The members of a list of keys and values, the last value of a key winning. -/
def membersOf {α : Type} (entries : List (String × α)) : List (String × α) :=
  entries.foldl (fun ms e => setMember e.1 e.2 ms) []

/-- The member of a key. -/
def member? {α : Type} (key : String) : List (String × α) → Option α
  | [] => none
  | (k, x) :: rest => if k = key then some x else member? key rest

/-- An object with the given members in any order. -/
def ofMembers (entries : List (String × Json)) : Json :=
  .object (membersOf entries)

mutual

/-- Equal as values. -/
def same : Json → Json → Bool
  | .null, .null => true
  | .bool a, .bool b => a == b
  | .number m, .number n => m.same n
  | .string s, .string t => s == t
  | .array xs, .array ys => sameItems xs ys
  | .object xs, .object ys => sameMembers xs ys
  | _, _ => false

/-- Equal item by item. -/
def sameItems : List Json → List Json → Bool
  | [], [] => true
  | x :: xs, y :: ys => same x y && sameItems xs ys
  | _, _ => false

/-- Equal member by member. -/
def sameMembers : List (String × Json) → List (String × Json) → Bool
  | [], [] => true
  | (k, x) :: xs, (l, y) :: ys => k == l && same x y && sameMembers xs ys
  | _, _ => false

end

/-! ## Equality of values is an equivalence -/

mutual

theorem same_refl (x : Json) : same x x = true := by
  cases x with
  | null => rfl
  | bool b => simp [same]
  | number n => simp [same, Number.same_refl]
  | string s => simp [same]
  | array xs => simp [same, sameItems_refl xs]
  | object ms => simp [same, sameMembers_refl ms]

theorem sameItems_refl (xs : List Json) : sameItems xs xs = true := by
  match xs with
  | [] => rfl
  | x :: xs => simp [sameItems, same_refl x, sameItems_refl xs]

theorem sameMembers_refl (ms : List (String × Json)) : sameMembers ms ms = true := by
  match ms with
  | [] => rfl
  | (k, x) :: ms => simp [sameMembers, same_refl x, sameMembers_refl ms]

end

mutual

theorem same_comm (x y : Json) : same x y = same y x := by
  match x, y with
  | .null, y => cases y <;> rfl
  | .bool b, y => cases y <;> simp [same, Bool.beq_comm]
  | .number n, y => cases y <;> simp [same, Number.same_comm]
  | .string s, y => cases y <;> simp [same, Bool.beq_comm]
  | .array xs, y => cases y <;> simp [same, sameItems_comm xs]
  | .object ms, y => cases y <;> simp [same, sameMembers_comm ms]

theorem sameItems_comm (xs ys : List Json) : sameItems xs ys = sameItems ys xs := by
  match xs, ys with
  | [], [] => rfl
  | [], y :: ys => rfl
  | x :: xs, [] => rfl
  | x :: xs, y :: ys => rw [sameItems, sameItems, same_comm x, sameItems_comm xs]

theorem sameMembers_comm (ms ns : List (String × Json)) :
    sameMembers ms ns = sameMembers ns ms := by
  match ms, ns with
  | [], [] => rfl
  | [], n :: ns => rfl
  | m :: ms, [] => rfl
  | (k, x) :: ms, (l, y) :: ns =>
    rw [sameMembers, sameMembers, same_comm x, sameMembers_comm ms, Bool.beq_comm]

end

mutual

theorem same_trans {x y z : Json} (h : same x y = true) (k : same y z = true) :
    same x z = true := by
  -- only values of the constructor in the middle are the same as it
  cases y with
  | null =>
    cases x <;> simp only [same, Bool.false_eq_true] at h
    exact k
  | bool b =>
    cases x <;> simp only [same, Bool.false_eq_true, beq_iff_eq] at h
    rwa [h]
  | number n =>
    cases x <;> simp only [same, Bool.false_eq_true] at h
    cases z <;> simp only [same, Bool.false_eq_true] at k
    exact Number.same_trans h k
  | string s =>
    cases x <;> simp only [same, Bool.false_eq_true, beq_iff_eq] at h
    rwa [h]
  | array ys =>
    cases x <;> simp only [same, Bool.false_eq_true] at h
    cases z <;> simp only [same, Bool.false_eq_true] at k
    exact sameItems_trans h k
  | object ys =>
    cases x <;> simp only [same, Bool.false_eq_true] at h
    cases z <;> simp only [same, Bool.false_eq_true] at k
    exact sameMembers_trans h k

theorem sameItems_trans {xs ys zs : List Json} (h : sameItems xs ys = true)
    (k : sameItems ys zs = true) : sameItems xs zs = true := by
  match xs, ys, zs with
  | [], [], zs => exact k
  | x :: xs, y :: ys, z :: zs =>
    simp only [sameItems, Bool.and_eq_true] at *
    exact ⟨same_trans h.1 k.1, sameItems_trans h.2 k.2⟩

theorem sameMembers_trans {xs ys zs : List (String × Json)} (h : sameMembers xs ys = true)
    (k : sameMembers ys zs = true) : sameMembers xs zs = true := by
  match xs, ys, zs with
  | [], [], zs => exact k
  | (a, x) :: xs, (b, y) :: ys, (c, z) :: zs =>
    simp only [sameMembers, Bool.and_eq_true, beq_iff_eq] at *
    exact ⟨⟨h.1.1.trans k.1.1, same_trans h.1.2 k.1.2⟩, sameMembers_trans h.2 k.2⟩

end

end Json

end BulkAssessment
